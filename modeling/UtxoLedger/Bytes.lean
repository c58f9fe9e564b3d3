/-!
# Words as bytes

Fixed-width byte forms of natural numbers. Records are hashed over little-endian
words; keys, signatures and the SHA-256 family use big-endian ones.
-/
namespace UtxoLedger

abbrev Bytes := List UInt8

namespace Bytes

/-- The low `width` bytes of a number, least significant first. -/
def littleEndian : Nat → Nat → Bytes
  | 0, _ => []
  | width + 1, n => UInt8.ofNat (n % 256) :: littleEndian width (n / 256)

/-- The number that bytes write, least significant byte first. Without any bytes it is zero. -/
def ofLittleEndian : Bytes → Nat
  | [] => 0
  | byte :: rest => byte.toNat + 256 * ofLittleEndian rest

/-- The low `width` bytes of a number, most significant first. -/
def bigEndian (width n : Nat) : Bytes :=
  (littleEndian width n).reverse

/-- The number that bytes write, most significant byte first. Zeros in front add nothing. -/
def ofBigEndian (bytes : Bytes) : Nat :=
  ofLittleEndian bytes.reverse

theorem littleEndian_length (width n : Nat) : (littleEndian width n).length = width := by
  induction width generalizing n with
  | zero => rfl
  | succ width ih => simp [littleEndian, ih]

theorem bigEndian_length (width n : Nat) : (bigEndian width n).length = width := by
  simp [bigEndian, littleEndian_length]

/-- Consecutive blocks of `size` bytes; the last one may be shorter. No block is empty. -/
def blocks (size : Nat) : Bytes → List Bytes
  | [] => []
  | first :: rest => (first :: rest.take (size - 1)) :: blocks size (rest.drop (size - 1))
termination_by bytes => bytes.length
decreasing_by
  simp only [List.length_drop, List.length_cons]
  omega

end Bytes

end UtxoLedger
