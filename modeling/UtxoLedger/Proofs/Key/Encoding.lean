import Mathlib.Algebra.Group.Nat.Defs
import UtxoLedger.Key.Secp256k1

/-!
# Public keys and their bytes

A public key is read from 33 bytes, or from 65 that hold both coordinates. The short form is the
one that is written: what was read from 33 bytes is written as the same bytes, and what was read
from 65 bytes never is.
-/
namespace UtxoLedger

namespace Bytes

theorem littleEndian_ofLittleEndian (bytes : Bytes) :
    littleEndian bytes.length (ofLittleEndian bytes) = bytes := by
  induction bytes with
  | nil => rfl
  | cons byte rest ih =>
    have bound := byte.toNat_lt
    have low : (byte.toNat + 256 * ofLittleEndian rest) % 256 = byte.toNat := by omega
    have high : (byte.toNat + 256 * ofLittleEndian rest) / 256 = ofLittleEndian rest := by omega
    rw [List.length_cons, ofLittleEndian, littleEndian, low, high, UInt8.ofNat_toNat, ih]

theorem bigEndian_ofBigEndian (bytes : Bytes) :
    bigEndian bytes.length (ofBigEndian bytes) = bytes := by
  rw [bigEndian, ofBigEndian, ← List.length_reverse, littleEndian_ofLittleEndian,
    List.reverse_reverse]

theorem ofLittleEndian_littleEndian {width n : Nat} (fits : n < 256 ^ width) :
    ofLittleEndian (littleEndian width n) = n := by
  induction width generalizing n with
  | zero => exact (Nat.lt_one_iff.mp fits).symm
  | succ width ih =>
    rw [Nat.pow_succ] at fits
    have high : n / 256 < 256 ^ width := Nat.div_lt_of_lt_mul (by omega)
    have low : (UInt8.ofNat (n % 256)).toNat = n % 256 :=
      UInt8.toNat_ofNat_of_lt' (Nat.mod_lt n (by decide))
    rw [littleEndian, ofLittleEndian, ih high, low, Nat.mod_add_div]

theorem ofBigEndian_bigEndian {width n : Nat} (fits : n < 256 ^ width) :
    ofBigEndian (bigEndian width n) = n := by
  rw [ofBigEndian, bigEndian, List.reverse_reverse, ofLittleEndian_littleEndian fits]

end Bytes

/-- Every step of a power is reduced. -/
theorem Modular.power_lt {modulus : Nat} (base exponent : Nat) (large : 1 < modulus) :
    power modulus base exponent < modulus := by
  have reduced (digits : List Bool) (value : Nat) (below : value < modulus) :
      digits.foldl (fun value bit =>
        let square := value * value % modulus
        if bit then square * base % modulus else square) value < modulus := by
    induction digits generalizing value with
    | nil => exact below
    | cons bit digits ih =>
      refine ih _ ?_
      dsimp only
      split <;> exact Nat.mod_lt _ (by omega)
  exact reduced _ 1 large

namespace Curve.Point

variable {bytes : Bytes} {point : Point}

theorem toBytes_length (point : Point) : point.toBytes.length = 33 := by
  rw [toBytes, List.length_cons, Bytes.bigEndian_length]

/-- Of a root and its negative exactly one is odd, because the prime is. -/
theorem ofX?_eq_some {x : Nat} {odd : Bool} (read : ofX? x odd = some point) :
    point.x = x ∧ (point.y % 2 = 1 ↔ odd = true) := by
  have prime : 1 < fieldPrime ∧ fieldPrime % 2 = 1 := by decide
  have reduced := Modular.power_lt (cubic x) ((fieldPrime + 1) / 4) prime.1
  unfold ofX? at read
  dsimp only at read
  generalize Modular.power fieldPrime (cubic x) ((fieldPrime + 1) / 4) = root at read reduced
  rw [Option.ite_none_right_eq_some, Option.some.injEq] at read
  obtain ⟨valid, rfl⟩ := read
  refine ⟨rfl, ?_⟩
  simp only [isValid, Bool.and_eq_true, decide_eq_true_eq] at valid
  have below := valid.1.2
  dsimp only
  split at below
  next same => rw [if_pos same, ← same, decide_eq_true_eq]
  next differ =>
    rw [if_neg differ]
    cases odd <;> simp at differ ⊢ <;> omega

theorem ofBytes?_length (read : ofBytes? bytes = some point) :
    bytes.length = 33 ∨ bytes.length = 65 := by
  cases bytes with
  | nil => cases read
  | cons mark rest =>
    unfold ofBytes? at read
    dsimp only at read
    split at read
    next short => exact .inl (congrArg Nat.succ short)
    next =>
      split at read
      next long => exact .inr (congrArg Nat.succ long)
      next => cases read

/-- The mark of the short form says the parity of the second coordinate, and nothing else of the
point is left out. -/
theorem toBytes_of_ofBytes? (read : ofBytes? bytes = some point) (short : bytes.length = 33) :
    point.toBytes = bytes := by
  cases bytes with
  | nil => cases read
  | cons mark rest =>
    have size : rest.length = 32 := Nat.succ.inj short
    unfold ofBytes? at read
    dsimp only at read
    rw [if_pos size, List.take_of_length_le (Nat.le_of_eq size)] at read
    split at read
    next marked =>
      obtain ⟨whole, parity⟩ := ofX?_eq_some read
      have first := Bytes.bigEndian_ofBigEndian rest
      rw [size, ← whole] at first
      rw [toBytes, first]
      rcases marked with rfl | rfl
      · rw [if_pos]
        have even := mt parity.mp (by decide)
        omega
      · rw [if_neg]
        have odd := parity.mpr rfl
        omega
    next => cases read

end Curve.Point

end UtxoLedger
