import UtxoLedger.Digest

/-!
# Hexadecimal text is read back

Every byte is written as two digits, for its two halves. The digits are ASCII, so a text of them
has as many bytes as characters, and no digit is mistaken for the x of a mark. Reading the text of
some bytes gives the bytes, and reading the text of a digest gives the digest.
-/
namespace UtxoLedger

namespace Hex

/-- What sets the sixteen digits apart from all that is refused or dropped. -/
structure IsDigit (value : Nat) (c : Char) : Prop where
  reads : digit? c = some value
  ascii : c.utf8Size = 1
  small : ¬('A' ≤ c ∧ c ≤ 'Z')
  unmarked : c ≠ 'x'

theorem isDigit_digit {value : Nat} (half : value < 16) : IsDigit value (digit value) := by
  have table : ∀ value < 16, digit? (digit value) = some value ∧ (digit value).utf8Size = 1 ∧
      ¬('A' ≤ digit value ∧ digit value ≤ 'Z') ∧ digit value ≠ 'x' := by decide
  obtain ⟨reads, ascii, small, unmarked⟩ := table value half
  exact ⟨reads, ascii, small, unmarked⟩

/-- The halves of bytes, in the order in which they are written. -/
def halves (bytes : Bytes) : List Nat :=
  bytes.flatMap fun byte => [byte.toNat / 16, byte.toNat % 16]

@[simp] theorem halves_cons (byte : UInt8) (bytes : Bytes) :
    halves (byte :: bytes) = byte.toNat / 16 :: byte.toNat % 16 :: halves bytes := rfl

theorem encode_eq (bytes : Bytes) : encode bytes = (halves bytes).map digit := by
  simp [encode, halves, List.map_flatMap]

theorem halves_lt {bytes : Bytes} {value : Nat} (member : value ∈ halves bytes) : value < 16 := by
  obtain ⟨byte, -, half⟩ := List.mem_flatMap.mp member
  have bound := byte.toNat_lt
  simp only [List.mem_cons, List.not_mem_nil, or_false] at half
  rcases half with rfl | rfl <;> omega

theorem isDigit_of_mem_encode {bytes : Bytes} {c : Char} (member : c ∈ encode bytes) :
    ∃ value, IsDigit value c := by
  rw [encode_eq, List.mem_map] at member
  obtain ⟨value, half, rfl⟩ := member
  exact ⟨value, isDigit_digit (halves_lt half)⟩

@[simp] theorem encode_length (bytes : Bytes) : (encode bytes).length = 2 * bytes.length := by
  simp [encode, List.map_const', Nat.mul_comm]

theorem byteLength_of_ascii {text : List Char} (ascii : ∀ c ∈ text, c.utf8Size = 1) :
    byteLength text = text.length := by
  have onto (start : Nat) :
      text.foldl (fun length c => length + c.utf8Size) start = start + text.length := by
    induction text generalizing start with
    | nil => rfl
    | cons c rest ih =>
      rw [List.forall_mem_cons] at ascii
      rw [List.foldl_cons, ih ascii.2, ascii.1, List.length_cons]
      omega
  exact (onto 0).trans (Nat.zero_add _)

@[simp] theorem byteLength_encode (bytes : Bytes) : byteLength (encode bytes) = 2 * bytes.length := by
  rw [byteLength_of_ascii, encode_length]
  intro c member
  obtain ⟨_, digit⟩ := isDigit_of_mem_encode member
  exact digit.ascii

private theorem digits_map (position : Nat) {values : List Nat}
    (small : ∀ value ∈ values, value < 16) : digits position (values.map digit) = .ok values := by
  induction values generalizing position with
  | nil => rfl
  | cons value rest ih =>
    rw [List.forall_mem_cons] at small
    rw [List.map_cons, digits, (isDigit_digit small.1).reads, ih (position + 1) small.2]
    rfl

@[simp] theorem joinDigits_halves (bytes : Bytes) : joinDigits (halves bytes) = bytes := by
  induction bytes with
  | nil => rfl
  | cons byte rest ih =>
    have whole : byte.toNat / 16 * 16 + byte.toNat % 16 = byte.toNat := by omega
    rw [halves_cons, joinDigits, whole, UInt8.ofNat_toNat, ih]

@[simp] theorem decode_encode (bytes : Bytes) : decode (encode bytes) = .ok bytes := by
  have even : ¬2 * bytes.length % 2 = 1 := by omega
  have read : digits 0 (encode bytes) = .ok (halves bytes) := by
    rw [encode_eq]
    exact digits_map 0 fun _ => halves_lt
  rw [decode, byteLength_encode, if_neg even, read]
  exact congrArg Except.ok (joinDigits_halves bytes)

@[simp] theorem dropMark_mark (text : List Char) : dropMark ('0' :: 'x' :: text) = text := rfl

@[simp] theorem dropMark_encode (bytes : Bytes) : dropMark (encode bytes) = encode bytes := by
  unfold dropMark
  split
  next rest marked =>
    -- The second character would have to be a digit.
    have second : 'x' ∈ encode bytes := by simp [marked]
    obtain ⟨_, digit⟩ := isDigit_of_mem_encode second
    exact absurd rfl digit.unmarked
  next => rfl

end Hex

@[simp] theorem Digest.ofHex_toHex (digest : Digest) : Digest.ofHex digest.toHex = .ok digest := by
  have size : Hex.byteLength (Hex.encode digest.bytes) = 128 := by
    rw [Hex.byteLength_encode, digest.length_eq]
  have lowercase :
      ¬((Hex.encode digest.bytes).any fun c => 'A' ≤ c ∧ c ≤ 'Z') = true := by
    rw [List.any_eq_true]
    rintro ⟨c, member, capital⟩
    obtain ⟨_, digit⟩ := Hex.isDigit_of_mem_encode member
    exact digit.small (of_decide_eq_true capital)
  rw [Digest.ofHex, Digest.toHex, Hex.dropMark_mark]
  rw [if_neg (Decidable.not_not.mpr size), if_neg lowercase, Hex.decode_encode]
  exact dif_pos digest.length_eq

end UtxoLedger
