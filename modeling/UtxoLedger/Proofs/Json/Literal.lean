import UtxoLedger.Json.Literal
import UtxoLedger.Proofs.Text.Hex

/-!
# String literals are read back

Every character of a text is written so that it is scanned as itself, whatever stands behind it:
some behind an escape, control characters by their code unit. So the literal of any text is
scanned to its closing mark, and its text is the one that was written.
-/
namespace UtxoLedger.Json.Literal

/-- The literal of a text, with every character as it is. -/
def ofText (text : List Char) : Literal :=
  ⟨text.map .char, none⟩

theorem scan_escaped {c plain : Char} (escaped : escaped? c = some plain) (rest : List Char) :
    scan ('\\' :: c :: rest) = cons (.char plain) (scan rest) := by
  have short : c ≠ 'u' := by
    rintro rfl
    cases escaped
  rw [scan.eq_def]
  split <;> grind

theorem unit?_of_control {code : Nat} (control : code < 0x20) :
    unit? '0' '0' (Hex.digit (code / 16)) (Hex.digit (code % 16)) = some code := by
  have zero : Hex.digit? '0' = some 0 := by decide
  have high : Hex.digit? (Hex.digit (code / 16)) = some (code / 16) :=
    (Hex.isDigit_digit (by omega)).reads
  have low : Hex.digit? (Hex.digit (code % 16)) = some (code % 16) :=
    (Hex.isDigit_digit (by omega)).reads
  have whole : code / 16 * 16 + code % 16 = code := by omega
  simp [unit?, zero, high, low, whole]

theorem scan_control {c : Char} (control : c.toNat < 0x20) (rest : List Char) :
    scan ('\\' :: 'u' :: '0' :: '0' :: Hex.digit (c.toNat / 16) :: Hex.digit (c.toNat % 16) ::
      rest) = cons (.char c) (scan rest) := by
  have plain : ¬(0xd800 ≤ c.toNat ∧ c.toNat ≤ 0xdfff) := by omega
  rw [scan, unit?_of_control control]
  dsimp only
  rw [pieceOfUnit, if_neg plain, Char.ofNat_toNat]

theorem scan_plain {c : Char} (mark : c ≠ '"') (backslash : c ≠ '\\') (visible : ¬c.toNat < 0x20)
    (rest : List Char) : scan (c :: rest) = cons (.char c) (scan rest) := by
  rw [scan.eq_def]
  split <;> grind

/-- The three ways to write a character. -/
theorem escape_cases (c : Char) :
    (∃ letter, escaped? letter = some c ∧ escape c = ['\\', letter]) ∨
    (c.toNat < 0x20 ∧ escape c = ['\\', 'u', '0', '0', Hex.digit (c.toNat / 16),
      Hex.digit (c.toNat % 16)]) ∨
    (c ≠ '"' ∧ c ≠ '\\' ∧ ¬c.toNat < 0x20 ∧ escape c = [c]) := by
  by_cases short : c ∈ ['"', '\\', '\x08', '\x0c', '\n', '\r', '\t']
  · left
    simp only [List.mem_cons, List.not_mem_nil, or_false] at short
    rcases short with rfl | rfl | rfl | rfl | rfl | rfl | rfl <;> exact ⟨_, rfl, rfl⟩
  · right
    simp only [List.mem_cons, List.not_mem_nil, or_false, not_or] at short
    obtain ⟨mark, backslash, backspace, feed, line, carriage, tab⟩ := short
    unfold escape
    rw [if_neg mark, if_neg backslash, if_neg backspace, if_neg feed, if_neg line, if_neg carriage,
      if_neg tab]
    by_cases control : c.toNat < 0x20
    · have byte : (UInt8.ofNat c.toNat).toNat = c.toNat :=
        UInt8.toNat_ofNat_of_lt' (Nat.lt_trans control (by decide))
      rw [if_pos control]
      left
      exact ⟨control, by simp [Hex.encode, byte]⟩
    · rw [if_neg control]
      exact .inr ⟨mark, backslash, control, rfl⟩

@[simp] theorem scan_escape (c : Char) (rest : List Char) :
    scan (escape c ++ rest) = cons (.char c) (scan rest) := by
  rcases escape_cases c with ⟨letter, escaped, same⟩ | ⟨control, same⟩ |
    ⟨mark, backslash, visible, same⟩
  · rw [same]
    exact scan_escaped escaped rest
  · rw [same]
    exact scan_control control rest
  · rw [same]
    exact scan_plain mark backslash visible rest

/-- What stands behind the opening mark of a text. -/
@[simp] theorem scan_text (text rest : List Char) :
    scan (text.flatMap escape ++ '"' :: rest) = (ofText text, rest) := by
  induction text with
  | nil => rfl
  | cons c text ih =>
    rw [List.flatMap_cons, List.append_assoc, scan_escape, ih]
    rfl

@[simp] theorem text_ofText (text : List Char) : (ofText text).text = .ok text := by
  induction text with
  | nil => rfl
  | cons c text ih =>
    change (join none (text.map .char)).map (c :: ·) = _
    change join none (text.map .char) = .ok text at ih
    rw [ih]
    rfl

end UtxoLedger.Json.Literal
