import UtxoLedger.Command.Report
import UtxoLedger.Proofs.Wire.Spelling

/-!
# Payloads on the command line and on the wire

A payload is given as the digits of its bytes, with marks in front. On the wire there may be one
mark, on the command line any number of them. So the command line takes what the wire takes, for
the same bytes, and the two differ in those texts that have more than one mark.
-/
namespace UtxoLedger

namespace Hex

/-- So many marks in front of a text. -/
def marked (marks : Nat) (body : List Char) : List Char :=
  (List.replicate marks ['0', 'x']).flatten ++ body

theorem marked_succ (marks : Nat) (body : List Char) :
    marked (marks + 1) body = '0' :: 'x' :: marked marks body := by
  simp [marked, List.replicate_succ]

theorem exists_marked (text : List Char) : ∃ marks, text = marked marks (dropMarks text) := by
  fun_induction dropMarks text with
  | case1 rest ih =>
    obtain ⟨marks, same⟩ := ih
    exact ⟨marks + 1, by rw [marked_succ, ← same]⟩
  | case2 text other => exact ⟨0, rfl⟩

section Spelled

variable {text body : List Char} {bytes : Bytes} {marks : Nat}

/-- The x of a mark is no digit. -/
theorem Spells.ne_marked (spelled : Spells body bytes) (marks : Nat) (rest : List Char) :
    body ≠ marked (marks + 1) rest := by
  rintro rfl
  rw [marked_succ] at spelled
  obtain ⟨value, denotes⟩ := spelled.digits 'x' (by simp)
  exact absurd (digit?_eq_some_iff.mpr denotes) (by simp [digit?])

theorem dropMarks_marked (spelled : Spells body bytes) (marks : Nat) :
    dropMarks (marked marks body) = body := by
  induction marks with
  | zero =>
    change dropMarks body = body
    unfold dropMarks
    split
    next rest => exact absurd rfl (spelled.ne_marked 0 rest)
    next => rfl
  | succ marks ih => rw [marked_succ, dropMarks, ih]

theorem decode_dropMarks_ok_iff :
    decode (dropMarks text) = .ok bytes ↔
      ∃ marks body, text = marked marks body ∧ Spells body bytes := by
  rw [decode_ok_iff]
  constructor
  · intro spelled
    obtain ⟨marks, same⟩ := exists_marked text
    exact ⟨marks, _, same, spelled⟩
  · rintro ⟨marks, body, rfl, spelled⟩
    rwa [dropMarks_marked spelled]

theorem unmarked_spelled_iff :
    (∃ body, Unmarked text body ∧ Spells body bytes) ↔
      ∃ marks body, marks ≤ 1 ∧ text = marked marks body ∧ Spells body bytes := by
  constructor
  · rintro ⟨body, rfl | ⟨rfl, -⟩, spelled⟩
    · exact ⟨1, body, Nat.le_refl 1, rfl, spelled⟩
    · exact ⟨0, text, Nat.zero_le 1, rfl, spelled⟩
  · rintro ⟨marks, body, few, rfl, spelled⟩
    refine ⟨body, ?_, spelled⟩
    cases marks with
    | zero => exact .inr ⟨rfl, spelled.ne_marked 0⟩
    | succ marks =>
      cases Nat.le_zero.mp (Nat.le_of_succ_le_succ few)
      exact .inl rfl

/-- The marks and the digits of a text can be told apart. -/
theorem marked_inj {other : List Char} {fewer : Nat} {values : Bytes} (spelled : Spells body bytes)
    (also : Spells other values) (same : marked marks body = marked fewer other) :
    marks = fewer ∧ body = other := by
  have digits := congrArg dropMarks same
  rw [dropMarks_marked spelled, dropMarks_marked also] at digits
  have lengths := congrArg List.length same
  simp [marked, digits] at lengths
  exact ⟨lengths, digits⟩

end Spelled

end Hex

namespace Command

open Json

/-- Either reader takes digits behind marks and nothing else, but on the wire there is one mark at
most. So the two agree on a text exactly if it is not one with several marks in front of digits. -/
theorem payload_agrees_iff (text : String) (literal : Literal)
    (said : literal.text = .ok text.toList) :
    (∀ bytes, readPayload (some text) = .ok bytes ↔
      ∃ marks body, text.toList = Hex.marked marks body ∧ Hex.Spells body bytes) ∧
    (∀ bytes, Wire.decodeBytes (.string literal) = .ok bytes ↔
      ∃ marks body, marks ≤ 1 ∧ text.toList = Hex.marked marks body ∧ Hex.Spells body bytes) ∧
    ((∀ bytes, readPayload (some text) = .ok bytes ↔
        Wire.decodeBytes (.string literal) = .ok bytes) ↔
      ¬∃ marks body bytes, 1 < marks ∧ text.toList = Hex.marked marks body ∧
        Hex.Spells body bytes) := by
  have taken (bytes : Bytes) : readPayload (some text) = .ok bytes ↔
      ∃ marks body, text.toList = Hex.marked marks body ∧ Hex.Spells body bytes :=
    Hex.decode_dropMarks_ok_iff
  have decoded (bytes : Bytes) : Wire.decodeBytes (.string literal) = .ok bytes ↔
      ∃ marks body, marks ≤ 1 ∧ text.toList = Hex.marked marks body ∧ Hex.Spells body bytes := by
    rw [Wire.decodeBytes_ok_iff said, Hex.unmarked_spelled_iff]
  refine ⟨taken, decoded, ?_, ?_⟩
  · rintro agrees ⟨marks, body, bytes, many, same, spelled⟩
    -- On the wire the text would have to have fewer marks than it has.
    have accepted := (agrees bytes).mp ((taken bytes).mpr ⟨marks, body, same, spelled⟩)
    obtain ⟨fewer, other, few, also, spelledAlso⟩ := (decoded bytes).mp accepted
    obtain ⟨rfl, -⟩ := Hex.marked_inj spelled spelledAlso (same.symm.trans also)
    exact Nat.not_le.mpr many few
  · intro single bytes
    rw [taken, decoded]
    constructor
    · rintro ⟨marks, body, same, spelled⟩
      have few : ¬1 < marks := fun many => single ⟨marks, body, bytes, many, same, spelled⟩
      exact ⟨marks, body, Nat.not_lt.mp few, same, spelled⟩
    · rintro ⟨marks, body, -, same, spelled⟩
      exact ⟨marks, body, same, spelled⟩

/-- Digits of either case behind a single mark mean the same byte to both. -/
theorem payload_agrees_iff_single_mark :
    let text := "0xaB"
    let literal : Literal := .ofText text.toList
    literal.text = .ok text.toList ∧ readPayload (some text) = .ok [0xab] ∧
      ∀ bytes, readPayload (some text) = .ok bytes ↔
        Wire.decodeBytes (.string literal) = .ok bytes := by
  intro text literal
  have said : literal.text = .ok text.toList := Literal.text_ofText _
  obtain ⟨taken, -, agrees⟩ := payload_agrees_iff text literal said
  have spelled : Hex.Spells ['a', 'B'] [0xab] := by
    unfold Hex.Spells
    decide
  have single : text.toList = Hex.marked 1 ['a', 'B'] := by decide
  refine ⟨said, (taken _).mpr ⟨1, ['a', 'B'], single, spelled⟩, agrees.mpr ?_⟩
  rintro ⟨marks, body, bytes, many, same, also⟩
  obtain ⟨rfl, -⟩ := Hex.marked_inj spelled also (single.symm.trans same)
  exact Nat.lt_irrefl 1 many

/-- Two marks in front of a byte: it is taken on the command line, and on the wire the x of the
second mark is reported as a character that is no digit. -/
theorem payload_marked_twice :
    let text := "0x0xab"
    let literal : Literal := .ofText text.toList
    literal.text = .ok text.toList ∧ readPayload (some text) = .ok [0xab] ∧
      Wire.decodeBytes (.string literal) = .error (.content (.hex (.badDigit 120 1))) ∧
      ¬((∃ bytes, readPayload (some text) = .ok bytes) ↔
        ∃ bytes, Wire.decodeBytes (.string literal) = .ok bytes) := by
  intro text literal
  have taken : readPayload (some text) = .ok [0xab] := by decide +kernel
  have refused : Wire.decodeBytes (.string literal) =
      .error (.content (.hex (.badDigit 120 1))) := by decide +kernel
  refine ⟨Literal.text_ofText _, taken, refused, ?_⟩
  rw [taken, refused]
  simp

end Command

end UtxoLedger
