import Mathlib.Data.List.Forall2
import UtxoLedger.Proofs.Text.Decimal
import UtxoLedger.Proofs.Text.Hex

/-!
# What a text spells

The numbers and the bytes that a text stands for, said digit by digit and without a word about how
texts are read. Reading finds a value exactly where the text spells it. A value can have many
spellings: numbers take a plus sign and zeros in front, bytes take a mark and capital digits. The
spelling with none of these is the one that is written.
-/
namespace UtxoLedger

namespace Decimal

/-- Digits, at least one of them, and at most one plus sign in front. -/
def Spells (text : List Char) (value : Nat) : Prop :=
  ∃ digits, (text = digits ∨ text = '+' :: digits) ∧ digits ≠ [] ∧
    (∀ c ∈ digits, c.isDigit = true) ∧ Nat.ofDigitChars 10 digits 0 = value

/-- No sign, and a zero in front only where it is the whole text. -/
structure Plain (text : List Char) : Prop where
  unsigned : ∀ rest, text ≠ '+' :: rest
  unpadded : ∀ rest, text = '0' :: rest → rest = []

/-! Where the value is not known, a scan still has to pass every character. -/

theorem isDigit_of_scan {limit value found : Nat} {text : List Char}
    (scanned : scan limit value text = .ok found) : ∀ c ∈ text, c.isDigit = true := by
  induction text generalizing value with
  | nil => simp
  | cons c rest ih =>
    rw [scan] at scanned
    split at scanned
    next => cases scanned
    next d digit =>
      split at scanned
      next => exact List.forall_mem_cons.mpr ⟨(digit?_eq_some_iff.mp digit).1, ih scanned⟩
      next => cases scanned

theorem scan_ok_iff {limit found : Nat} {text : List Char} (positive : 0 < limit) :
    scan limit 0 text = .ok found ↔ (∀ c ∈ text, c.isDigit = true) ∧
      Nat.ofDigitChars 10 text 0 = found ∧ found < limit := by
  constructor
  · intro scanned
    have digits := isDigit_of_scan scanned
    rw [scan_digits digits positive] at scanned
    split at scanned
    next below =>
      cases scanned
      exact ⟨digits, rfl, below⟩
    next => cases scanned
  · rintro ⟨digits, rfl, below⟩
    rw [scan_digits digits positive, if_pos below]

theorem readBelow_ok_iff {limit found : Nat} {text : List Char} (positive : 0 < limit) :
    readBelow limit text = .ok found ↔ Spells text found ∧ found < limit := by
  constructor
  · intro read
    unfold readBelow at read
    split at read
    next => cases read
    next => cases read
    next rest some =>
      obtain ⟨digits, value, below⟩ := (scan_ok_iff positive).mp read
      exact ⟨⟨rest, .inr rfl, fun none => some (none ▸ rfl), digits, value⟩, below⟩
    next some _ _ =>
      obtain ⟨digits, value, below⟩ := (scan_ok_iff positive).mp read
      exact ⟨⟨text, .inl rfl, some, digits, value⟩, below⟩
  · rintro ⟨⟨digits, form, some, all, value⟩, below⟩
    rw [← (scan_ok_iff positive).mpr ⟨all, value, below⟩]
    rcases form with rfl | rfl
    · -- A text of digits does not begin with a sign.
      unfold readBelow
      split
      next => exact absurd rfl some
      next => simp at all
      next => simp at all
      next => rfl
    · cases digits with
      | nil => exact absurd rfl some
      | cons c rest => rfl

theorem read_ok_iff {text : List Char} {value : UInt64} :
    read text = .ok value ↔ Spells text value.toNat := by
  rw [read, Except.map_ok_iff]
  constructor
  · rintro ⟨found, read, rfl⟩
    obtain ⟨spelled, below⟩ := (readBelow_ok_iff (by decide)).mp read
    rwa [UInt64.toNat_ofNat_of_lt' below]
  · intro spelled
    refine ⟨value.toNat, (readBelow_ok_iff (by decide)).mpr ⟨spelled, value.toNat_lt_size⟩, ?_⟩
    exact UInt64.ofNat_toNat

theorem toDigits_valueOf {c : Char} (digit : c.isDigit = true) :
    valueOf c < 10 ∧ Nat.toDigits 10 (valueOf c) = [c] := by
  have bounds := bounds_of_isDigit digit
  have value : valueOf c = c.toNat - 48 := rfl
  have small : valueOf c < 10 := by omega
  have shown : (valueOf c).digitChar = c := by
    rw [← Char.toNat_inj, Nat.toNat_digitChar_of_lt_ten small]
    omega
  rw [Nat.toDigits_of_lt_base small, shown]
  exact ⟨small, rfl⟩

/-- Digits behind a positive number are the further digits of a larger one. -/
theorem toDigits_ofDigitChars {value : Nat} {text : List Char} (positive : 0 < value)
    (digits : ∀ c ∈ text, c.isDigit = true) :
    Nat.toDigits 10 (Nat.ofDigitChars 10 text value) = Nat.toDigits 10 value ++ text := by
  induction text generalizing value with
  | nil => simp
  | cons c rest ih =>
    rw [List.forall_mem_cons] at digits
    obtain ⟨small, single⟩ := toDigits_valueOf digits.1
    -- The first digit joins the number in front, which stays positive; then come the others.
    calc Nat.toDigits 10 (Nat.ofDigitChars 10 (c :: rest) value)
      _ = Nat.toDigits 10 (Nat.ofDigitChars 10 rest (10 * value + valueOf c)) := by
        rw [Nat.ofDigitChars_cons, valueOf]
      _ = Nat.toDigits 10 (10 * value + valueOf c) ++ rest := ih (by omega) digits.2
      _ = Nat.toDigits 10 value ++ [c] ++ rest := by
        rw [← Nat.toDigits_append_toDigits (by decide) positive small, single]
      _ = Nat.toDigits 10 value ++ c :: rest := by simp

theorem plain_toDigits (n : Nat) : Plain (Nat.toDigits 10 n) := by
  constructor
  · intro rest sign
    have digit : '+'.isDigit = true := isDigit_toDigits (n := n) (sign ▸ List.mem_cons_self)
    cases digit
  · intro rest zero
    by_cases single : n < 10
    · rw [Nat.toDigits_of_lt_base single] at zero
      exact (List.cons.inj zero).2.symm
    · refine absurd ?_ (toDigits_head_ne_zero (n := n) (by omega))
      rw [zero]
      rfl

/-- Of all spellings of a number only the written one is plain. -/
theorem eq_toDigits_iff {text : List Char} {value : Nat} :
    text = Nat.toDigits 10 value ↔ Spells text value ∧ Plain text := by
  constructor
  · rintro rfl
    refine ⟨⟨_, .inl rfl, Nat.toDigits_ne_nil, fun _ => isDigit_toDigits, ?_⟩, plain_toDigits value⟩
    exact Nat.ofDigitChars_ten_toDigits
  · rintro ⟨⟨digits, rfl | rfl, some, all, rfl⟩, plain⟩
    · cases text with
      | nil => exact absurd rfl some
      | cons c rest =>
        rw [List.forall_mem_cons] at all
        obtain ⟨small, single⟩ := toDigits_valueOf all.1
        have value : Nat.ofDigitChars 10 (c :: rest) 0 = Nat.ofDigitChars 10 rest (valueOf c) := by
          rw [Nat.ofDigitChars_cons, Nat.mul_zero, Nat.zero_add, valueOf]
        rw [value]
        by_cases zero : valueOf c = 0
        · -- Nothing can stand behind a zero in front.
          have same : c = '0' := by simpa [zero] using single.symm
          rw [plain.unpadded rest (by rw [same])]
          exact single.symm
        · rw [toDigits_ofDigitChars (by omega) all.2, single]
          rfl
    · exact absurd rfl (plain.unsigned digits)

end Decimal

namespace Hex

/-- The digits from zero to fifteen. -/
def lowercase : List Char :=
  ['0', '1', '2', '3', '4', '5', '6', '7', '8', '9', 'a', 'b', 'c', 'd', 'e', 'f']

/-- The same digits, the letters among them as capitals. -/
def uppercase : List Char :=
  ['0', '1', '2', '3', '4', '5', '6', '7', '8', '9', 'A', 'B', 'C', 'D', 'E', 'F']

/-- A digit of either case and its value. -/
def Denotes (c : Char) (value : Nat) : Prop :=
  lowercase[value]? = some c ∨ uppercase[value]? = some c

instance (c : Char) (value : Nat) : Decidable (Denotes c value) :=
  inferInstanceAs (Decidable (_ ∨ _))

/-- Two digits for every byte, the first for its upper half. -/
def Spells (text : List Char) (bytes : Bytes) : Prop :=
  List.Forall₂ Denotes text (halves bytes)

/-- What stands behind at most one mark. -/
def Unmarked (text body : List Char) : Prop :=
  text = '0' :: 'x' :: body ∨ text = body ∧ ∀ rest, text ≠ '0' :: 'x' :: rest

/-- No mark and no capitals. -/
structure Plain (text : List Char) : Prop where
  unmarked : ∀ rest, text ≠ '0' :: 'x' :: rest
  small : ∀ c ∈ text, c.isUpper = false

theorem unmarked_iff {text body : List Char} : Unmarked text body ↔ dropMark text = body := by
  unfold Unmarked dropMark
  split
  next rest => simp
  next other =>
    constructor
    · rintro (marked | ⟨same, -⟩)
      · exact absurd marked (other body)
      · exact same
    · exact fun same => .inr ⟨same, other⟩

section Digits

variable {c : Char} {value : Nat}

/-- What holds all along both rows holds of every digit. -/
theorem Denotes.of_rows {P : Char → Nat → Prop} (denotes : Denotes c value)
    (small : ∀ i : Fin lowercase.length, P (lowercase.get i) i)
    (capital : ∀ i : Fin uppercase.length, P (uppercase.get i) i) : P c value := by
  rcases denotes with found | found
  · obtain ⟨inside, rfl⟩ := List.getElem?_eq_some_iff.mp found
    exact small ⟨value, inside⟩
  · obtain ⟨inside, rfl⟩ := List.getElem?_eq_some_iff.mp found
    exact capital ⟨value, inside⟩

theorem Denotes.lt (denotes : Denotes c value) : value < 16 :=
  denotes.of_rows (P := fun _ value => value < 16) Fin.isLt Fin.isLt

theorem Denotes.ascii (denotes : Denotes c value) : c.utf8Size = 1 :=
  denotes.of_rows (P := fun c _ => c.utf8Size = 1) (by decide) (by decide)

/-- A digit that is no capital is the one that is written for its value. -/
theorem Denotes.eq_digit (denotes : Denotes c value) (plain : c.isUpper = false) :
    c = digit value :=
  denotes.of_rows (P := fun c value => c.isUpper = false → c = digit value) (by decide)
    (by decide) plain

theorem digit?_eq_some_iff : digit? c = some value ↔ Denotes c value := by
  constructor
  · intro read
    -- No digit has a code beyond that of the last letter.
    have within : c.toNat ≤ 'f'.toNat := by
      simp only [digit?, Char.le_def, UInt32.le_iff_toNat_le] at read
      split at read
      next digit => exact Nat.le_trans digit.2 (by decide)
      next =>
        split at read
        next small => exact small.2
        next =>
          split at read
          next capital => exact Nat.le_trans capital.2 (by decide)
          next => cases read
    have codes : ∀ code ≤ 'f'.toNat, ∀ value, digit? (Char.ofNat code) = some value →
        Denotes (Char.ofNat code) value := by decide
    have found := codes c.toNat within value
    rw [Char.ofNat_toNat] at found
    exact found read
  · intro denotes
    exact denotes.of_rows (P := fun c value => digit? c = some value) (by decide) (by decide)

theorem isUpper_iff : c.isUpper = true ↔ 'A' ≤ c ∧ c ≤ 'Z' :=
  decide_eq_true_iff

theorem mem_lowercase_iff : c ∈ lowercase ↔ (∃ value, Denotes c value) ∧ c.isUpper = false := by
  constructor
  · intro member
    have plain : ∀ c ∈ lowercase, c.isUpper = false := by simp [lowercase]
    obtain ⟨value, found⟩ := List.mem_iff_getElem?.mp member
    exact ⟨⟨value, .inl found⟩, plain c member⟩
  · rintro ⟨⟨value, denotes⟩, plain⟩
    have listed : ∀ value < 16, digit value ∈ lowercase := by decide
    rw [denotes.eq_digit plain]
    exact listed value denotes.lt

end Digits

section Bytes

variable {text : List Char} {bytes : Bytes}

theorem digits_ok_iff {position : Nat} {values : List Nat} :
    digits position text = .ok values ↔ List.Forall₂ Denotes text values := by
  induction text generalizing position values with
  | nil => simp [digits, eq_comm]
  | cons c rest ih =>
    rw [digits, List.forall₂_cons_left_iff]
    split
    next value read =>
      have only (other : Nat) : Denotes c other ↔ other = value := by
        rw [← digit?_eq_some_iff, read, Option.some.injEq, eq_comm]
      -- Every character denotes one value at most, so the two lists go on together.
      simp only [Except.map_ok_iff, ih, only]
      grind
    next refused =>
      have none (value : Nat) : ¬Denotes c value := by
        simp [← digit?_eq_some_iff, refused]
      simp [none]

/-- An even number of halves is put together to bytes and taken apart again. -/
theorem halves_joinDigits {values : List Nat} (even : values.length % 2 = 0)
    (small : ∀ value ∈ values, value < 16) : halves (joinDigits values) = values := by
  fun_induction joinDigits values with
  | case1 high low rest ih =>
    rw [List.forall_mem_cons, List.forall_mem_cons] at small
    obtain ⟨highSmall, lowSmall, others⟩ := small
    have byte : (UInt8.ofNat (high * 16 + low)).toNat = high * 16 + low :=
      UInt8.toNat_ofNat_of_lt' (by simp only [UInt8.size]; omega)
    have upper : (high * 16 + low) / 16 = high := by omega
    have lower : (high * 16 + low) % 16 = low := by omega
    simp only [List.length_cons] at even
    rw [halves_cons, byte, upper, lower, ih (by omega) others]
  | case2 values short =>
    -- A half without its other half would make their number odd.
    cases values with
    | nil => rfl
    | cons high rest =>
      cases rest with
      | nil => simp at even
      | cons low rest => exact absurd rfl (short high low rest)

theorem exists_denoted_iff :
    (∃ values, List.Forall₂ Denotes text values) ↔ ∀ c ∈ text, ∃ value, Denotes c value := by
  induction text with
  | nil => simp
  | cons c rest ih =>
    rw [List.forall_mem_cons, ← ih]
    constructor
    · rintro ⟨_, _ | ⟨first, others⟩⟩
      exact ⟨⟨_, first⟩, _, others⟩
    · rintro ⟨⟨_, first⟩, _, others⟩
      exact ⟨_, .cons first others⟩

theorem spells_joinDigits {values : List Nat} (denoted : List.Forall₂ Denotes text values)
    (even : text.length % 2 = 0) : Spells text (joinDigits values) := by
  have small : ∀ value ∈ values, value < 16 := by
    clear even
    induction denoted with
    | nil => simp
    | cons first _ ih => exact List.forall_mem_cons.mpr ⟨first.lt, ih⟩
  rw [Spells, halves_joinDigits (denoted.length_eq ▸ even) small]
  exact denoted

theorem Spells.digits (spelled : Spells text bytes) : ∀ c ∈ text, ∃ value, Denotes c value :=
  exists_denoted_iff.mp ⟨halves bytes, spelled⟩

theorem Spells.length (spelled : Spells text bytes) : text.length = 2 * bytes.length := by
  rw [List.Forall₂.length_eq spelled, ← encode_length, encode_eq, List.length_map]

/-- Digits are ASCII, so there are as many of them as bytes. -/
theorem byteLength_of_digits (digits : ∀ c ∈ text, ∃ value, Denotes c value) :
    byteLength text = text.length := by
  refine byteLength_of_ascii fun c member => ?_
  obtain ⟨_, denotes⟩ := digits c member
  exact denotes.ascii

theorem decode_ok_iff : decode text = .ok bytes ↔ Spells text bytes := by
  unfold decode
  constructor
  · intro decoded
    split at decoded
    next => cases decoded
    next even =>
      obtain ⟨values, read, rfl⟩ := Except.map_ok_iff.mp decoded
      have denoted := digits_ok_iff.mp read
      rw [byteLength_of_digits (exists_denoted_iff.mp ⟨values, denoted⟩)] at even
      exact spells_joinDigits denoted (by omega)
  · intro spelled
    have even : ¬byteLength text % 2 = 1 := by
      rw [byteLength_of_digits spelled.digits, spelled.length]
      omega
    rw [if_neg even, Except.map_ok_iff]
    exact ⟨halves bytes, digits_ok_iff.mpr spelled, joinDigits_halves bytes⟩

/-- An even number of digits spells some bytes. -/
theorem exists_spells (even : text.length % 2 = 0) (digits : ∀ c ∈ text, ∃ value, Denotes c value) :
    ∃ bytes, Spells text bytes := by
  obtain ⟨values, denoted⟩ := exists_denoted_iff.mpr digits
  exact ⟨_, spells_joinDigits denoted even⟩

theorem spells_encode (bytes : Bytes) : Spells (encode bytes) bytes :=
  decode_ok_iff.mp (decode_encode bytes)

/-- Of all spellings of some bytes only the written one is without capitals. -/
theorem eq_encode_iff :
    text = encode bytes ↔ Spells text bytes ∧ ∀ c ∈ text, c.isUpper = false := by
  constructor
  · rintro rfl
    refine ⟨spells_encode bytes, fun c member => ?_⟩
    obtain ⟨_, digit⟩ := isDigit_of_mem_encode member
    rw [Bool.eq_false_iff, Ne, isUpper_iff]
    exact digit.small
  · rintro ⟨spelled, plain⟩
    rw [encode_eq]
    -- Which bytes the values are halves of is of no account here.
    unfold Spells at spelled
    generalize halves bytes = values at spelled
    induction spelled with
    | nil => rfl
    | cons first _ ih =>
      rw [List.forall_mem_cons] at plain
      rw [List.map_cons, ← first.eq_digit plain.1, ← ih plain.2]

theorem plain_encode (bytes : Bytes) : Plain (encode bytes) where
  unmarked := by
    intro rest marked
    have same := dropMark_encode bytes
    rw [marked, dropMark_mark] at same
    have lengths := congrArg List.length same
    simp only [List.length_cons] at lengths
    omega
  small := (eq_encode_iff.mp rfl).2

end Bytes

end Hex

end UtxoLedger
