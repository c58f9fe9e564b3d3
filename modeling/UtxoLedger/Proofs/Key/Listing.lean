import Mathlib.Data.List.ReduceOption
import Mathlib.Data.Nat.Digits.Defs
import UtxoLedger.Key.Pair
import UtxoLedger.Proofs.Amount.Exact
import UtxoLedger.Proofs.Key.Encoding
import UtxoLedger.Proofs.Text.Blank
import UtxoLedger.Proofs.Text.Spelling

/-!
# Private keys as text

A private key is written with 64 digits, the digits of its number. They are read in either case,
and no other text is read as that key. Several keys stand between commas, with blanks around them
and blank parts among them, and are read in the order in which they stand. A list is refused only
for a part that is neither blank nor a key.
-/
namespace UtxoLedger

namespace Hex

variable {text : List Char} {bytes : Bytes}

theorem denotes_iff_toLower {c : Char} {value : Nat} (small : value < 16) :
    Denotes c value ↔ c.toLower = digit value := by
  constructor
  · intro denotes
    exact denotes.of_rows (P := fun c value => c.toLower = digit value) (by decide) (by decide)
  · intro same
    -- Nothing but a capital changes, and these are few enough to try them all.
    by_cases capital : c.isUpper = true
    · have within : c.toNat ≤ 'Z'.toNat := (isUpper_iff.mp capital).2
      have codes : ∀ code ≤ 'Z'.toNat, ∀ value < 16,
          (Char.ofNat code).toLower = digit value → Denotes (Char.ofNat code) value := by decide
      have found := codes c.toNat within value small
      rw [Char.ofNat_toNat] at found
      exact found same
    · have unchanged : c.toLower = c := dif_neg fun letter => capital (isUpper_iff.mpr letter)
      rw [unchanged] at same
      exact digit?_eq_some_iff.mp (same ▸ (isDigit_digit small).reads)

/-- In lowercase every spelling of some bytes is the one that is written. -/
theorem spells_iff_toLower : Spells text bytes ↔ text.map Char.toLower = encode bytes := by
  rw [encode_eq, Spells]
  have small : ∀ value ∈ halves bytes, value < 16 := fun _ => halves_lt
  generalize halves bytes = values at small
  induction values generalizing text with
  | nil => simp
  | cons value values ih =>
    rw [List.forall_mem_cons] at small
    cases text with
    | nil => simp
    | cons c rest => simp [denotes_iff_toLower small.1, ih small.2]

theorem Spells.not_blank (spelled : Spells text bytes) : ∀ c ∈ text, Text.isBlank c = false := by
  intro c member
  obtain ⟨value, denotes⟩ := spelled.digits c member
  exact denotes.of_rows (P := fun c _ => Text.isBlank c = false) (by decide) (by decide)

/-- So many digits of a number, the first of them for its highest place. -/
def Writes (width : Nat) (text : List Char) (number : Nat) : Prop :=
  text.length = width ∧
    ∃ values, List.Forall₂ Denotes text values ∧ Nat.ofDigits 16 values.reverse = number

theorem ofDigits_halves (bytes : Bytes) :
    Nat.ofDigits 16 (halves bytes).reverse = Bytes.ofBigEndian bytes := by
  induction bytes using List.reverseRecOn with
  | nil => rfl
  | append_singleton bytes byte ih =>
    have parts : (halves (bytes ++ [byte])).reverse =
        byte.toNat % 16 :: byte.toNat / 16 :: (halves bytes).reverse := by
      simp [halves]
    have number : Bytes.ofBigEndian (bytes ++ [byte]) =
        byte.toNat + 256 * Bytes.ofBigEndian bytes := by
      simp [Bytes.ofBigEndian, Bytes.ofLittleEndian]
    rw [parts, Nat.ofDigits_cons, Nat.ofDigits_cons, ih, number]
    omega

/-- Two digits for every byte write the number of the bytes. -/
theorem writes_iff (width : Nat) {number : Nat} :
    Writes (2 * width) text number ↔
      ∃ bytes, Spells text bytes ∧ bytes.length = width ∧ Bytes.ofBigEndian bytes = number := by
  constructor
  · rintro ⟨length, values, denoted, rfl⟩
    have spelled := spells_joinDigits denoted (by omega)
    have size := spelled.length
    -- A text denotes one list of values only.
    have read : digits 0 text = .ok values := digits_ok_iff.mpr denoted
    have again : digits 0 text = .ok (halves (joinDigits values)) := digits_ok_iff.mpr spelled
    refine ⟨joinDigits values, spelled, by omega, ?_⟩
    rw [← ofDigits_halves, Except.ok.inj (again.symm.trans read)]
  · rintro ⟨bytes, spelled, rfl, rfl⟩
    exact ⟨spelled.length, halves bytes, spelled, ofDigits_halves bytes⟩

end Hex

/-! ## One key -/

namespace SecretScalar

variable {bytes : Bytes} {secret : SecretScalar}

theorem ofBytes?_eq_some_iff :
    ofBytes? bytes = some secret ↔
      bytes.length = 32 ∧ Bytes.ofBigEndian bytes = secret.value := by
  unfold ofBytes?
  obtain ⟨value, positive, below⟩ := secret
  constructor
  · intro read
    dsimp only at read
    split at read
    next valid =>
      cases read
      exact ⟨valid.1, rfl⟩
    next => cases read
  · rintro ⟨length, rfl⟩
    exact dif_pos ⟨length, positive, below⟩

theorem toBytes_eq_iff : secret.toBytes = bytes ↔ ofBytes? bytes = some secret := by
  rw [ofBytes?_eq_some_iff, toBytes]
  constructor
  · rintro rfl
    have fits : secret.value < 256 ^ 32 := Nat.lt_trans secret.below (by decide)
    exact ⟨Bytes.bigEndian_length 32 secret.value, Bytes.ofBigEndian_bigEndian fits⟩
  · rintro ⟨length, number⟩
    rw [← number, ← length, Bytes.bigEndian_ofBigEndian]

end SecretScalar

namespace KeyPair

variable {S : SignatureScheme} {text : List Char} {pair : KeyPair secp256k1}

theorem ofHex_ok_iff {pair : KeyPair S} :
    ofHex S text = .ok pair ↔
      ∃ bytes, Hex.Spells text bytes ∧ S.secretOfBytes? bytes = some pair.secret := by
  simp only [← Hex.decode_ok_iff]
  unfold ofHex
  cases Hex.decode text with
  | error error => simp
  | ok bytes =>
    simp only [Except.ok.injEq, exists_eq_left']
    cases S.secretOfBytes? bytes with
    | none => simp
    | some secret => cases pair; simp

theorem eq_of_ofHex_error {error : KeyError} (refused : ofHex S text = .error error) :
    error = .invalidPrivateKey := by
  unfold ofHex at refused
  split at refused
  next =>
    cases refused
    rfl
  next =>
    split at refused
    next => cases refused
    next =>
      cases refused
      rfl

theorem ofHex_ok_iff_writes :
    ofHex secp256k1 text = .ok pair ↔ Hex.Writes 64 text (SecretScalar.value pair.secret) := by
  rw [ofHex_ok_iff, Hex.writes_iff 32]
  exact exists_congr fun bytes => and_congr_right' SecretScalar.ofBytes?_eq_some_iff

theorem ofHex_ok_iff_toLower :
    ofHex secp256k1 text = .ok pair ↔ text.map Char.toLower = pair.privateHex := by
  have read (bytes : Bytes) :
      secp256k1.secretOfBytes? bytes = some pair.secret ↔
        secp256k1.secretBytes pair.secret = bytes :=
    SecretScalar.toBytes_eq_iff.symm
  simp only [ofHex_ok_iff, read, exists_eq_right', privateHex, Hex.spells_iff_toLower]

theorem ne_nil_of_ofHex (read : ofHex secp256k1 text = .ok pair) : text ≠ [] := by
  rintro rfl
  exact absurd (ofHex_ok_iff_writes.mp read).1 (by decide)

theorem exists_ofHex_ok_iff :
    (∃ pair, ofHex secp256k1 text = .ok pair) ↔
      ∃ number, 0 < number ∧ number < Curve.groupOrder ∧ Hex.Writes 64 text number := by
  simp only [ofHex_ok_iff_writes]
  constructor
  · rintro ⟨⟨secret⟩, writes⟩
    exact ⟨_, secret.positive, secret.below, writes⟩
  · rintro ⟨number, positive, below, writes⟩
    exact ⟨⟨⟨number, positive, below⟩⟩, writes⟩

end KeyPair

/-! ## A list of keys -/

theorem forall_left {α β : Type} {R : α → β → Prop} {P : α → Prop} {items : List α}
    {values : List β} (related : List.Forall₂ R items values) (holds : ∀ a b, R a b → P a) :
    ∀ item ∈ items, P item :=
  ((List.forall₂_and_left _ _).mp (related.imp fun a b pair => ⟨holds a b pair, pair⟩)).1

namespace Except

variable {α β ε : Type} {f : α → Except ε β} {items : List α}

/-- A traversal that succeeds is pointwise success. -/
theorem mapM_ok_iff {values : List β} :
    items.mapM f = .ok values ↔
      List.Forall₂ (fun item value => f item = .ok value) items values := by
  induction items generalizing values with
  | nil => cases values <;> simp [pure, Except.pure]
  | cons item items ih =>
    rw [List.mapM_cons, bind_ok_iff, List.forall₂_cons_left_iff]
    simp only [bind_ok_iff, ih, pure, Except.pure, Except.ok.injEq]
    constructor
    · rintro ⟨value, first, values, others, rfl⟩
      exact ⟨value, values, first, others, rfl⟩
    · rintro ⟨value, values, first, others, rfl⟩
      exact ⟨value, first, values, others, rfl⟩

theorem exists_of_mapM_error {error : ε} (failed : items.mapM f = .error error) :
    ∃ item ∈ items, f item = .error error := by
  induction items with
  | nil => cases failed
  | cons item items ih =>
    rw [List.mapM_cons] at failed
    cases first : f item with
    | error other =>
      rw [first] at failed
      cases failed
      exact ⟨item, List.mem_cons_self, first⟩
    | ok value =>
      cases others : items.mapM f with
      | error other =>
        rw [first, others] at failed
        cases failed
        obtain ⟨item, member, refused⟩ := ih others
        exact ⟨item, List.mem_cons_of_mem _ member, refused⟩
      | ok values =>
        rw [first, others] at failed
        cases failed

end Except

theorem splitOn_comma_cons (c : Char) (rest : List Char) :
    (c :: rest).splitOn ',' =
      if (c == ',') = true then [] :: rest.splitOn ','
      else (rest.splitOn ',').modifyHead (c :: ·) :=
  List.splitOnP_cons_eq_if_modifyHead c rest

theorem commaParts_eq (text : List Char) : commaParts text = text.splitOn ',' := by
  fun_induction commaParts text with
  | case1 => rfl
  | case2 rest ih =>
    rw [splitOn_comma_cons, ← ih]
    rfl
  | case3 c rest other part parts found ih =>
    rw [splitOn_comma_cons, ← ih, found, if_neg (by simpa using other)]
    rfl
  | case4 c rest other found ih =>
    rw [found] at ih
    exact absurd ih.symm (List.splitOnP_ne_nil _ rest)

/-- A part of a list. It is blank, or a key is written there among blanks, in letters of either
case. -/
inductive KeyPart : List Char → Option (KeyPair secp256k1) → Prop
  | blank {part : List Char} (blank : Text.Blank part) : KeyPart part none
  | key {front body back : List Char} {pair : KeyPair secp256k1} (blankFront : Text.Blank front)
      (written : body.map Char.toLower = pair.privateHex) (blankBack : Text.Blank back) :
      KeyPart (front ++ body ++ back) (some pair)

section KeyPart

variable {part : List Char} {pair : KeyPair secp256k1}

theorem keyPart_none_iff : KeyPart part none ↔ Text.trim part = [] := by
  rw [Text.trim_eq_nil_iff]
  constructor
  · rintro ⟨blank⟩
    exact blank
  · exact .blank

theorem keyPart_some_iff :
    KeyPart part (some pair) ↔ KeyPair.ofHex secp256k1 (Text.trim part) = .ok pair := by
  constructor
  · rintro (_ | ⟨blankFront, written, blankBack⟩)
    have read := KeyPair.ofHex_ok_iff_toLower.mpr written
    obtain ⟨bytes, spelled, -⟩ := KeyPair.ofHex_ok_iff.mp read
    rwa [(Text.trims_of_no_blank blankFront blankBack spelled.not_blank).trim_eq]
  · intro read
    obtain ⟨front, back, whole, blankFront, blankBack⟩ := (Text.trims_trim part).between
    rw [whole]
    exact .key blankFront (KeyPair.ofHex_ok_iff_toLower.mp read) blankBack

theorem KeyPart.no_comma {key : Option (KeyPair secp256k1)} (known : KeyPart part key) :
    ',' ∉ part := by
  have solid : Text.isBlank ',' ≠ true := by decide
  intro comma
  cases known with
  | blank blank => exact solid (blank ',' comma)
  | key blankFront written blankBack =>
    have read := KeyPair.ofHex_ok_iff_toLower.mpr written
    obtain ⟨bytes, spelled, -⟩ := KeyPair.ofHex_ok_iff.mp read
    simp only [List.mem_append] at comma
    rcases comma with (inFront | inBody) | inBack
    · exact solid (blankFront ',' inFront)
    · obtain ⟨value, denotes⟩ := spelled.digits ',' inBody
      exact absurd (Hex.digit?_eq_some_iff.mpr denotes) (by simp [Hex.digit?])
    · exact solid (blankBack ',' inBack)

end KeyPart

theorem read_parts_iff {parts : List (List Char)} {pairs : List (KeyPair secp256k1)} :
    ((parts.map Text.trim).filter fun part => !part.isEmpty).mapM (KeyPair.ofHex secp256k1) =
        .ok pairs ↔
      ∃ keys, List.Forall₂ KeyPart parts keys ∧ keys.reduceOption = pairs := by
  rw [Except.mapM_ok_iff]
  induction parts generalizing pairs with
  | nil => simp [eq_comm]
  | cons part parts ih =>
    rw [List.map_cons]
    -- A blank part is dropped before the keys are read, and no key stands for it.
    by_cases blank : Text.trim part = []
    · rw [List.filter_cons_of_neg (by simp [blank]), ih]
      constructor
      · rintro ⟨keys, known, rfl⟩
        exact ⟨none :: keys, .cons (keyPart_none_iff.mpr blank) known, rfl⟩
      · rintro ⟨_, _ | @⟨_, key, _, keys, first, known⟩, rfl⟩
        cases key with
        | none => exact ⟨keys, known, rfl⟩
        | some pair => exact absurd blank (KeyPair.ne_nil_of_ofHex (keyPart_some_iff.mp first))
    · rw [List.filter_cons_of_pos (by simp [blank]), List.forall₂_cons_left_iff]
      constructor
      · rintro ⟨pair, pairs, read, others, rfl⟩
        obtain ⟨keys, known, rfl⟩ := ih.mp others
        exact ⟨some pair :: keys, .cons (keyPart_some_iff.mpr read) known, rfl⟩
      · rintro ⟨_, _ | @⟨_, key, _, keys, first, known⟩, rfl⟩
        cases key with
        | none => exact absurd (keyPart_none_iff.mp first) blank
        | some pair =>
          exact ⟨pair, _, keyPart_some_iff.mp first, ih.mpr ⟨keys, known, rfl⟩, rfl⟩

/-- Parts without commas are found again; a text without parts is one empty part. -/
theorem exists_parts_iff {text : List Char} {pairs : List (KeyPair secp256k1)} :
    (∃ keys, List.Forall₂ KeyPart (text.splitOn ',') keys ∧ keys.reduceOption = pairs) ↔
      ∃ parts keys, text = [','].intercalate parts ∧ List.Forall₂ KeyPart parts keys ∧
        keys.reduceOption = pairs := by
  constructor
  · rintro ⟨keys, known, listed⟩
    exact ⟨text.splitOn ',', keys, (List.intercalate_splitOn ',').symm, known, listed⟩
  · rintro ⟨parts, keys, rfl, known, listed⟩
    cases parts with
    | nil =>
      cases known
      exact ⟨[none], .cons (.blank (by simp [Text.Blank])) .nil, listed⟩
    | cons _ _ =>
      have commaFree := forall_left known fun _ _ known => known.no_comma
      exact ⟨keys, by rwa [List.splitOn_intercalate ',' commaFree (by simp)], listed⟩

theorem keyPairsOfText_error_iff {S : SignatureScheme} {text : List Char} {error : KeyError} :
    keyPairsOfText S text = .error error ↔
      error = .invalidPrivateKey ∧ ∃ part ∈ commaParts text, Text.trim part ≠ [] ∧
        ¬∃ pair, KeyPair.ofHex S (Text.trim part) = .ok pair := by
  -- There is one error only, so it does not matter which of several parts is refused first.
  constructor
  · intro failed
    obtain ⟨core, member, refused⟩ := Except.exists_of_mapM_error failed
    rw [List.mem_filter, List.mem_map] at member
    obtain ⟨⟨part, inside, rfl⟩, some⟩ := member
    refine ⟨KeyPair.eq_of_ofHex_error refused, part, inside, by simpa using some, ?_⟩
    rintro ⟨pair, read⟩
    rw [refused] at read
    cases read
  · rintro ⟨rfl, part, inside, some, unread⟩
    cases result : keyPairsOfText S text with
    | ok pairs =>
      have kept : Text.trim part ∈
          ((commaParts text).map Text.trim).filter fun part => !part.isEmpty :=
        List.mem_filter.mpr ⟨List.mem_map_of_mem inside, by simpa using some⟩
      have read : ∀ core ∈ _, ∃ pair, KeyPair.ofHex S core = .ok pair :=
        forall_left (Except.mapM_ok_iff.mp result) fun _ pair read => ⟨pair, read⟩
      exact absurd (read _ kept) unread
    | error other =>
      obtain ⟨core, -, refused⟩ := Except.exists_of_mapM_error result
      rw [KeyPair.eq_of_ofHex_error refused]

/-- A list of parts with commas between them is read as the keys among the parts, in their order.
It is refused for a part with something in it besides blanks that is not 64 digits of a number from
1 to the group order less one. -/
theorem keyPairsOfText_outcome (text : List Char) :
    (∀ pairs, keyPairsOfText secp256k1 text = .ok pairs ↔
      ∃ parts keys, text = [','].intercalate parts ∧ List.Forall₂ KeyPart parts keys ∧
        keys.reduceOption = pairs) ∧
    (∀ error, keyPairsOfText secp256k1 text = .error error ↔
      error = .invalidPrivateKey ∧ ∃ part ∈ text.splitOn ',', ∃ core, Text.Trims part core ∧
        core ≠ [] ∧
          ¬∃ number, 0 < number ∧ number < Curve.groupOrder ∧ Hex.Writes 64 core number) := by
  refine ⟨fun pairs => ?_, fun error => ?_⟩
  · rw [keyPairsOfText, read_parts_iff, commaParts_eq, exists_parts_iff]
  · rw [keyPairsOfText_error_iff, commaParts_eq]
    simp only [KeyPair.exists_ofHex_ok_iff, ← Text.trim_eq_iff, exists_eq_left']

/-- The keys of 1 and of 171 stand among a tab, a no-break space, an ideographic space and parts
with nothing to read, the second in digits of either case. A part of zeros alone is no key. -/
theorem keyPairsOfText_outcome_two_keys :
    let one : KeyPair secp256k1 := ⟨⟨1, by decide, by decide⟩⟩
    let other : KeyPair secp256k1 := ⟨⟨171, by decide, by decide⟩⟩
    let zeros := List.replicate 62 '0'
    let parts := [['\t', '\u00a0'] ++ (zeros ++ ['0', '1']) ++ ['\u3000'], [], [' ', '\u2003'],
      [] ++ (zeros ++ ['a', 'B']) ++ ['\n']]
    let zero := [' '] ++ (zeros ++ ['0', '0']) ++ []
    keyPairsOfText secp256k1 ([','].intercalate parts) = .ok [one, other] ∧
    keyPairsOfText secp256k1 ([','].intercalate (parts ++ [zero])) = .error .invalidPrivateKey := by
  intro one other zeros parts zero
  constructor
  · apply ((keyPairsOfText_outcome _).1 _).mpr
    refine ⟨parts, [some one, none, none, some other], rfl, ?_, rfl⟩
    -- No key stands for the two parts in the middle.
    have first : KeyPart parts[0] (some one) :=
      .key (by decide) (by decide +kernel) (by decide)
    have last : KeyPart parts[3] (some other) :=
      .key (by decide) (by decide +kernel) (by decide)
    exact .cons first (.cons (.blank (by decide)) (.cons (.blank (by decide)) (.cons last .nil)))
  · apply ((keyPairsOfText_outcome _).2 _).mpr
    refine ⟨rfl, zero, by decide +kernel, zeros ++ ['0', '0'], Text.trim_eq_iff.mp (by decide),
      List.cons_ne_nil _ _, ?_⟩
    rw [← KeyPair.exists_ofHex_ok_iff]
    rintro ⟨pair, read⟩
    have refused : (KeyPair.ofHex secp256k1 (zeros ++ ['0', '0'])).toBool = false := by
      decide +kernel
    rw [read] at refused
    cases refused

end UtxoLedger
