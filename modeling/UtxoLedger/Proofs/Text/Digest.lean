import UtxoLedger.Proofs.Text.Spelling

/-!
# The text of a digest

A digest has one text: 128 small digits, and a mark in front that may be missing. Every other text
is refused, and for one of three reasons, each looked at only when those before it do not apply:
the text has the wrong length in bytes, it has a capital, or it has a character that is no digit.
-/
namespace UtxoLedger

namespace Hex

theorem byteLength_eq (text : List Char) : byteLength text = (String.ofList text).utf8ByteSize := by
  have onto (start : Nat) : text.foldl (fun length c => length + c.utf8Size) start =
      start + (String.ofList text).utf8ByteSize := by
    induction text generalizing start with
    | nil => simp
    | cons c rest ih =>
      rw [List.foldl_cons, ih, String.ofList_cons, String.utf8ByteSize_append,
        String.utf8ByteSize_singleton, Nat.add_assoc]
  exact (onto 0).trans (Nat.zero_add _)

/-- Digits are read up to the first character that is none, and that one is reported. -/
theorem digits_refused (position : Nat) {text : List Char}
    (refused : ∃ c ∈ text, ∀ value, ¬Denotes c value) :
    ∃ front c rest, text = front ++ c :: rest ∧ (∀ d ∈ front, ∃ value, Denotes d value) ∧
      (∀ value, ¬Denotes c value) ∧
      digits position text =
        .error (.badDigit ((String.utf8EncodeChar c).headD 0) (position + front.length)) := by
  induction text generalizing position with
  | nil => simp at refused
  | cons c rest ih =>
    rw [digits]
    split
    next value read =>
      -- A digit is not the one looked for; it only moves the place on.
      have denotes := digit?_eq_some_iff.mp read
      have later : ∃ d ∈ rest, ∀ value, ¬Denotes d value := by
        rw [List.exists_mem_cons_iff] at refused
        exact refused.resolve_left fun none => none value denotes
      obtain ⟨front, d, others, rfl, before, none, error⟩ := ih (position + 1) later
      refine ⟨c :: front, d, others, rfl, ?_, none, ?_⟩
      · exact List.forall_mem_cons.mpr ⟨⟨value, denotes⟩, before⟩
      · rw [error, List.length_cons, Nat.add_assoc, Nat.add_comm 1]
        rfl
    next none =>
      refine ⟨[], c, rest, rfl, by simp, fun value denotes => ?_, rfl⟩
      rw [digit?_eq_some_iff.mpr denotes] at none
      cases none

end Hex

namespace Digest

variable {text body : List Char}

/-- A mark in front makes no difference. -/
theorem ofHex_unmarked (unmarked : Hex.Unmarked text body) :
    ofHex text = ofHex ('0' :: 'x' :: body) := by
  rw [ofHex, ofHex, Hex.unmarked_iff.mp unmarked, Hex.dropMark_mark]

theorem any_capital_iff :
    (body.any fun c => 'A' ≤ c ∧ c ≤ 'Z') = true ↔ ∃ c ∈ body, c.isUpper = true := by
  simp [Hex.isUpper_iff]

theorem ofHex_ok_iff {digest : Digest} :
    ofHex ('0' :: 'x' :: body) = .ok digest ↔ body = Hex.encode digest.bytes := by
  constructor
  · intro read
    rw [ofHex, Hex.dropMark_mark] at read
    -- Of all that is checked, only the digits and the capitals are needed: they fix the text.
    split at read
    next => cases read
    next =>
      split at read
      next => cases read
      next small =>
        split at read
        next => cases read
        next bytes decoded =>
          unfold ofBytes at read
          split at read
          next =>
            cases read
            refine Hex.eq_encode_iff.mpr ⟨Hex.decode_ok_iff.mp decoded, fun c member => ?_⟩
            rw [any_capital_iff] at small
            exact Bool.eq_false_iff.mpr fun capital => small ⟨c, member, capital⟩
          next => cases read
  · rintro rfl
    exact ofHex_toHex digest

theorem exists_encode_iff :
    (∃ digest : Digest, body = Hex.encode digest.bytes) ↔
      body.length = 128 ∧ ∀ c ∈ body, c ∈ Hex.lowercase := by
  constructor
  · rintro ⟨digest, rfl⟩
    obtain ⟨spelled, small⟩ := Hex.eq_encode_iff.mp (Eq.refl (Hex.encode digest.bytes))
    refine ⟨by rw [Hex.encode_length, digest.length_eq], fun c member => ?_⟩
    exact Hex.mem_lowercase_iff.mpr ⟨spelled.digits c member, small c member⟩
  · rintro ⟨length, listed⟩
    have digits (c : Char) (member : c ∈ body) := Hex.mem_lowercase_iff.mp (listed c member)
    obtain ⟨bytes, spelled⟩ := Hex.exists_spells (by omega) fun c member => (digits c member).1
    have size := spelled.length
    exact ⟨⟨bytes, by omega⟩, Hex.eq_encode_iff.mpr ⟨spelled, fun c member => (digits c member).2⟩⟩

/-! The reasons to refuse a text, in their order. -/

theorem ofHex_of_length (length : Hex.byteLength body ≠ 128) :
    ofHex ('0' :: 'x' :: body) = .error (.invalidLength (Hex.byteLength body / 2)) := by
  rw [ofHex, Hex.dropMark_mark, if_pos length]

theorem ofHex_of_capital (length : Hex.byteLength body = 128)
    (capital : ∃ c ∈ body, c.isUpper = true) :
    ofHex ('0' :: 'x' :: body) = .error .uppercaseDigit := by
  rw [ofHex, Hex.dropMark_mark, if_neg (not_not.mpr length), if_pos (any_capital_iff.mpr capital)]

theorem ofHex_of_refused (length : Hex.byteLength body = 128)
    (small : ∀ c ∈ body, c.isUpper = false) {error : HexError}
    (refused : Hex.digits 0 body = .error error) :
    ofHex ('0' :: 'x' :: body) = .error (.invalidHex error) := by
  have plain : ¬(body.any fun c => 'A' ≤ c ∧ c ≤ 'Z') = true := by
    rw [any_capital_iff]
    rintro ⟨c, member, capital⟩
    rw [small c member] at capital
    cases capital
  have decoded : Hex.decode body = .error error := by
    rw [Hex.decode, if_neg (by omega), refused]
    rfl
  rw [ofHex, Hex.dropMark_mark, if_neg (not_not.mpr length), if_neg plain, decoded]

/-- A text is read as a digest exactly when it is 128 small digits, with or without a mark, and it
is then the text of that digest. What is wrong with any other text is found in a fixed order: its
length in bytes, a capital, the first character that is no digit. -/
theorem ofString_outcome (text body : String) (unmarked : Hex.Unmarked text.toList body.toList) :
    ((∃ digest, ofString text = .ok digest) ↔
      body.length = 128 ∧ ∀ c ∈ body.toList, c ∈ Hex.lowercase) ∧
    (∀ digest, ofString text = .ok digest → digest.toString = "0x" ++ body) ∧
    (∀ digest : Digest, ofString digest.toString = .ok digest) ∧
    (body.utf8ByteSize ≠ 128 →
      ofString text = .error (.invalidLength (body.utf8ByteSize / 2))) ∧
    (body.utf8ByteSize = 128 → (∃ c ∈ body.toList, c.isUpper = true) →
      ofString text = .error .uppercaseDigit) ∧
    (body.utf8ByteSize = 128 → (∀ c ∈ body.toList, c.isUpper = false) →
      (∃ c ∈ body.toList, c ∉ Hex.lowercase) →
      ∃ front c rest, body.toList = front ++ c :: rest ∧ (∀ d ∈ front, d ∈ Hex.lowercase) ∧
        c ∉ Hex.lowercase ∧ ofString text = .error (.invalidHex
          (.badDigit ((String.utf8EncodeChar c).headD 0) front.length))) := by
  have size : Hex.byteLength body.toList = body.utf8ByteSize := by
    rw [Hex.byteLength_eq, String.ofList_toList]
  -- From here on there is always a mark.
  have read : ofString text = ofHex ('0' :: 'x' :: body.toList) := ofHex_unmarked unmarked
  rw [read, ← size]
  refine ⟨?_, fun digest found => ?_, fun digest => ?_, ofHex_of_length, ofHex_of_capital,
    fun length small ⟨c, member, unlisted⟩ => ?_⟩
  · simp only [ofHex_ok_iff]
    exact exists_encode_iff
  · rw [← String.toList_inj, toString, String.toList_ofList, toHex, ← ofHex_ok_iff.mp found]
    simp
  · rw [ofString, toString, String.toList_ofList, ofHex_toHex]
  · have refused : ∃ c ∈ body.toList, ∀ value, ¬Hex.Denotes c value :=
      ⟨c, member, fun value denotes =>
        unlisted (Hex.mem_lowercase_iff.mpr ⟨⟨value, denotes⟩, small c member⟩)⟩
    obtain ⟨front, d, rest, parts, before, none, error⟩ := Hex.digits_refused 0 refused
    rw [parts] at small
    refine ⟨front, d, rest, parts, fun e inside => ?_, fun listed => ?_, ?_⟩
    · exact Hex.mem_lowercase_iff.mpr ⟨before e inside, small e (by simp [inside])⟩
    · obtain ⟨⟨value, denotes⟩, -⟩ := Hex.mem_lowercase_iff.mp listed
      exact none value denotes
    · rw [Nat.zero_add] at error
      exact ofHex_of_refused length (parts ▸ small) error

/-- A second mark makes a text of two bytes. With accents there can be 128 bytes in fewer
characters, and a capital among them is named before they are. -/
theorem ofString_outcome_accented :
    let accented := String.ofList (List.replicate 64 'é')
    let shouted := String.ofList (List.replicate 63 'é' ++ ['0', 'G'])
    (Hex.Unmarked "0x0x".toList "0x".toList ∧ ofString "0x0x" = .error (.invalidLength 1)) ∧
    (Hex.Unmarked ("0x" ++ shouted).toList shouted.toList ∧ shouted.utf8ByteSize = 128 ∧
      ofString ("0x" ++ shouted) = .error .uppercaseDigit) ∧
    Hex.Unmarked accented.toList accented.toList ∧ accented.utf8ByteSize = 128 ∧
      ∃ error, ofString accented = .error (.invalidHex error) := by
  intro accented shouted
  have accents : ∀ c ∈ accented.toList, c = 'é' := fun c member => by
    rw [String.toList_ofList] at member
    exact List.eq_of_mem_replicate member
  have accent : 'é' ∈ accented.toList := by
    rw [String.toList_ofList]
    exact List.mem_replicate.mpr ⟨by decide, rfl⟩
  have capital : 'G' ∈ shouted.toList := by
    rw [String.toList_ofList]
    exact List.mem_append_right _ (by decide)
  have twice : Hex.Unmarked "0x0x".toList "0x".toList := .inl rfl
  have marked : Hex.Unmarked ("0x" ++ shouted).toList shouted.toList :=
    .inl (String.toList_append ..)
  have unmarked : Hex.Unmarked accented.toList accented.toList := by
    refine .inr ⟨rfl, fun rest begins => ?_⟩
    have zero : '0' ∈ accented.toList := by rw [begins]; exact List.mem_cons_self
    exact absurd (accents '0' zero) (by decide)
  have shoutedSize : shouted.utf8ByteSize = 128 := by
    rw [← Hex.byteLength_eq]
    decide +kernel
  have accentedSize : accented.utf8ByteSize = 128 := by
    rw [← Hex.byteLength_eq]
    decide +kernel
  obtain ⟨-, -, -, short, -⟩ := ofString_outcome "0x0x" "0x" twice
  obtain ⟨-, -, -, -, loud, -⟩ := ofString_outcome ("0x" ++ shouted) shouted marked
  obtain ⟨-, -, -, -, -, refused⟩ := ofString_outcome accented accented unmarked
  obtain ⟨_, _, _, -, -, -, error⟩ := refused accentedSize
    (fun c member => by rw [accents c member]; decide) ⟨'é', accent, by decide⟩
  exact ⟨⟨twice, short (by decide)⟩, ⟨marked, shoutedSize, loud shoutedSize ⟨'G', capital, rfl⟩⟩,
    unmarked, accentedSize, _, error⟩

end Digest

end UtxoLedger
