import Mathlib.Data.List.TakeWhile
import UtxoLedger.Proofs.Json.Reading
import UtxoLedger.Proofs.Text.Torn

/-!
# Torn documents

The text of a document that breaks off is read to its end, and what is read is a remnant of the
document: what stands before the tear is read as it was written, and where the tear is the text is
found to have ended. Only a number can be torn without a trace in its own reading; it is a smaller
number then, and it is what stands behind it that is missing.
-/
namespace UtxoLedger.Json

open Text

namespace Literal

/-- The text has ended before the closing mark. -/
def BreaksOff (scanned : Literal × List Char) : Prop :=
  scanned.2 = [] ∧ scanned.1.text = .error .truncated

theorem breaksOff_stopped : BreaksOff (stopped .truncated) := ⟨rfl, rfl⟩

theorem BreaksOff.cons {scanned : Literal × List Char} (breaks : BreaksOff scanned) (c : Char) :
    BreaksOff (cons (.char c) scanned) := by
  obtain ⟨ended, truncated⟩ := breaks
  refine ⟨ended, ?_⟩
  change (scanned.1.text).map (c :: ·) = _
  rw [truncated]
  rfl

/-- Fewer digits than the four of a code unit. -/
theorem breaksOff_unit {high low : Char} (ascii : high.utf8Size = 1 ∧ low.utf8Size = 1)
    {text : List Char} (torn : Torn text ['0', '0', high, low]) :
    BreaksOff (scan ('\\' :: 'u' :: text)) := by
  have zero : '0'.utf8Size = 1 := rfl
  simp only [torn_cons_iff, not_torn_nil, and_false, exists_false, or_false] at torn
  rcases torn with rfl | ⟨_, rfl, rfl | ⟨_, rfl, rfl | ⟨_, rfl, rfl⟩⟩⟩ <;>
    simp [scan, Hex.byteLength, zero, ascii, breaksOff_stopped]

theorem breaksOff_escape {c : Char} {text : List Char} (torn : Torn text (escape c)) :
    BreaksOff (scan text) := by
  rcases escape_cases c with ⟨letter, -, same⟩ | ⟨control, same⟩ | ⟨-, -, -, same⟩
  · rw [same, torn_cons_iff] at torn
    rcases torn with rfl | ⟨rest, rfl, behind⟩
    · exact breaksOff_stopped
    · rw [torn_singleton_iff.mp behind]
      exact breaksOff_stopped
  · rw [same, torn_cons_iff] at torn
    rcases torn with rfl | ⟨rest, rfl, behind⟩
    · exact breaksOff_stopped
    · rcases torn_cons_iff.mp behind with rfl | ⟨digits, rfl, few⟩
      · exact breaksOff_stopped
      · refine breaksOff_unit ⟨?_, ?_⟩ few
        · exact (Hex.isDigit_digit (by omega)).ascii
        · exact (Hex.isDigit_digit (by omega)).ascii
  · rw [same, torn_singleton_iff] at torn
    rw [torn]
    exact breaksOff_stopped

/-- Characters that are complete are scanned as they are, and then the text has ended. -/
theorem breaksOff_text {content text : List Char}
    (torn : Torn text (content.flatMap escape ++ ['"'])) : BreaksOff (scan text) := by
  induction content generalizing text with
  | nil =>
    rw [torn_singleton_iff.mp torn]
    exact breaksOff_stopped
  | cons c content ih =>
    rw [List.flatMap_cons, List.append_assoc] at torn
    rcases torn.of_append with inside | ⟨rest, rfl, behind⟩
    · exact breaksOff_escape inside
    · rw [scan_escape]
      exact (ih behind).cons c

end Literal

mutual

/-- What may be read where a document was written and its end is missing. -/
inductive Document.Remnant : Document → Reading → Prop
  | start (document : Document) : Document.Remnant document (.broken .truncated)
  | number {value fewer : Nat} (positive : 0 < fewer) (shorter : 10 * fewer ≤ value) :
    Document.Remnant (.number value) (.number (.ok (.ofNat fewer)))
  | string {literal : Literal} (content : List Char) (breaks : literal.text = .error .truncated) :
    Document.Remnant (.string content) (.string literal)
  | array {items : Documents} {found : Items} (remnant : Documents.Remnant items found) :
    Document.Remnant (.array items) (.array found)
  | object {members : Entries} {found : Members} (remnant : Entries.Remnant members found) :
    Document.Remnant (.object members) (.object found)

inductive Documents.Remnant : Documents → Items → Prop
  | start (items : Documents) : Documents.Remnant items (.broken .truncated)
  | inside {first : Document} {reading : Reading} (rest : Documents)
    (remnant : Document.Remnant first reading) :
    Documents.Remnant (.cons first rest) (.item reading (.broken .truncated))
  | behind {rest : Documents} {found : Items} (first : Document)
    (remnant : Documents.Remnant rest found) :
    Documents.Remnant (.cons first rest) (.item first.reading found)

inductive Entries.Remnant : Entries → Members → Prop
  | start (members : Entries) : Entries.Remnant members (.broken .truncated)
  | key {literal : Literal} (key : List Char) (value : Document) (rest : Entries)
    (breaks : literal.text = .error .truncated) :
    Entries.Remnant (.cons key value rest)
      (.member literal (.broken .truncated) (.broken .truncated))
  | inside {value : Document} {reading : Reading} (key : List Char) (rest : Entries)
    (remnant : Document.Remnant value reading) :
    Entries.Remnant (.cons key value rest) (.member (.ofText key) reading (.broken .truncated))
  | behind {rest : Entries} {found : Members} (key : List Char) (value : Document)
    (remnant : Entries.Remnant rest found) :
    Entries.Remnant (.cons key value rest) (.member (.ofText key) value.reading found)

end

/-! Where nothing but blanks is left, every reader finds that the text has ended. -/

section Blank

variable {bound : Nat} {text : List Char}

theorem readValue_blank (blank : dropBlanks text = []) :
    readValue bound text = (.broken .truncated, []) := by
  cases bound with
  | zero => rfl
  | succ bound => simp only [readValue, blank]

theorem readItems_blank (first : Bool) (blank : dropBlanks text = []) :
    readItems bound first text = (.broken .truncated, []) := by
  cases bound with
  | zero => rfl
  | succ bound => simp only [readItems, blank]

theorem readMembers_blank (first : Bool) (blank : dropBlanks text = []) :
    readMembers bound first text = (.broken .truncated, []) := by
  cases bound with
  | zero => rfl
  | succ bound => simp only [readMembers, blank]

theorem readMember_blank (blank : dropBlanks text = []) :
    readMember bound text = (.broken .truncated, []) := by
  cases bound with
  | zero => rfl
  | succ bound => simp only [readMember, blank]

end Blank

section Steps

variable {bound : Nat} {text inner middle rest : List Char} {literal : Literal}

theorem length_dropBlanks_le (text : List Char) : (dropBlanks text).length ≤ text.length :=
  (List.dropWhile_sublist _).length_le

/-- A character that is read is good for three steps. -/
theorem steps_of_starts {c : Char} (starts : dropBlanks text = c :: inner)
    (enough : 3 * text.length ≤ bound) : ∃ fewer, bound = fewer + 3 ∧ 3 * inner.length ≤ fewer := by
  have size := length_dropBlanks_le text
  rw [starts, List.length_cons] at size
  exact ⟨bound - 3, by omega, by omega⟩

theorem readValue_array {items : Items} (starts : dropBlanks text = '[' :: inner)
    (read : readItems bound true inner = (items, [])) :
    readValue (bound + 1) text = (.array items, []) := by
  simp only [readValue, starts, read]

theorem readValue_object {members : Members} (starts : dropBlanks text = '{' :: inner)
    (read : readMembers bound true inner = (members, [])) :
    readValue (bound + 1) text = (.object members, []) := by
  simp only [readValue, starts, read]

theorem readMember_key (starts : dropBlanks text = '"' :: inner)
    (scanned : Literal.scan inner = (literal, [])) :
    readMember (bound + 1) text =
      (.member literal (.broken .truncated) (.broken .truncated), []) := by
  have others : readMembers bound false [] = (.broken .truncated, []) := readMembers_blank false rfl
  simp only [readMember, starts, scanned, others, show dropBlanks [] = [] from rfl]

theorem readMember_value {reading : Reading} {members : Members}
    (starts : dropBlanks text = '"' :: inner)
    (scanned : Literal.scan inner = (literal, ':' :: rest))
    (value : readValue bound rest = (reading, middle))
    (others : readMembers bound false middle = (members, [])) :
    readMember (bound + 1) text = (.member literal reading members, []) := by
  simp only [readMember, starts, scanned, value, others, dropBlanks_cons (c := ':') rfl rest]

end Steps

/-! What a tear leaves of a text that is put together from parts. -/

theorem Numeral.Ends.of_torn {text whole : List Char} (ends : Numeral.Ends whole)
    (torn : Torn text whole) : Numeral.Ends text := by
  obtain ⟨⟨missing, rfl⟩, -⟩ := torn
  intro c first
  refine ends c ?_
  rw [List.head?_append, first]
  rfl

/-- A tear within the blanks in front of a text leaves nothing but blanks. -/
theorem torn_dropBlanks {front body text : List Char} {c : Char}
    (blank : ∀ c ∈ front, isBlank c = true) (solid : isBlank c = false)
    (torn : Torn text (front ++ c :: body)) : Torn (dropBlanks text) (c :: body) := by
  rcases torn.of_append with inside | ⟨rest, rfl, behind⟩
  · have nothing : dropBlanks text = [] :=
      List.dropWhile_eq_nil_iff.mpr fun c member => blank c (inside.1.subset member)
    rw [nothing]
    exact torn_cons_iff.mpr (.inl rfl)
  · have same : dropBlanks (front ++ rest) = dropBlanks rest :=
      List.dropWhile_append_of_pos blank
    rw [same]
    rcases torn_cons_iff.mp behind with rfl | ⟨rest, rfl, further⟩
    · exact behind
    · rw [dropBlanks_cons solid]
      exact behind

section Render

variable {layout : Layout} {depth bound : Nat} {text middle : List Char}

theorem Document.torn_dropBlanks (document : Document) {front : List Char}
    (blank : ∀ c ∈ front, isBlank c = true)
    (torn : Torn text (front ++ (document.render layout depth ++ middle))) :
    Torn (dropBlanks text) (document.render layout depth ++ middle) := by
  obtain ⟨c, tail, written, solid, -⟩ := document.render_head layout depth
  rw [written] at torn ⊢
  exact Json.torn_dropBlanks blank solid torn

/-- Either the colon is missing, or the tear is behind it. -/
theorem Document.torn_colon (value : Document)
    (torn : Torn text (layout.colon ++ (value.render layout depth ++ middle))) :
    text = [] ∨ ∃ rest, text = ':' :: rest ∧
      Torn (dropBlanks rest) (value.render layout depth ++ middle) := by
  obtain ⟨front, colon, blank⟩ : ∃ front, layout.colon = ':' :: front ∧
      ∀ c ∈ front, isBlank c = true := by
    cases layout with
    | compact => exact ⟨[], rfl, List.forall_mem_nil _⟩
    | indented => exact ⟨[' '], rfl, List.forall_mem_singleton.mpr rfl⟩
  rw [colon, List.cons_append] at torn
  rcases torn_cons_iff.mp torn with empty | ⟨rest, rfl, behind⟩
  · exact .inl empty
  · exact .inr ⟨rest, rfl, value.torn_dropBlanks blank behind⟩

theorem Documents.ends_of_torn {items : Documents}
    (torn : Torn text (items.renderRest layout depth)) : Numeral.Ends text := by
  have ends := items.ends_renderRest layout depth []
  rw [List.append_nil] at ends
  exact ends.of_torn torn

theorem Entries.ends_of_torn {members : Entries}
    (torn : Torn text (members.renderRest layout depth)) : Numeral.Ends text := by
  have ends := members.ends_renderRest layout depth []
  rw [List.append_nil] at ends
  exact ends.of_torn torn

/-! A torn text is read to its end, and a remnant is found. -/

def Document.ReadsTorn (layout : Layout) (depth bound : Nat) (document : Document) : Prop :=
  ∀ text, 3 * text.length ≤ bound → Torn (dropBlanks text) (document.render layout depth) →
    ∃ reading, readValue bound text = (reading, []) ∧ document.Remnant reading

def Documents.ReadsTorn (layout : Layout) (depth bound : Nat) (items : Documents) : Prop :=
  ∀ text, 3 * text.length ≤ bound → Torn text (items.renderRest layout depth) →
    ∃ found, readItems bound false text = (found, []) ∧ items.Remnant found

def Entries.ReadsTorn (layout : Layout) (depth bound : Nat) (members : Entries) : Prop :=
  ∀ text, 3 * text.length ≤ bound → Torn text (members.renderRest layout depth) →
    ∃ found, readMembers bound false text = (found, []) ∧ members.Remnant found

/-- The tear is in the item, or in what follows it. -/
theorem readItem_torn {first : Document} {rest : Documents}
    (within : first.ReadsTorn layout (depth + 1) bound)
    (further : rest.ReadsTorn layout depth bound)
    (enough : 3 * text.length ≤ bound)
    (torn : Torn (dropBlanks text)
      (first.render layout (depth + 1) ++ rest.renderRest layout depth)) :
    ∃ found, readItem (bound + 1) text = (found, []) ∧
      (Documents.cons first rest).Remnant found := by
  rcases torn.of_append with inside | ⟨others, starts, behind⟩
  · obtain ⟨reading, read, remnant⟩ := within text enough inside
    exact ⟨_, readItem_of read (readItems_blank false rfl), .inside rest remnant⟩
  · have size : (first.render layout (depth + 1)).length + others.length ≤ text.length := by
      rw [← List.length_append, ← starts]
      exact length_dropBlanks_le text
    have read := first.readValue_render layout (depth + 1) bound text others starts
      (Documents.ends_of_torn behind) (by omega)
    obtain ⟨found, items, remnant⟩ := further others (by omega) behind
    exact ⟨_, readItem_of read items, .behind first remnant⟩

/-- The items of an array, behind its bracket. -/
theorem readItems_torn {first : Document} {rest : Documents}
    (within : first.ReadsTorn layout (depth + 1) bound)
    (further : rest.ReadsTorn layout depth bound)
    (enough : 3 * text.length ≤ bound)
    (torn : Torn text (layout.gap (depth + 1) ++
      (first.render layout (depth + 1) ++ rest.renderRest layout depth))) :
    ∃ found, readItems (bound + 2) true text = (found, []) ∧
      (Documents.cons first rest).Remnant found := by
  have cut := first.torn_dropBlanks (fun _ => isBlank_of_mem_gap) torn
  cases starts : dropBlanks text with
  | nil => exact ⟨_, readItems_blank true starts, .start _⟩
  | cons c tail =>
    have size := length_dropBlanks_le text
    obtain ⟨d, others, written, solid, opening⟩ := first.render_head layout (depth + 1)
    obtain rfl : c = d := by
      rw [starts, written] at cut
      rcases torn_cons_iff.mp cut with empty | ⟨left, same, -⟩
      · cases empty
      · exact (List.cons.inj same).1
    rw [starts] at size
    rw [starts, ← dropBlanks_cons solid tail] at cut
    rw [readItems_further starts opening]
    exact readItem_torn within further (by omega) cut

/-- The tear is in the key, at the colon, in the value, or in what follows them. -/
theorem readMember_torn {key : List Char} {value : Document} {rest : Entries}
    (within : value.ReadsTorn layout (depth + 1) bound)
    (further : rest.ReadsTorn layout depth bound)
    (enough : 3 * text.length ≤ bound)
    (torn : Torn (dropBlanks text) (Literal.quote key ++
      (layout.colon ++ (value.render layout (depth + 1) ++ rest.renderRest layout depth)))) :
    ∃ found, readMember (bound + 1) text = (found, []) ∧
      (Entries.cons key value rest).Remnant found := by
  change Torn _ ('"' :: (key.flatMap Literal.escape ++ ['"'] ++ (layout.colon ++
    (value.render layout (depth + 1) ++ rest.renderRest layout depth)))) at torn
  rcases torn_cons_iff.mp torn with empty | ⟨inner, starts, quoted⟩
  · exact ⟨_, readMember_blank empty, .start _⟩
  · rcases quoted.of_append with inside | ⟨left, rfl, behind⟩
    · obtain ⟨ended, truncated⟩ := Literal.breaksOff_text inside
      exact ⟨_, readMember_key starts (Prod.ext rfl ended), .key key value rest truncated⟩
    · have scanned : Literal.scan (key.flatMap Literal.escape ++ ['"'] ++ left) =
          (.ofText key, left) := by
        rw [List.append_assoc]
        exact Literal.scan_text key left
      rcases value.torn_colon behind with rfl | ⟨after, rfl, cut⟩
      · exact ⟨_, readMember_key starts scanned, .inside key rest (.start value)⟩
      · -- Key and colon are complete.
        have size := length_dropBlanks_le text
        simp only [starts, List.length_cons, List.length_append] at size
        rcases cut.of_append with inside | ⟨others, value_starts, behind⟩
        · obtain ⟨reading, read, remnant⟩ := within after (by omega) inside
          exact ⟨_, readMember_value starts scanned read (readMembers_blank false rfl),
            .inside key rest remnant⟩
        · have short := length_dropBlanks_le after
          rw [value_starts, List.length_append] at short
          have read := value.readValue_render layout (depth + 1) bound after others value_starts
            (Entries.ends_of_torn behind) (by omega)
          obtain ⟨found, members, remnant⟩ := further others (by omega) behind
          exact ⟨_, readMember_value starts scanned read members, .behind key value remnant⟩

/-- The members of an object, behind its bracket. -/
theorem readMembers_torn {key : List Char} {value : Document} {rest : Entries}
    (within : value.ReadsTorn layout (depth + 1) bound)
    (further : rest.ReadsTorn layout depth bound)
    (enough : 3 * text.length ≤ bound)
    (torn : Torn text (layout.gap (depth + 1) ++ (Literal.quote key ++
      (layout.colon ++ (value.render layout (depth + 1) ++ rest.renderRest layout depth))))) :
    ∃ found, readMembers (bound + 2) true text = (found, []) ∧
      (Entries.cons key value rest).Remnant found := by
  have cut := torn_dropBlanks (c := '"') (fun _ => isBlank_of_mem_gap) rfl torn
  rcases torn_cons_iff.mp cut with empty | ⟨tail, starts, -⟩
  · exact ⟨_, readMembers_blank true empty, .start _⟩
  · have size := length_dropBlanks_le text
    rw [starts] at size cut
    have read : readMembers (bound + 2) true text = readMember (bound + 1) ('"' :: tail) := by
      rw [readMembers, starts]
      rfl
    rw [read]
    exact readMember_torn within further (by omega) cut

mutual

/-- The induction is on the document; the tear is in front of it or in one of its parts. -/
theorem Document.readsTorn (document : Document) (layout : Layout) (depth bound : Nat) :
    document.ReadsTorn layout depth bound := by
  intro text enough torn
  cases document with
  | number value =>
    rcases Decimal.digits_of_torn torn with empty | ⟨fewer, positive, shorter, written⟩
    · exact ⟨_, readValue_blank empty, .start _⟩
    · obtain ⟨c, inner, digits, digit⟩ := Decimal.toDigits_cons fewer
      have scanned := Numeral.scan_toDigits fewer Numeral.ends_nil
      rw [List.append_nil, digits] at scanned
      rw [digits] at written
      obtain ⟨bound, rfl, -⟩ := steps_of_starts written enough
      -- The digits that are left are a number of their own.
      refine ⟨_, ?_, .number positive shorter⟩
      rw [readValue_digit digit written, scanNumber, scanned]
  | string content =>
    change Torn _ ('"' :: (content.flatMap Literal.escape ++ ['"'])) at torn
    rcases torn_cons_iff.mp torn with empty | ⟨inner, starts, inside⟩
    · exact ⟨_, readValue_blank empty, .start _⟩
    · obtain ⟨ended, truncated⟩ := Literal.breaksOff_text inside
      obtain ⟨bound, rfl, -⟩ := steps_of_starts starts enough
      refine ⟨.string (Literal.scan inner).1, ?_, .string content truncated⟩
      simp only [readValue, starts, ended]
  | array items =>
    cases items with
    | empty =>
      rcases torn_cons_iff.mp torn with empty | ⟨inner, starts, inside⟩
      · exact ⟨_, readValue_blank empty, .start _⟩
      · obtain ⟨bound, rfl, -⟩ := steps_of_starts starts enough
        rw [torn_singleton_iff.mp inside] at starts
        exact ⟨_, readValue_array starts (readItems_blank true rfl), .array (.start _)⟩
    | cons first rest =>
      simp only [Document.render, List.cons_append, List.append_assoc] at torn
      rcases torn_cons_iff.mp torn with empty | ⟨inner, starts, inside⟩
      · exact ⟨_, readValue_blank empty, .start _⟩
      · obtain ⟨bound, rfl, left⟩ := steps_of_starts starts enough
        obtain ⟨found, items, remnant⟩ := readItems_torn
          (first.readsTorn layout (depth + 1) bound) (rest.readsTorn layout depth bound)
          left inside
        exact ⟨_, readValue_array starts items, .array remnant⟩
  | object members =>
    cases members with
    | empty =>
      rcases torn_cons_iff.mp torn with empty | ⟨inner, starts, inside⟩
      · exact ⟨_, readValue_blank empty, .start _⟩
      · obtain ⟨bound, rfl, -⟩ := steps_of_starts starts enough
        rw [torn_singleton_iff.mp inside] at starts
        exact ⟨_, readValue_object starts (readMembers_blank true rfl), .object (.start _)⟩
    | cons key value rest =>
      simp only [Document.render, List.cons_append, List.append_assoc] at torn
      rcases torn_cons_iff.mp torn with empty | ⟨inner, starts, inside⟩
      · exact ⟨_, readValue_blank empty, .start _⟩
      · obtain ⟨bound, rfl, left⟩ := steps_of_starts starts enough
        obtain ⟨found, members, remnant⟩ := readMembers_torn
          (value.readsTorn layout (depth + 1) bound) (rest.readsTorn layout depth bound)
          left inside
        exact ⟨_, readValue_object starts members, .object remnant⟩

theorem Documents.readsTorn (items : Documents) (layout : Layout) (depth bound : Nat) :
    items.ReadsTorn layout depth bound := by
  intro text enough torn
  cases items with
  | empty =>
    have cut := torn_dropBlanks (fun _ => isBlank_of_mem_gap) (c := ']') rfl torn
    exact ⟨_, readItems_blank false (torn_singleton_iff.mp cut), .start _⟩
  | cons next rest =>
    simp only [Documents.renderRest, List.cons_append, List.append_assoc] at torn
    rcases torn_cons_iff.mp torn with rfl | ⟨inner, rfl, inside⟩
    · exact ⟨_, readItems_blank false rfl, .start _⟩
    · rw [List.length_cons] at enough
      obtain ⟨bound, rfl⟩ : ∃ fewer, bound = fewer + 2 := ⟨bound - 2, by omega⟩
      have cut := next.torn_dropBlanks (fun _ => isBlank_of_mem_gap) inside
      exact readItem_torn (next.readsTorn layout (depth + 1) bound)
        (rest.readsTorn layout depth bound) (by omega) cut

theorem Entries.readsTorn (members : Entries) (layout : Layout) (depth bound : Nat) :
    members.ReadsTorn layout depth bound := by
  intro text enough torn
  cases members with
  | empty =>
    have cut := torn_dropBlanks (fun _ => isBlank_of_mem_gap) (c := '}') rfl torn
    exact ⟨_, readMembers_blank false (torn_singleton_iff.mp cut), .start _⟩
  | cons key value rest =>
    simp only [Entries.renderRest, List.cons_append, List.append_assoc] at torn
    rcases torn_cons_iff.mp torn with rfl | ⟨inner, rfl, inside⟩
    · exact ⟨_, readMembers_blank false rfl, .start _⟩
    · rw [List.length_cons] at enough
      obtain ⟨bound, rfl⟩ : ∃ fewer, bound = fewer + 2 := ⟨bound - 2, by omega⟩
      have cut := torn_dropBlanks (fun _ => isBlank_of_mem_gap) (c := '"') rfl inside
      exact readMember_torn (value.readsTorn layout (depth + 1) bound)
        (rest.readsTorn layout depth bound) (by omega) cut

end

/-- Of the torn text of a document a remnant is read, and nothing is left. -/
theorem ofText_torn {document : Document} (torn : Torn text (document.write layout).toList) :
    ∃ reading, Reading.ofText text = (reading, []) ∧ document.Remnant reading := by
  have bare : Torn text ([] ++ (document.render layout 0 ++ [])) := by
    simpa [Document.write] using torn
  have cut := document.torn_dropBlanks (List.forall_mem_nil _) bare
  rw [List.append_nil] at cut
  exact document.readsTorn layout 0 _ text (Nat.le_add_right _ 3) cut

end Render

end UtxoLedger.Json
