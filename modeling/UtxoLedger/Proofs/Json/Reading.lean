import UtxoLedger.Json.Document
import UtxoLedger.Json.Reading
import UtxoLedger.Proofs.Json.Literal
import UtxoLedger.Proofs.Json.Numeral

/-!
# Documents are read back

Every document has the reading that its text should have. A written document is read as that, in
either layout, at any depth and whatever stands behind it, and what stands behind it is left.
The bound on the steps is never met: no step but the last of a value goes without a character.
-/
namespace UtxoLedger.Json

mutual

/-- What is read where a document is written. -/
def Document.reading : Document → Reading
  | .number value => .number (.ok (.ofNat value))
  | .string text => .string (.ofText text)
  | .array items => .array items.reading
  | .object members => .object members.reading

def Documents.reading : Documents → Items
  | .empty => .closed
  | .cons first rest => .item first.reading rest.reading

def Entries.reading : Entries → Members
  | .empty => .closed
  | .cons key value rest => .member (.ofText key) value.reading rest.reading

end

theorem isBlank_of_mem_gap {layout : Layout} {depth : Nat} {c : Char}
    (member : c ∈ layout.gap depth) : isBlank c = true := by
  cases layout with
  | compact => cases member
  | indented =>
    rcases List.mem_cons.mp member with rfl | space
    · rfl
    · rw [List.eq_of_mem_replicate space]
      rfl

@[simp] theorem dropBlanks_gap (layout : Layout) (depth : Nat) (text : List Char) :
    dropBlanks (layout.gap depth ++ text) = dropBlanks text :=
  List.dropWhile_append_of_pos fun _ => isBlank_of_mem_gap

theorem dropBlanks_cons {c : Char} (solid : isBlank c = false) (text : List Char) :
    dropBlanks (c :: text) = c :: text :=
  List.dropWhile_cons_of_neg (by simp [solid])

@[simp] theorem dropBlanks_quote (text rest : List Char) :
    dropBlanks (Literal.quote text ++ rest) = Literal.quote text ++ rest := rfl

/-- Only an item starts where an item is written: no blank and no closing bracket. -/
theorem Document.render_head (layout : Layout) (depth : Nat) (document : Document) :
    ∃ c text, document.render layout depth = c :: text ∧ isBlank c = false ∧ c ≠ ']' := by
  cases document with
  | number value =>
    obtain ⟨c, text, written, digit⟩ := Decimal.toDigits_cons value
    refine ⟨c, text, written, ?_, ?_⟩
    · refine decide_eq_false ?_
      rintro (rfl | rfl | rfl | rfl) <;> cases digit
    · rintro rfl
      cases digit
  | string text => exact ⟨'"', _, rfl, rfl, by decide⟩
  | array items =>
    cases items with
    | empty => exact ⟨'[', _, rfl, rfl, by decide⟩
    | cons first others => exact ⟨'[', _, rfl, rfl, by decide⟩
  | object members =>
    cases members with
    | empty => exact ⟨'{', _, rfl, rfl, by decide⟩
    | cons key value others => exact ⟨'{', _, rfl, rfl, by decide⟩

@[simp] theorem Document.dropBlanks_render (layout : Layout) (depth : Nat) (document : Document)
    (rest : List Char) :
    dropBlanks (document.render layout depth ++ rest) = document.render layout depth ++ rest := by
  obtain ⟨c, text, written, solid, -⟩ := document.render_head layout depth
  rw [written]
  exact dropBlanks_cons solid _

theorem Documents.ends_renderRest (layout : Layout) (depth : Nat) (items : Documents)
    (rest : List Char) : Numeral.Ends (items.renderRest layout depth ++ rest) := by
  cases items <;> cases layout <;> simp [Numeral.Ends, Documents.renderRest, Layout.gap]

theorem Entries.ends_renderRest (layout : Layout) (depth : Nat) (members : Entries)
    (rest : List Char) : Numeral.Ends (members.renderRest layout depth ++ rest) := by
  cases members <;> cases layout <;> simp [Numeral.Ends, Entries.renderRest, Layout.gap]

/-! What a step does, once it is known what stands in front of it. -/

section Steps

variable {bound : Nat} {text middle rest : List Char}

theorem readValue_digit {c : Char} (digit : c.isDigit = true)
    (starts : dropBlanks text = c :: rest) : readValue (bound + 1) text = scanNumber (c :: rest) := by
  have number : c = '-' ∨ (Decimal.digit? c).isSome = true := by
    simp [Decimal.digit?_of_isDigit digit]
  rw [readValue, starts]
  split
  all_goals rename_i same; cases same
  -- None of the other characters is a digit.
  all_goals first | cases digit | exact if_pos number

theorem readItems_closed (first : Bool) (starts : dropBlanks text = ']' :: rest) :
    readItems (bound + 1) first text = (.closed, rest) := by
  rw [readItems, starts]
  rfl

theorem readItems_further {c : Char} (starts : dropBlanks text = c :: rest) (further : c ≠ ']') :
    readItems (bound + 1) true text = readItem bound (c :: rest) := by
  rw [readItems, starts]
  split
  next empty => cases empty
  next same => cases same; exact absurd rfl further
  next same => cases same; rfl

theorem readItems_first {layout : Layout} {depth : Nat} {document : Document}
    (starts : dropBlanks text = document.render layout depth ++ rest) :
    readItems (bound + 1) true text = readItem bound (document.render layout depth ++ rest) := by
  obtain ⟨c, tail, written, -, further⟩ := document.render_head layout depth
  rw [written] at starts ⊢
  exact readItems_further starts further

theorem readItem_of {reading : Reading} {items : Items}
    (value : readValue bound text = (reading, middle))
    (others : readItems bound false middle = (items, rest)) :
    readItem (bound + 1) text = (.item reading items, rest) := by
  simp only [readItem, value, others]

theorem readMembers_closed (first : Bool) (starts : dropBlanks text = '}' :: rest) :
    readMembers (bound + 1) first text = (.closed, rest) := by
  rw [readMembers, starts]
  rfl

theorem readMembers_first {key : List Char}
    (starts : dropBlanks text = dropBlanks (Literal.quote key ++ rest)) :
    readMembers (bound + 1) true text = readMember bound (Literal.quote key ++ rest) := by
  rw [readMembers, starts]
  rfl

/-- Blanks may stand between the colon of a member and its value. -/
theorem readMember_of {layout : Layout} {depth : Nat} {key : List Char} {value : Document}
    {members : Members}
    (starts : dropBlanks text =
      Literal.quote key ++ (layout.colon ++ (value.render layout depth ++ middle)))
    (found : ∀ text, dropBlanks text = value.render layout depth ++ middle →
      readValue bound text = (value.reading, middle))
    (others : readMembers bound false middle = (members, rest)) :
    readMember (bound + 1) text = (.member (.ofText key) value.reading members, rest) := by
  have quoted : dropBlanks text = '"' :: (key.flatMap Literal.escape ++
      '"' :: (layout.colon ++ (value.render layout depth ++ middle))) := by
    simpa [Literal.quote] using starts
  obtain ⟨valueText, colon, blanks⟩ : ∃ valueText,
      dropBlanks (layout.colon ++ (value.render layout depth ++ middle)) = ':' :: valueText ∧
      dropBlanks valueText = value.render layout depth ++ middle := by
    cases layout with
    | compact => exact ⟨_, rfl, value.dropBlanks_render .compact depth middle⟩
    | indented => exact ⟨' ' :: _, rfl, value.dropBlanks_render .indented depth middle⟩
  simp only [readMember, quoted, Literal.scan_text, colon, found valueText blanks, others]

end Steps

section Render

variable (layout : Layout)

mutual

/-- The induction is on the document. Every character of it is good for three steps, and no item
takes more than that before it is read itself. -/
theorem Document.readValue_render (document : Document) (depth bound : Nat) (text rest : List Char)
    (starts : dropBlanks text = document.render layout depth ++ rest) (ends : Numeral.Ends rest)
    (enough : 3 * (document.render layout depth).length ≤ bound) :
    readValue bound text = (document.reading, rest) := by
  obtain ⟨c, tail, written, -, -⟩ := document.render_head layout depth
  obtain ⟨bound, rfl⟩ : ∃ fewer, bound = fewer + 3 := by
    rw [written, List.length_cons] at enough
    exact ⟨bound - 3, by omega⟩
  cases document with
  | number value =>
    obtain ⟨c, others, written, digit⟩ := Decimal.toDigits_cons value
    have scanned := Numeral.scan_toDigits value ends
    rw [Document.render] at starts
    rw [written, List.cons_append] at starts scanned
    rw [readValue_digit digit starts, scanNumber, scanned]
    rfl
  | string content =>
    have quoted : dropBlanks text = '"' :: (content.flatMap Literal.escape ++ '"' :: rest) := by
      simpa [Document.render, Literal.quote] using starts
    simp only [readValue, quoted, Literal.scan_text, Document.reading]
  | array items =>
    cases items with
    | empty =>
      have opened : dropBlanks text = '[' :: ']' :: rest := starts
      have closed : readItems (bound + 2) true (']' :: rest) = (.closed, rest) :=
        readItems_closed true rfl
      simp only [readValue, opened, closed, Document.reading, Documents.reading]
    | cons first others =>
      simp only [Document.render, List.cons_append, List.append_assoc, List.length_cons,
        List.length_append] at starts enough
      have value := first.readValue_render (depth + 1) bound _ _
        (first.dropBlanks_render layout (depth + 1) _) (others.ends_renderRest layout depth rest)
        (by omega)
      have items := others.readItems_render depth bound rest (by omega)
      have opened := (dropBlanks_gap layout (depth + 1) _).trans
        (first.dropBlanks_render layout (depth + 1) (others.renderRest layout depth ++ rest))
      simp only [readValue, starts, readItems_first opened, readItem_of value items,
        Document.reading, Documents.reading]
  | object members =>
    cases members with
    | empty =>
      have opened : dropBlanks text = '{' :: '}' :: rest := starts
      have closed : readMembers (bound + 2) true ('}' :: rest) = (.closed, rest) :=
        readMembers_closed true rfl
      simp only [readValue, opened, closed, Document.reading, Entries.reading]
    | cons key value others =>
      simp only [Document.render, List.cons_append, List.append_assoc, List.length_cons,
        List.length_append] at starts enough
      have found := fun text starts => value.readValue_render (depth + 1) bound text _ starts
        (others.ends_renderRest layout depth rest) (by omega)
      have members := others.readMembers_render depth bound rest (by omega)
      simp only [readValue, starts, readMembers_first (dropBlanks_gap layout (depth + 1) _),
        readMember_of (dropBlanks_quote key _) found members, Document.reading, Entries.reading]

theorem Documents.readItems_render (items : Documents) (depth bound : Nat) (rest : List Char)
    (enough : 3 * (items.renderRest layout depth).length ≤ bound) :
    readItems bound false (items.renderRest layout depth ++ rest) = (items.reading, rest) := by
  cases items with
  | empty =>
    obtain ⟨bound, rfl⟩ : ∃ fewer, bound = fewer + 1 := by
      refine ⟨bound - 1, ?_⟩
      simp [Documents.renderRest] at enough
      omega
    refine readItems_closed false ?_
    rw [Documents.renderRest, List.append_assoc, dropBlanks_gap]
    rfl
  | cons next others =>
    simp only [Documents.renderRest, List.cons_append, List.append_assoc, List.length_cons,
      List.length_append] at enough ⊢
    obtain ⟨bound, rfl⟩ : ∃ fewer, bound = fewer + 2 := ⟨bound - 2, by omega⟩
    have starts := (dropBlanks_gap layout (depth + 1) _).trans
      (next.dropBlanks_render layout (depth + 1) (others.renderRest layout depth ++ rest))
    have value := next.readValue_render (depth + 1) bound _ _ starts
      (others.ends_renderRest layout depth rest) (by omega)
    exact readItem_of value (others.readItems_render depth bound rest (by omega))

theorem Entries.readMembers_render (members : Entries) (depth bound : Nat) (rest : List Char)
    (enough : 3 * (members.renderRest layout depth).length ≤ bound) :
    readMembers bound false (members.renderRest layout depth ++ rest) =
      (members.reading, rest) := by
  cases members with
  | empty =>
    obtain ⟨bound, rfl⟩ : ∃ fewer, bound = fewer + 1 := by
      refine ⟨bound - 1, ?_⟩
      simp [Entries.renderRest] at enough
      omega
    refine readMembers_closed false ?_
    rw [Entries.renderRest, List.append_assoc, dropBlanks_gap]
    rfl
  | cons key value others =>
    simp only [Entries.renderRest, List.cons_append, List.append_assoc, List.length_cons,
      List.length_append] at enough ⊢
    obtain ⟨bound, rfl⟩ : ∃ fewer, bound = fewer + 2 := ⟨bound - 2, by omega⟩
    have found := fun text starts => value.readValue_render (depth + 1) bound text _ starts
      (others.ends_renderRest layout depth rest) (by omega)
    exact readMember_of (dropBlanks_gap layout (depth + 1) _) found
      (others.readMembers_render depth bound rest (by omega))

end

theorem ofText_write (document : Document) :
    Reading.ofText (document.write layout).toList = (document.reading, []) := by
  have starts : dropBlanks (document.render layout 0) = document.render layout 0 ++ [] := by
    simpa using document.dropBlanks_render layout 0 []
  have enough : 3 * (document.render layout 0).length ≤
      3 * (document.render layout 0).length + 3 := Nat.le_add_right _ 3
  rw [Document.write, String.toList_ofList, Reading.ofText]
  exact document.readValue_render layout 0 _ _ [] starts Numeral.ends_nil enough

end Render

end UtxoLedger.Json
