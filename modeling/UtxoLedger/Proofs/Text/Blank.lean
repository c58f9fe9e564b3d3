import Mathlib.Data.List.DropRight
import UtxoLedger.Text.Blank

/-!
# What trimming leaves

A text is blanks around a core, and the core neither begins nor ends with a blank. Of a text that
is blank all over the core is empty. There is one core for every text, and trimming finds it.
-/
namespace UtxoLedger.Text

/-- No other characters than blanks. -/
def Blank (text : List Char) : Prop :=
  ∀ c ∈ text, isBlank c = true

instance (text : List Char) : Decidable (Blank text) :=
  decidable_of_iff (text.all isBlank = true) List.all_eq_true

/-- The core stands between blanks, and no blank at either end is part of it. -/
structure Trims (text core : List Char) : Prop where
  between : ∃ front back, text = front ++ core ++ back ∧ Blank front ∧ Blank back
  first : ∀ c ∈ core.head?, isBlank c = false
  last : ∀ c ∈ core.getLast?, isBlank c = false

variable {text core front back : List Char}

theorem trim_eq_rdropWhile (text : List Char) :
    trim text = (text.dropWhile isBlank).rdropWhile isBlank := rfl

theorem trims_trim (text : List Char) : Trims text (trim text) := by
  rw [trim_eq_rdropWhile]
  have ending : (text.dropWhile isBlank).rdropWhile isBlank ++
      (text.dropWhile isBlank).rtakeWhile isBlank = text.dropWhile isBlank :=
    List.rdropWhile_append_rtakeWhile
  refine ⟨⟨text.takeWhile isBlank, (text.dropWhile isBlank).rtakeWhile isBlank, ?_,
    fun _ => List.mem_takeWhile_imp, fun _ => List.mem_rtakeWhile_imp⟩, ?_, ?_⟩
  · rw [List.append_assoc, ending, List.takeWhile_append_dropWhile]
  · intro c found
    -- The core begins as the text does behind the blanks in front.
    have first := List.head?_dropWhile_not isBlank text
    rwa [← ending, List.head?_append, Option.mem_def.mp found] at first
  · intro c found
    obtain ⟨some, rfl⟩ := List.mem_getLast?_eq_getLast found
    exact Bool.eq_false_iff.mpr (List.rdropWhile_last_not isBlank _ some)

theorem rdropWhile_append_blank (blank : Blank back) :
    (text ++ back).rdropWhile isBlank = text.rdropWhile isBlank := by
  have reversed : ∀ c ∈ back.reverse, isBlank c = true :=
    fun c member => blank c (List.mem_reverse.mp member)
  rw [List.rdropWhile, List.reverse_append, List.dropWhile_append_of_pos reversed, List.rdropWhile]

theorem Trims.trim_eq (trims : Trims text core) : trim text = core := by
  obtain ⟨⟨front, back, rfl, blankFront, blankBack⟩, first, last⟩ := trims
  rw [trim_eq_rdropWhile, List.append_assoc, List.dropWhile_append_of_pos blankFront]
  cases core with
  | nil => rw [List.nil_append, List.dropWhile_eq_nil_iff.mpr blankBack, List.rdropWhile_nil]
  | cons c rest =>
    -- The first character of the core ends the dropping in front, the last one that at the back.
    have solid : ¬isBlank c = true := Bool.eq_false_iff.mp (first c rfl)
    rw [List.cons_append, List.dropWhile_cons_of_neg solid, ← List.cons_append,
      rdropWhile_append_blank blankBack, List.rdropWhile_eq_self_iff]
    exact fun some => Bool.eq_false_iff.mp (last _ (List.getLast?_eq_some_getLast some))

theorem trim_eq_iff : trim text = core ↔ Trims text core :=
  ⟨fun trimmed => trimmed ▸ trims_trim text, Trims.trim_eq⟩

theorem trim_eq_nil_iff : trim text = [] ↔ Blank text := by
  rw [trim_eq_iff]
  constructor
  · rintro ⟨⟨front, back, rfl, blankFront, blankBack⟩, -, -⟩
    simpa [Blank, or_imp, forall_and] using And.intro blankFront blankBack
  · intro blank
    exact ⟨⟨text, [], by simp, blank, by simp [Blank]⟩, by simp, by simp⟩

/-- A text without blanks is the core of itself between any blanks. -/
theorem trims_of_no_blank (blankFront : Blank front) (blankBack : Blank back)
    (solid : ∀ c ∈ core, isBlank c = false) : Trims (front ++ core ++ back) core where
  between := ⟨front, back, rfl, blankFront, blankBack⟩
  first c found := solid c (List.mem_of_head? found)
  last c found := solid c (List.mem_of_getLast? found)

end UtxoLedger.Text
