import UtxoLedger.Proofs.Text.Decimal

/-!
# Torn texts

A text is torn when it breaks off: it is a beginning of the whole text and not all of it. Where the
whole is put together from parts, the tear is within one of them, and the parts before it are
complete. What is left of the digits of a number are the digits of a smaller one.
-/
namespace UtxoLedger

namespace Text

variable {α : Type}

def Torn (text whole : List α) : Prop :=
  text <+: whole ∧ text ≠ whole

instance [DecidableEq α] (text whole : List α) : Decidable (Torn text whole) :=
  inferInstanceAs (Decidable (text <+: whole ∧ text ≠ whole))

theorem not_torn_nil (text : List α) : ¬Torn text [] :=
  fun torn => torn.2 (List.prefix_nil.mp torn.1)

theorem torn_cons_iff {first : α} {text whole : List α} :
    Torn text (first :: whole) ↔ text = [] ∨ ∃ rest, text = first :: rest ∧ Torn rest whole := by
  unfold Torn
  rw [List.prefix_cons_iff]
  constructor
  · rintro ⟨rfl | ⟨rest, rfl, beginning⟩, lacking⟩
    · exact .inl rfl
    · exact .inr ⟨rest, rfl, beginning, fun same => lacking (congrArg _ same)⟩
  · rintro (rfl | ⟨rest, rfl, beginning, lacking⟩)
    · exact ⟨.inl rfl, nofun⟩
    · exact ⟨.inr ⟨rest, rfl, beginning⟩, fun same => lacking (List.cons.inj same).2⟩

theorem torn_singleton_iff {last : α} {text : List α} : Torn text [last] ↔ text = [] := by
  simp [torn_cons_iff, not_torn_nil]

/-- The tear is before the end of the front part, or the front part is complete. -/
theorem Torn.of_append {text front back : List α} (torn : Torn text (front ++ back)) :
    Torn text front ∨ ∃ rest, text = front ++ rest ∧ Torn rest back := by
  induction front generalizing text with
  | nil => exact .inr ⟨text, rfl, torn⟩
  | cons first front ih =>
    rcases torn_cons_iff.mp torn with rfl | ⟨rest, rfl, further⟩
    · exact .inl (torn_cons_iff.mpr (.inl rfl))
    · rcases ih further with inside | ⟨behind, rfl, left⟩
      · exact .inl (torn_cons_iff.mpr (.inr ⟨rest, rfl, inside⟩))
      · exact .inr ⟨behind, rfl, left⟩

end Text

open Text

theorem Decimal.digits_of_torn {n : Nat} {text : List Char} (torn : Torn text (Nat.toDigits 10 n)) :
    text = [] ∨ ∃ fewer, 0 < fewer ∧ 10 * fewer ≤ n ∧ text = Nat.toDigits 10 fewer := by
  induction n using Nat.strongRecOn with
  | ind n ih =>
    by_cases single : n < 10
    · rw [Nat.toDigits_of_lt_base single, torn_singleton_iff] at torn
      exact .inl torn
    · rw [Nat.toDigits_of_base_le (by decide) (by omega)] at torn
      rcases torn.of_append with inside | ⟨rest, rfl, last⟩
      · rcases ih (n / 10) (by omega) inside with empty | ⟨fewer, positive, shorter, rfl⟩
        · exact .inl empty
        · exact .inr ⟨fewer, positive, by omega, rfl⟩
      · -- The last digit is all that is missing.
        rw [torn_singleton_iff.mp last, List.append_nil]
        exact .inr ⟨n / 10, by omega, by omega, rfl⟩

end UtxoLedger
