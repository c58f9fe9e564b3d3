import UtxoLedger.Proofs.Amount.Exact
import UtxoLedger.Text.Decimal

/-!
# Decimal text is read back

Numbers are written in digits, the first of which is a zero for zero alone. Reading the digits
of a number gives the number, and it is within the limit exactly when the number is.
-/
namespace UtxoLedger.Decimal

/-- The value of a character that is a digit. -/
def valueOf (c : Char) : Nat :=
  c.toNat - '0'.toNat

theorem digit?_eq_some_iff {c : Char} {value : Nat} :
    digit? c = some value ↔ c.isDigit = true ∧ value = valueOf c := by
  have range : ('0' ≤ c ∧ c ≤ '9') ↔ c.isDigit = true := by
    simp [Char.isDigit, Char.le_def]
  unfold digit?
  split
  next within => simp [range.mp within, valueOf, eq_comm]
  next outside => simp [mt range.mpr outside]

theorem digit?_of_isDigit {c : Char} (digit : c.isDigit = true) : digit? c = some (valueOf c) :=
  digit?_eq_some_iff.mpr ⟨digit, rfl⟩

theorem bounds_of_isDigit {c : Char} (digit : c.isDigit = true) :
    48 ≤ c.toNat ∧ c.toNat ≤ 57 := by
  simpa [Char.isDigit, UInt32.le_iff_toNat_le] using digit

theorem isDigit_toDigits {n : Nat} {c : Char} (member : c ∈ Nat.toDigits 10 n) :
    c.isDigit = true :=
  Nat.isDigit_of_mem_toDigits (by decide) (by decide) member

/-- A number is never written without a digit. -/
theorem toDigits_cons (n : Nat) :
    ∃ c rest, Nat.toDigits 10 n = c :: rest ∧ c.isDigit = true := by
  have some : Nat.toDigits 10 n ≠ [] := Nat.toDigits_ne_nil
  obtain ⟨c, rest, written⟩ := List.exists_cons_of_ne_nil some
  exact ⟨c, rest, written, isDigit_toDigits (written ▸ List.mem_cons_self)⟩

/-- A positive number does not start with a zero. -/
theorem toDigits_head_ne_zero {n : Nat} (positive : 0 < n) :
    (Nat.toDigits 10 n).head? ≠ some '0' := by
  induction n using Nat.strongRecOn with
  | ind n ih =>
    by_cases single : n < 10
    · rw [Nat.toDigits_of_lt_base single]
      simp
      omega
    · rw [Nat.toDigits_of_base_le (by decide) (by omega)]
      have front : 0 < n / 10 := by omega
      rw [List.head?_append, Option.or_of_isSome (by simp)]
      exact ih (n / 10) (by omega) front

/-- No number is written with a zero in front of another digit. -/
theorem values_ne_zero_cons (n second : Nat) (others : List Nat) :
    (Nat.toDigits 10 n).map valueOf ≠ 0 :: second :: others := by
  intro zeros
  by_cases single : n < 10
  · simp [Nat.toDigits_of_lt_base single] at zeros
  · obtain ⟨c, rest, written, zero, -⟩ := List.map_eq_cons_iff.mp zeros
    have bounds := bounds_of_isDigit (isDigit_toDigits (written ▸ List.mem_cons_self))
    have same : c = '0' := by
      rw [← Char.toNat_inj]
      unfold valueOf at zero
      simp at zero ⊢
      omega
    apply toDigits_head_ne_zero (n := n) (by omega)
    rw [written, same]
    rfl

private theorem le_ofDigitChars (text : List Char) (value : Nat) :
    value ≤ Nat.ofDigitChars 10 text value := by
  rw [Nat.ofDigitChars_eq_ofDigitChars_zero]
  exact Nat.le_add_right_of_le (Nat.le_mul_of_pos_left _ (Nat.pow_pos (by decide)))

/-- Among digits nothing but the limit can stop a scan. -/
theorem scan_digits {limit value : Nat} {text : List Char}
    (digits : ∀ c ∈ text, c.isDigit = true) (below : value < limit) :
    scan limit value text =
      if Nat.ofDigitChars 10 text value < limit then .ok (Nat.ofDigitChars 10 text value)
      else .error .tooLarge := by
  induction text generalizing value with
  | nil => simp [scan, below]
  | cons c rest ih =>
    rw [List.forall_mem_cons] at digits
    have next : value * 10 + valueOf c = 10 * value + (c.toNat - '0'.toNat) := by
      rw [Nat.mul_comm, valueOf]
    rw [scan, digit?_of_isDigit digits.1, Nat.ofDigitChars_cons, ← next]
    dsimp only
    by_cases within : value * 10 + valueOf c < limit
    · rw [if_pos within]
      exact ih digits.2 within
    · -- The value only grows from here.
      have larger := le_ofDigitChars rest (value * 10 + valueOf c)
      rw [if_neg within, if_neg (by omega)]

theorem readBelow_toDigits {limit n : Nat} (below : n < limit) :
    readBelow limit (Nat.toDigits 10 n) = .ok n := by
  have scanned : scan limit 0 (Nat.toDigits 10 n) = .ok n := by
    rw [scan_digits (fun _ => isDigit_toDigits) (by omega), Nat.ofDigitChars_ten_toDigits,
      if_pos below]
  obtain ⟨c, rest, written, digit⟩ := toDigits_cons n
  rw [written] at scanned ⊢
  rw [← scanned]
  unfold readBelow
  split
  next empty => cases empty
  -- A sign is no digit.
  next sign => cases sign; cases digit
  next sign => cases sign; cases digit
  next => rfl

@[simp] theorem read_write (value : UInt64) : read (write value) = .ok value := by
  rw [read, write, readBelow_toDigits value.toNat_lt_size]
  exact congrArg Except.ok (UInt64.ofNat_toNat)

end UtxoLedger.Decimal
