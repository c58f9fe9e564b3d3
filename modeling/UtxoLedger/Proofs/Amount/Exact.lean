import Mathlib.Algebra.GroupWithZero.Nat
import UtxoLedger.Amount

/-!
# Exact amounts

Checked arithmetic against the natural numbers: an operation succeeds exactly when the
exact result is an amount, and then it is that result. In particular a sum that is checked
at every addition is the same as the exact total checked once, whatever the order.
-/
namespace UtxoLedger

namespace Except

variable {α β ε δ : Type}

theorem bind_ok_iff {result : Except ε α} {next : α → Except ε β} {value : β} :
    (result >>= next) = .ok value ↔ ∃ first, result = .ok first ∧ next first = .ok value := by
  cases result with
  | error error => simp [bind, Except.bind]
  | ok first => simp [bind, Except.bind]

theorem map_ok_iff {result : Except ε α} {make : α → β} {value : β} :
    result.map make = .ok value ↔ ∃ found, result = .ok found ∧ make found = value := by
  cases result with
  | error error => simp [Except.map]
  | ok found => simp [Except.map]

theorem map_error_iff {result : Except ε α} {make : α → β} {error : ε} :
    result.map make = .error error ↔ result = .error error := by
  cases result with
  | error other => simp [Except.map]
  | ok found => simp [Except.map]

theorem mapError_ok_iff {result : Except ε α} {wrap : ε → δ} {value : α} :
    result.mapError wrap = .ok value ↔ result = .ok value := by
  cases result with
  | error error =>
    constructor <;> intro returned <;> cases returned
  | ok found =>
    constructor <;> intro returned <;> cases returned <;> rfl

end Except

namespace Amount

/-- The exact sum, whether or not it is an amount. -/
def total (amounts : List Amount) : Nat :=
  (amounts.map UInt64.toNat).sum

@[simp] theorem total_nil : total [] = 0 := rfl

@[simp] theorem total_cons (amount : Amount) (amounts : List Amount) :
    total (amount :: amounts) = amount.toNat + total amounts := rfl

@[simp] theorem total_append (front back : List Amount) :
    total (front ++ back) = total front + total back := by
  simp [total]

theorem total_perm {amounts others : List Amount} (same : amounts.Perm others) :
    total amounts = total others :=
  (same.map UInt64.toNat).sum_nat

theorem toNat_pos_iff {amount : Amount} : 0 < amount.toNat ↔ amount ≠ 0 := by
  rw [Nat.pos_iff_ne_zero, ← UInt64.toNat_zero]
  exact not_congr UInt64.toNat_inj

/-- Where the exact sum is an amount, nothing wraps. -/
theorem toNat_add {left right : Amount} (fits : left.toNat + right.toNat < UInt64.size) :
    (left + right).toNat = left.toNat + right.toNat := by
  rw [UInt64.toNat_add]
  exact Nat.mod_eq_of_lt fits

theorem checked_ok_iff {value : Nat} {amount : Amount} :
    checked value = .ok amount ↔ amount.toNat = value := by
  unfold checked
  split
  next fits =>
    rw [Except.ok.injEq, ← UInt64.toNat_inj, UInt64.toNat_ofNat_of_lt' fits]
    exact eq_comm
  next large =>
    have bound := amount.toNat_lt_size
    constructor
    · intro returned
      cases returned
    · intro equal
      omega

theorem checked_error_iff {value : Nat} {error : AmountError} :
    checked value = .error error ↔ UInt64.size ≤ value ∧ error = .overflow := by
  unfold checked
  split
  next fits => simp; omega
  next large => simp [eq_comm (a := AmountError.overflow)]; omega

theorem checkedAdd_ok_iff {left right sum : Amount} :
    checkedAdd left right = .ok sum ↔ sum.toNat = left.toNat + right.toNat :=
  checked_ok_iff

theorem checkedAdd_error_iff {left right : Amount} {error : AmountError} :
    checkedAdd left right = .error error ↔
      UInt64.size ≤ left.toNat + right.toNat ∧ error = .overflow :=
  checked_error_iff

theorem checked_toNat (amount : Amount) : checked amount.toNat = .ok amount :=
  checked_ok_iff.mpr rfl

/-- A number that is no amount on the way is none at the end, where the end is not below it. -/
theorem checked_bind {value : Nat} {next : Nat → Nat} (grows : value ≤ next value) :
    (checked value >>= fun amount => checked (next amount.toNat)) = checked (next value) := by
  cases first : checked value with
  | ok amount => rw [← checked_ok_iff.mp first]; rfl
  | error error =>
    obtain ⟨large, rfl⟩ := checked_error_iff.mp first
    exact (checked_error_iff.mpr ⟨Nat.le_trans large grows, rfl⟩).symm

/-- From any start, checking every partial sum amounts to checking the last one. -/
private theorem foldlM_checkedAdd (start : Amount) (amounts : List Amount) :
    amounts.foldlM checkedAdd start = checked (start.toNat + total amounts) := by
  induction amounts generalizing start with
  | nil => exact (checked_toNat start).symm
  | cons amount amounts ih =>
    rw [List.foldlM_cons, total_cons, ← Nat.add_assoc]
    cases added : checkedAdd start amount with
    | error error =>
      obtain ⟨large, rfl⟩ := checkedAdd_error_iff.mp added
      -- A partial sum that does not fit only grows.
      exact (checked_error_iff.mpr ⟨by omega, rfl⟩).symm
    | ok sum => exact (ih sum).trans (by rw [checkedAdd_ok_iff.mp added])

theorem checkedSum_eq (amounts : List Amount) : checkedSum amounts = checked (total amounts) := by
  simpa [checkedSum] using foldlM_checkedAdd 0 amounts

theorem checkedSum_perm {amounts others : List Amount} (same : amounts.Perm others) :
    checkedSum amounts = checkedSum others := by
  rw [checkedSum_eq, checkedSum_eq, total_perm same]

/-- The sum of two lists is that of their sums. -/
theorem checkedSum_append (front back : List Amount) :
    checkedSum (front ++ back) = (do
      let left ← checkedSum front
      let right ← checkedSum back
      checkedAdd left right) := by
  simp only [checkedSum_eq, total_append, checkedAdd]
  -- Where one part is no amount, the whole is none either.
  have begun := @checked_bind (total front) (· + total back) (Nat.le_add_right _ _)
  rw [← begun]
  refine congrArg (checked (total front) >>= ·) (funext fun left => ?_)
  exact (@checked_bind (total back) (left.toNat + ·) (Nat.le_add_left _ _)).symm

theorem saturatingSub_toNat (left right : Amount) :
    (saturatingSub left right).toNat = left.toNat - right.toNat := by
  unfold saturatingSub
  split
  next covered => exact UInt64.toNat_sub_of_le left right covered
  next short =>
    have below := UInt64.lt_iff_toNat_lt.mp (UInt64.not_le.mp short)
    simp; omega

/-- A result is the exact number as long as that fits, and an overflow otherwise. -/
structure ExactWhen (fits : Prop) (exact : Nat) (result : Except AmountError Amount) : Prop where
  given : fits → ∃ amount, result = .ok amount ∧ amount.toNat = exact
  refused : ¬fits → result = .error .overflow

namespace ExactWhen

variable {fits later : Prop} {exact final : Nat} {result : Except AmountError Amount}

protected theorem checked (value : Nat) : ExactWhen (value < UInt64.size) value (checked value) where
  given := fun within =>
    have same := UInt64.toNat_ofNat_of_lt' within
    ⟨_, checked_ok_iff.mpr same, same⟩
  refused := fun large => checked_error_iff.mpr ⟨Nat.not_lt.mp large, rfl⟩

theorem ok_iff {amount : Amount} (first : ExactWhen fits exact result) :
    result = .ok amount ↔ fits ∧ amount.toNat = exact := by
  constructor
  · intro returned
    by_cases within : fits
    · obtain ⟨found, given, same⟩ := first.given within
      cases given.symm.trans returned
      exact ⟨within, same⟩
    · cases (first.refused within).symm.trans returned
  · rintro ⟨within, same⟩
    obtain ⟨found, given, exact⟩ := first.given within
    rwa [UInt64.toNat_inj.mp (exact.trans same.symm)] at given

/-- Where every step is exact, so are several in a row: the first number that does not fit stops
them. -/
protected theorem bind {next : Amount → Except AmountError Amount}
    (first : ExactWhen fits exact result)
    (others : ∀ amount : Amount, amount.toNat = exact → ExactWhen later final (next amount)) :
    ExactWhen (fits ∧ later) final (result >>= next) := by
  constructor
  · rintro ⟨within, afterwards⟩
    obtain ⟨amount, rfl, same⟩ := first.given within
    exact (others amount same).given afterwards
  · intro large
    by_cases within : fits
    · obtain ⟨amount, rfl, same⟩ := first.given within
      exact (others amount same).refused fun afterwards => large ⟨within, afterwards⟩
    · rw [first.refused within]
      rfl

/-- What is computed from an exact number without another check. -/
protected theorem map {make : Amount → Amount} (first : ExactWhen fits exact result)
    (made : ∀ amount : Amount, amount.toNat = exact → (make amount).toNat = final) :
    ExactWhen fits final (result >>= fun amount => pure (make amount)) := by
  constructor
  · intro within
    obtain ⟨amount, rfl, same⟩ := first.given within
    exact ⟨make amount, rfl, made amount same⟩
  · intro large
    rw [first.refused large]
    rfl

end ExactWhen

/-- A checked sum is the exact one, or an overflow where that is no amount. It is the same in every
order. In parts it is given just where the parts are and their sums can be added. -/
theorem checkedSum_exact (amounts : List Amount) :
    ExactWhen (total amounts ≤ 2 ^ 64 - 1) (total amounts) (checkedSum amounts) ∧
    (∀ others, amounts.Perm others → checkedSum others = checkedSum amounts) ∧
    ∀ more sum, checkedSum (amounts ++ more) = .ok sum ↔
      ∃ left right, checkedSum amounts = .ok left ∧ checkedSum more = .ok right ∧
        checkedAdd left right = .ok sum := by
  refine ⟨?_, fun others same => (checkedSum_perm same).symm, fun more sum => ?_⟩
  · have within : total amounts ≤ 2 ^ 64 - 1 ↔ total amounts < UInt64.size :=
      Nat.le_iff_lt_add_one
    rw [checkedSum_eq, within]
    exact .checked _
  · rw [checkedSum_append]
    simp only [Except.bind_ok_iff, exists_and_left]

/-- In one order the last amount is too much, in the other one the second. -/
theorem checkedSum_exact_one_too_many :
    let amounts : List Amount := [0, 18446744073709551615, 1]
    let others : List Amount := [18446744073709551615, 1, 0]
    amounts.Perm others ∧ checkedSum others = checkedSum amounts ∧
    checkedSum amounts = .error .overflow ∧
    checkedSum [0, 18446744073709551615] = .ok 18446744073709551615 := by
  intro amounts others
  obtain ⟨exact, reordered, -⟩ := checkedSum_exact amounts
  obtain ⟨largest, -⟩ := checkedSum_exact [0, 18446744073709551615]
  have same : amounts.Perm others := by decide +kernel
  exact ⟨same, reordered others same, exact.refused (by decide +kernel),
    largest.ok_iff.mpr (by decide +kernel)⟩

end Amount

end UtxoLedger
