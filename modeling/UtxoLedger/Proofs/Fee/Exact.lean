import UtxoLedger.Proofs.Fee.Rate

/-!
# Fees without a bound

What a policy comes to where numbers have no bound: the fee of a size, its rate for each byte,
and the rate that replaces it. The policy refuses exactly where a number on the way is no amount,
and otherwise it returns the exact number.
-/
namespace UtxoLedger.FeePolicy

open Amount

def exactFee (policy : FeePolicy) (size : Nat) : Nat :=
  max (size * policy.feePerByte.toNat) policy.minimumFee.toNat

def exactRate (policy : FeePolicy) (size : Nat) : Nat :=
  policy.exactFee size / max size 1 + if policy.exactFee size % max size 1 = 0 then 0 else 1

def exactRaised (policy : FeePolicy) (size : Nat) : Nat :=
  policy.exactRate size * (100 + policy.doubleSpentThresholdPct.toNat) / 100

/-- A number on the way to the rate that replaces this size is no amount. -/
def RateOverflows (policy : FeePolicy) (size : Nat) : Prop :=
  UInt64.size ≤ size * policy.feePerByte.toNat ∨
  UInt64.size ≤ 100 + policy.doubleSpentThresholdPct.toNat ∨
  UInt64.size ≤ policy.exactRate size * (100 + policy.doubleSpentThresholdPct.toNat)

variable {policy : FeePolicy} {size : Nat} {rate raised : Amount}

/-- Further bytes cost their own price at most, because the minimum stays what it is. -/
theorem exactFee_add_le (policy : FeePolicy) (size further : Nat) :
    policy.exactFee (size + further) ≤
      policy.exactFee size + further * policy.feePerByte.toNat := by
  unfold exactFee
  rw [Nat.add_mul]
  omega

theorem standardFee_eq (policy : FeePolicy) (size : Nat) :
    policy.standardFee size = Amount.checked (policy.exactFee size) := by
  have bound := policy.minimumFee.toNat_lt_size
  cases checked : Amount.checked (policy.exactFee size) with
  | ok fee =>
    have exact := Amount.checked_ok_iff.mp checked
    have fits := fee.toNat_lt_size
    rw [exact] at fits
    exact standardFee_ok_iff.mpr ⟨Nat.lt_of_le_of_lt (Nat.le_max_left _ _) fits, exact⟩
  | error error =>
    obtain ⟨large, rfl⟩ := Amount.checked_error_iff.mp checked
    -- The minimum is an amount, so it is the price that is none.
    have priced : UInt64.size ≤ size * policy.feePerByte.toNat := by
      unfold exactFee at large
      omega
    have refused := Amount.checked_error_iff.mpr ⟨priced, rfl⟩
    rw [standardFee, refused]
    rfl

theorem exactRate_least (policy : FeePolicy) (size : Nat) :
    LeastRate (policy.exactFee size) (max size 1) (policy.exactRate size) :=
  leastRate_div _ (Nat.le_max_right _ _)

theorem exactRate_le_exactFee (policy : FeePolicy) (size : Nat) :
    policy.exactRate size ≤ policy.exactFee size :=
  (policy.exactRate_least size).le_fee (Nat.le_max_right _ _)

theorem standardFee_exactWhen (policy : FeePolicy) (size : Nat) :
    ExactWhen (size * policy.feePerByte.toNat < UInt64.size) (policy.exactFee size)
      (policy.standardFee size) := by
  have bound := policy.minimumFee.toNat_lt_size
  have fits_iff : policy.exactFee size < UInt64.size ↔
      size * policy.feePerByte.toNat < UInt64.size := by
    rw [exactFee, Nat.max_lt]
    exact and_iff_left bound
  rw [standardFee_eq, ← fits_iff]
  exact .checked _

/-- The rate is not above a fee that is an amount, so it needs no check of its own. -/
theorem adjustedFeeRate_exactWhen (policy : FeePolicy) (size : Nat) :
    ExactWhen (size * policy.feePerByte.toNat < UInt64.size) (policy.exactRate size)
      (policy.adjustedFeeRate size) := by
  refine (policy.standardFee_exactWhen size).map fun fee same => ?_
  have bound := fee.toNat_lt_size
  rw [same] at bound ⊢
  exact UInt64.toNat_ofNat_of_lt'
    (Nat.lt_of_le_of_lt (policy.exactRate_le_exactFee size) bound)

theorem cancelFeeRate_exactWhen (policy : FeePolicy) (size : Nat) :
    let percent := 100 + policy.doubleSpentThresholdPct.toNat
    ExactWhen (size * policy.feePerByte.toNat < UInt64.size ∧ percent < UInt64.size ∧
      policy.exactRate size * percent < UInt64.size) (policy.exactRaised size)
      (policy.cancelFeeRate size) := by
  intro percent
  refine (policy.adjustedFeeRate_exactWhen size).bind fun rate rated => ?_
  have summed : ExactWhen (percent < UInt64.size) percent
      (checkedAdd 100 policy.doubleSpentThresholdPct) := .checked _
  refine summed.bind fun sum summed => ?_
  have multiplied : ExactWhen (policy.exactRate size * percent < UInt64.size)
      (policy.exactRate size * percent) (checkedMul rate sum) := by
    rw [checkedMul, rated, summed]
    exact .checked _
  refine multiplied.map fun product same => ?_
  rw [UInt64.toNat_div, same]
  rfl

theorem adjustedFeeRate_exact_iff :
    policy.adjustedFeeRate size = .ok rate ↔
      size * policy.feePerByte.toNat < UInt64.size ∧ rate.toNat = policy.exactRate size :=
  (policy.adjustedFeeRate_exactWhen size).ok_iff

theorem cancelFeeRate_exact_iff :
    policy.cancelFeeRate size = .ok raised ↔
      ¬policy.RateOverflows size ∧ raised.toNat = policy.exactRaised size := by
  rw [(policy.cancelFeeRate_exactWhen size).ok_iff]
  simp only [RateOverflows, not_or, Nat.not_le]

end UtxoLedger.FeePolicy
