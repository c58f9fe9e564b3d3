import UtxoLedger.Proofs.Fee.Policy

/-!
# Rates by size

The rate of a transaction is the least one that covers the standard fee over its size. The
rate that replaces it is never lower, and it is higher as soon as the percentage comes to a
whole unit.
-/
namespace UtxoLedger

theorem estimatedSize_pos (inputs outputs payload : Nat) :
    0 < estimatedSize inputs outputs payload := by
  unfold estimatedSize
  omega

namespace FeePolicy

/-- A rate covers a fee over so many bytes, and no lower rate does. -/
structure LeastRate (fee bytes rate : Nat) : Prop where
  covers : fee ≤ rate * bytes
  least : rate * bytes < fee + bytes

theorem LeastRate.le_of_covers {fee bytes rate other : Nat} (least : LeastRate fee bytes rate)
    (covers : fee ≤ other * bytes) : rate ≤ other := by
  have past : rate * bytes < (other + 1) * bytes := by
    rw [Nat.succ_mul]
    exact Nat.lt_of_lt_of_le least.least (Nat.add_le_add_right covers bytes)
  exact Nat.le_of_lt_succ (Nat.lt_of_mul_lt_mul_right past)

theorem leastRate_div (fee : Nat) {bytes : Nat} (some : 0 < bytes) :
    LeastRate fee bytes (fee / bytes + if fee % bytes = 0 then 0 else 1) := by
  have division := Nat.div_add_mod fee bytes
  have remainder := Nat.mod_lt fee some
  constructor
  · rw [Nat.add_mul, Nat.mul_comm (fee / bytes)]
    split <;> omega
  · rw [Nat.add_mul, Nat.mul_comm (fee / bytes)]
    split <;> omega

/-- Over at least one byte no least rate is above the fee. -/
theorem LeastRate.le_fee {fee bytes rate : Nat} (least : LeastRate fee bytes rate)
    (some : 0 < bytes) : rate ≤ fee :=
  least.le_of_covers (Nat.le_mul_of_pos_right fee some)

variable {policy : FeePolicy} {size : Nat} {fee rate raised : Amount}

theorem adjustedFeeRate_ok_iff :
    policy.adjustedFeeRate size = .ok rate ↔
      ∃ fee, policy.standardFee size = .ok fee ∧
        LeastRate fee.toNat (max size 1) rate.toNat := by
  have some : 0 < max size 1 := by omega
  unfold adjustedFeeRate
  rw [Except.bind_ok_iff]
  refine exists_congr fun fee => and_congr_right fun _ => ?_
  have rounded := leastRate_div fee.toNat some
  -- The quotient is not above the fee, so it is an amount also where it is rounded up.
  have fits := Nat.lt_of_le_of_lt (rounded.le_fee some) fee.toNat_lt_size
  have exact := UInt64.toNat_ofNat_of_lt' fits
  constructor
  · intro returned
    cases returned
    rw [exact]
    exact rounded
  · intro least
    refine congrArg Except.ok (UInt64.toNat_inj.mp ?_)
    rw [exact]
    exact Nat.le_antisymm (rounded.le_of_covers least.covers) (least.le_of_covers rounded.covers)

theorem le_raised (policy : FeePolicy) (rate : Nat) :
    rate ≤ rate * (100 + policy.doubleSpentThresholdPct.toNat) / 100 := by
  rw [Nat.le_div_iff_mul_le (by decide)]
  exact Nat.mul_le_mul_left _ (Nat.le_add_right _ _)

/-- What a size is charged by the policy, what that makes for a byte, and the rate above it. -/
structure Rates (policy : FeePolicy) (size : Nat) (fee rate raised : Amount) : Prop where
  charged : policy.standardFee size = .ok fee
  adjusted : policy.adjustedFeeRate size = .ok rate
  replacing : policy.cancelFeeRate size = .ok raised
  least : LeastRate fee.toNat (max size 1) rate.toNat
  raised : raised.toNat = rate.toNat * (100 + policy.doubleSpentThresholdPct.toNat) / 100

theorem rates_of_cancelFeeRate (returned : policy.cancelFeeRate size = .ok raised) :
    ∃ fee rate, policy.Rates size fee rate raised := by
  have steps := returned
  simp only [cancelFeeRate, Except.bind_ok_iff, Amount.checkedAdd_ok_iff] at steps
  obtain ⟨rate, adjusted, percent, sum, product, multiplied, divided⟩ := steps
  obtain ⟨fee, charged, least⟩ := adjustedFeeRate_ok_iff.mp adjusted
  have exact := Amount.checked_ok_iff.mp multiplied
  cases divided
  refine ⟨fee, rate, charged, adjusted, returned, least, ?_⟩
  rw [UInt64.toNat_div, exact, sum]
  rfl

namespace Rates

theorem rate_le_raised (rates : policy.Rates size fee rate raised) :
    rate.toNat ≤ raised.toNat := by
  rw [rates.raised]
  exact policy.le_raised rate.toNat

/-- The raised rate is higher exactly when the percentage comes to a whole unit. -/
theorem rate_lt_raised_iff (rates : policy.Rates size fee rate raised) :
    rate.toNat < raised.toNat ↔ 100 ≤ rate.toNat * policy.doubleSpentThresholdPct.toNat := by
  rw [rates.raised, Nat.mul_add, ← Nat.succ_le_iff, Nat.le_div_iff_mul_le (by decide)]
  omega

/-- A premium is a whole number of units, so it is not small against the rate. -/
theorem rate_lt_premium (rates : policy.Rates size fee rate raised)
    (higher : rate.toNat < raised.toNat) : rate.toNat < 200 * (raised.toNat - rate.toNat) := by
  have whole := rates.rate_lt_raised_iff.mp higher
  -- The percentage is not zero, so the rate is no more than that many times itself.
  have percent : rate.toNat ≤ rate.toNat * policy.doubleSpentThresholdPct.toNat := by
    apply Nat.le_mul_of_pos_right
    refine Nat.pos_of_ne_zero fun zero => ?_
    rw [zero] at whole
    omega
  have exact := rates.raised
  rw [Nat.mul_add] at exact
  omega

theorem fee_le (rates : policy.Rates size fee rate raised) (some : 0 < size) :
    fee.toNat ≤ rate.toNat * size := by
  have covers := rates.least.covers
  rw [Nat.max_eq_left some] at covers
  exact covers

/-- Where only a part of the size is paid for, the rate still covers that part of the fee. -/
theorem fee_mul_le (rates : policy.Rates size fee rate raised) (some : 0 < size) (part : Nat) :
    fee.toNat * part ≤ rate.toNat * part * size := by
  rw [Nat.mul_right_comm]
  exact Nat.mul_le_mul_right _ (rates.fee_le some)

theorem feePerByte_le_rate (rates : policy.Rates size fee rate raised) (some : 0 < size) :
    policy.feePerByte.toNat ≤ rate.toNat := by
  have covers := rates.fee_le some
  rw [(standardFee_ok_iff.mp rates.charged).2] at covers
  have enough : policy.feePerByte.toNat * size ≤ rate.toNat * size := by
    rw [Nat.mul_comm]
    exact Nat.le_trans (Nat.le_max_left _ _) covers
  exact Nat.le_of_mul_le_mul_right enough some

/-- Above the minimum the rate is the policy's price of a byte. -/
theorem rate_eq_feePerByte (rates : policy.Rates size fee rate raised) (some : 0 < size)
    (above : policy.minimumFee.toNat ≤ size * policy.feePerByte.toNat) :
    rate = policy.feePerByte := by
  have priced := (standardFee_ok_iff.mp rates.charged).2
  rw [Nat.max_eq_left above, Nat.mul_comm, ← Nat.max_eq_left some] at priced
  have lower := rates.least.le_of_covers (Nat.le_of_eq priced)
  exact UInt64.toNat_inj.mp (Nat.le_antisymm lower (rates.feePerByte_le_rate some))

/-- The rate of a size covers what any larger size is charged. -/
theorem fee_le_rate_mul (rates : policy.Rates size fee rate raised) (some : 0 < size)
    {larger : Nat} {charge : Amount} (le : size ≤ larger)
    (charged : policy.standardFee larger = .ok charge) : charge.toNat ≤ rate.toNat * larger := by
  have least := (standardFee_ok_iff.mp rates.charged).2
  have covers := rates.fee_le some
  have grows : rate.toNat * size ≤ rate.toNat * larger := Nat.mul_le_mul_left _ le
  have priced := Nat.mul_le_mul_left larger (rates.feePerByte_le_rate some)
  rw [(standardFee_ok_iff.mp charged).2]
  apply Nat.max_le.mpr
  constructor
  · rw [Nat.mul_comm rate.toNat]
    exact priced
  · omega

theorem raisedFeePerByte_le_raised (rates : policy.Rates size fee rate raised) (some : 0 < size) :
    policy.feePerByte.toNat * (100 + policy.doubleSpentThresholdPct.toNat) / 100 ≤
      raised.toNat := by
  rw [rates.raised]
  exact Nat.div_le_div_right (Nat.mul_le_mul_right _ (rates.feePerByte_le_rate some))

end Rates

end FeePolicy

end UtxoLedger
