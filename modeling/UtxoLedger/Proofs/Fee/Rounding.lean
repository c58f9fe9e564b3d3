import Mathlib.Algebra.Order.Floor.Div
import UtxoLedger.Proofs.Fee.Exact

/-!
# Rounded rates

A rate is rounded twice. The fee of a size is shared among its bytes and rounded up, so the rate
covers the fee; the percentage is put on top of that and rounded down. The numbers are exact up to
these two steps and never wrap. The second step costs a part of the percentage as soon as it does
not come to whole units, and all of it where the rate is low.
-/
namespace UtxoLedger.FeePolicy

open Amount

variable {policy : FeePolicy} {size larger : Nat}

/-- A rate covers the fee when it covers both the price of a byte and the share of the minimum. -/
theorem exactFee_le_mul_iff (some : 1 ≤ size) {rate : Nat} :
    policy.exactFee size ≤ rate * size ↔
      max policy.feePerByte.toNat (policy.minimumFee.toNat ⌈/⌉ size) ≤ rate := by
  rw [exactFee, Nat.max_le, Nat.max_le, ceilDiv_le_iff_le_mul some, Nat.mul_comm rate,
    Nat.mul_le_mul_left_iff some]

theorem exactRate_eq (some : 1 ≤ size) :
    policy.exactRate size =
      max policy.feePerByte.toNat (policy.minimumFee.toNat ⌈/⌉ size) := by
  have least := policy.exactRate_least size
  rw [Nat.max_eq_left some] at least
  apply Nat.le_antisymm
  · exact least.le_of_covers ((exactFee_le_mul_iff some).mpr (Nat.le_refl _))
  · exact (exactFee_le_mul_iff some).mp least.covers

theorem exactRate_isLeast (policy : FeePolicy) (some : 1 ≤ size) :
    IsLeast {rate : Nat | policy.exactFee size ≤ rate * size} (policy.exactRate size) := by
  rw [exactRate_eq some]
  exact ⟨(exactFee_le_mul_iff some).mpr (Nat.le_refl _),
    fun _ covers => (exactFee_le_mul_iff some).mp covers⟩

/-- Of a minimum that is shared among more bytes no byte has to pay more. -/
theorem exactRate_antitone (some : 1 ≤ size) (le : size ≤ larger) :
    policy.exactRate larger ≤ policy.exactRate size := by
  have more := Nat.le_trans some le
  rw [exactRate_eq more, exactRate_eq some]
  apply max_le_max_left
  rw [ceilDiv_le_iff_le_mul more]
  calc policy.minimumFee.toNat
      ≤ size * (policy.minimumFee.toNat ⌈/⌉ size) := (ceilDiv_le_iff_le_mul some).mp (Nat.le_refl _)
    _ ≤ larger * (policy.minimumFee.toNat ⌈/⌉ size) := Nat.mul_le_mul_right _ le

/-- The fee and both rates of a size are the exact numbers wherever these can be given, and an
overflow elsewhere. Among the rates that cover the fee the first one is the least, and the second
is not below it. A larger size costs no less in all, and no more for a byte. -/
theorem rates_exact (policy : FeePolicy) (size : Nat) (some : 1 ≤ size) :
    let priced := size * policy.feePerByte.toNat
    let fee := max priced policy.minimumFee.toNat
    let rate := max policy.feePerByte.toNat (policy.minimumFee.toNat ⌈/⌉ size)
    let percent := 100 + policy.doubleSpentThresholdPct.toNat
    ExactWhen (priced < UInt64.size) fee (policy.standardFee size) ∧
    ExactWhen (priced < UInt64.size) rate (policy.adjustedFeeRate size) ∧
    IsLeast {other : Nat | fee ≤ other * size} rate ∧
    (∀ larger more, size ≤ larger → policy.standardFee larger = .ok more →
      ∃ less, policy.standardFee size = .ok less ∧ less ≤ more) ∧
    (∀ larger lower, size ≤ larger → policy.adjustedFeeRate larger = .ok lower →
      ∃ higher, policy.adjustedFeeRate size = .ok higher ∧ lower ≤ higher) ∧
    ExactWhen (priced < UInt64.size ∧ percent < UInt64.size ∧ rate * percent < UInt64.size)
      (rate * percent / 100) (policy.cancelFeeRate size) ∧
    rate ≤ rate * percent / 100 := by
  intro priced fee rate percent
  have rated : policy.exactRate size = rate := exactRate_eq some
  have adjusted := policy.adjustedFeeRate_exactWhen size
  have replacing := policy.cancelFeeRate_exactWhen size
  have least := policy.exactRate_isLeast some
  rw [rated] at adjusted least
  rw [exactRaised, rated] at replacing
  refine ⟨policy.standardFee_exactWhen size, adjusted, least, fun larger more le charged => ?_,
    fun larger lower le returned => ?_, replacing, policy.le_raised rate⟩
  · obtain ⟨less, given, within⟩ := standardFee_of_le le charged
    exact ⟨less, given, UInt64.le_iff_toNat_le.mpr within⟩
  · obtain ⟨fits, exact⟩ := adjustedFeeRate_exact_iff.mp returned
    obtain ⟨higher, given, same⟩ :=
      adjusted.given (Nat.lt_of_le_of_lt (Nat.mul_le_mul_right _ le) fits)
    refine ⟨higher, given, UInt64.le_iff_toNat_le.mpr ?_⟩
    rw [exact, same, ← rated]
    exact exactRate_antitone some le

/-- With the largest minimum there is, seven bytes leave a remainder, and the rate is rounded up
to cover it. There is no room for a percentage on top. -/
theorem rates_exact_largest_minimum :
    let policy : FeePolicy := { feePerByte := 3, minimumFee := 18446744073709551615 }
    1 ≤ 7 ∧ policy.standardFee 7 = .ok 18446744073709551615 ∧
    policy.adjustedFeeRate 7 = .ok 2635249153387078803 ∧
    policy.cancelFeeRate 7 = .error .overflow ∧
    ∃ lower higher, policy.adjustedFeeRate 8 = .ok lower ∧
      policy.adjustedFeeRate 7 = .ok higher ∧ lower ≤ higher := by
  intro policy
  have some : 1 ≤ 7 := by decide
  obtain ⟨fee, rate, -, -, antitone, raised, -⟩ := rates_exact policy 7 some
  obtain ⟨-, next, -⟩ := rates_exact policy 8 (by decide)
  obtain ⟨charged, given, exact⟩ := fee.given (by decide +kernel)
  obtain ⟨rated, adjusted, least⟩ := rate.given (by decide +kernel)
  obtain ⟨lower, later, -⟩ := next.given (by decide +kernel)
  obtain ⟨higher, earlier, within⟩ := antitone 8 lower (by decide) later
  have fee_eq : charged = 18446744073709551615 :=
    UInt64.toNat_inj.mp (exact.trans (by decide +kernel))
  have rate_eq : rated = 2635249153387078803 :=
    UInt64.toNat_inj.mp (least.trans (by decide +kernel))
  exact ⟨some, fee_eq ▸ given, rate_eq ▸ adjusted, raised.refused (by decide +kernel),
    lower, higher, later, earlier, within⟩

/-- The whole percentage is on top of a rate just where it comes to whole units. What is missing
elsewhere is what the last division leaves over, and where the percentage does not come to a single
unit, nothing of it is left. -/
theorem premium_iff (policy : FeePolicy) (size : Nat) (raised : Amount)
    (returned : policy.cancelFeeRate size = .ok raised) :
    let percentage := policy.doubleSpentThresholdPct.toNat
    ∃ rate : Amount, policy.adjustedFeeRate size = .ok rate ∧
      100 * raised.toNat + rate.toNat * percentage % 100 = (100 + percentage) * rate.toNat ∧
      ((100 + percentage) * rate.toNat ≤ 100 * raised.toNat ↔ 100 ∣ rate.toNat * percentage) ∧
      (rate < raised ↔ 100 ≤ rate.toNat * percentage) := by
  intro percentage
  obtain ⟨fee, rate, rates⟩ := rates_of_cancelFeeRate returned
  have raise : (100 + percentage) * rate.toNat = 100 * rate.toNat + rate.toNat * percentage := by
    rw [Nat.add_mul, Nat.mul_comm percentage]
  have division : 100 * raised.toNat + (100 + percentage) * rate.toNat % 100 =
      (100 + percentage) * rate.toNat := by
    rw [rates.raised, Nat.mul_comm rate.toNat]
    exact Nat.div_add_mod _ 100
  -- The rate itself is a whole number of units, so only the percentage leaves something over.
  have left : (100 + percentage) * rate.toNat % 100 = rate.toNat * percentage % 100 := by
    rw [raise, Nat.mul_add_mod]
  rw [left] at division
  refine ⟨rate, rates.adjusted, division, ?_, ?_⟩
  · rw [Nat.dvd_iff_mod_eq_zero]
    omega
  · rw [UInt64.lt_iff_toNat_lt]
    exact rates.rate_lt_raised_iff

/-- 280 and a fifth of it is a whole number. -/
theorem premium_iff_whole :
    let policy : FeePolicy := {}
    policy.cancelFeeRate 358 = .ok 336 ∧ policy.adjustedFeeRate 358 = .ok 280 ∧
    120 * 280 ≤ 100 * (336 : Amount).toNat ∧ (280 : Amount) < 336 := by
  intro policy
  have returned : policy.cancelFeeRate 358 = .ok 336 := by decide +kernel
  obtain ⟨rate, adjusted, -, whole, higher⟩ := premium_iff policy 358 336 returned
  have rated : policy.adjustedFeeRate 358 = .ok 280 := by decide +kernel
  cases adjusted.symm.trans rated
  exact ⟨returned, rated, whole.mpr (by decide), higher.mpr (by decide)⟩

/-- A fifth of 279 is lost in part, and a fifth of 1 altogether. -/
theorem premium_lost :
    let size := estimatedSize 2 2 1
    let policy : FeePolicy := {}
    let cheap : FeePolicy := { feePerByte := 1, minimumFee := 0 }
    (1 ≤ size ∧ policy.adjustedFeeRate size = .ok 279 ∧ policy.cancelFeeRate size = .ok 334 ∧
      ¬(100 + policy.doubleSpentThresholdPct.toNat) * (279 : Amount).toNat ≤
        100 * (334 : Amount).toNat) ∧
    1 ≤ cheap.doubleSpentThresholdPct.toNat ∧
    cheap.adjustedFeeRate size = .ok 1 ∧ cheap.cancelFeeRate size = .ok 1 := by
  decide +kernel

end UtxoLedger.FeePolicy
