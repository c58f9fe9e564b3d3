import UtxoLedger.Fee.Policy
import UtxoLedger.Proofs.Amount.Exact

/-!
# Fees by size

The standard fee in exact numbers, and how it moves with the size: what is smaller is
never refused where something larger is not, and never costs more.
-/
namespace UtxoLedger

theorem estimatedSize_mono {inputs outputs payload inputs' outputs' payload' : Nat}
    (fewerInputs : inputs ≤ inputs') (fewerOutputs : outputs ≤ outputs')
    (lighter : payload ≤ payload') :
    estimatedSize inputs outputs payload ≤ estimatedSize inputs' outputs' payload' := by
  unfold estimatedSize
  omega

namespace FeePolicy

theorem standardFee_ok_iff {policy : FeePolicy} {size : Nat} {fee : Amount} :
    policy.standardFee size = .ok fee ↔
      size * policy.feePerByte.toNat < UInt64.size ∧
      fee.toNat = max (size * policy.feePerByte.toNat) policy.minimumFee.toNat := by
  have larger (priced : Amount) :
      (max priced policy.minimumFee).toNat = max priced.toNat policy.minimumFee.toNat := by
    rw [Nat.max_def]
    simp only [max, UInt64.le_iff_toNat_le]
    split <;> rfl
  unfold standardFee
  rw [Except.bind_ok_iff]
  constructor
  · rintro ⟨priced, fits, returned⟩
    have exact := Amount.checked_ok_iff.mp fits
    cases returned
    exact ⟨exact ▸ priced.toNat_lt_size, by rw [larger, exact]⟩
  · rintro ⟨fits, equal⟩
    refine ⟨UInt64.ofNat (size * policy.feePerByte.toNat), if_pos fits, ?_⟩
    refine congrArg Except.ok (UInt64.toNat_inj.mp ?_)
    rw [larger, UInt64.toNat_ofNat_of_lt' fits, equal]

/-- A bound covers the standard fee exactly when it covers the price and the minimum. -/
theorem exists_standardFee_le_iff {policy : FeePolicy} {size : Nat} {bound : Amount} :
    (∃ fee, policy.standardFee size = .ok fee ∧ fee.toNat ≤ bound.toNat) ↔
      max (size * policy.feePerByte.toNat) policy.minimumFee.toNat ≤ bound.toNat := by
  constructor
  · rintro ⟨fee, charged, within⟩
    rw [← (standardFee_ok_iff.mp charged).2]
    exact within
  · intro larger
    have within := bound.toNat_lt_size
    have exact := UInt64.toNat_ofNat_of_lt' (Nat.lt_of_le_of_lt larger within)
    have priced := (Nat.max_le.mp larger).1
    exact ⟨UInt64.ofNat (max (size * policy.feePerByte.toNat) policy.minimumFee.toNat),
      standardFee_ok_iff.mpr ⟨Nat.lt_of_le_of_lt priced within, exact⟩,
      le_of_eq_of_le exact larger⟩

theorem standardFee_of_le {policy : FeePolicy} {smaller size : Nat} {fee : Amount}
    (le : smaller ≤ size) (charged : policy.standardFee size = .ok fee) :
    ∃ lesser, policy.standardFee smaller = .ok lesser ∧ lesser.toNat ≤ fee.toNat := by
  obtain ⟨-, equal⟩ := standardFee_ok_iff.mp charged
  have priced : smaller * policy.feePerByte.toNat ≤ size * policy.feePerByte.toNat :=
    Nat.mul_le_mul_right _ le
  exact exists_standardFee_le_iff.mpr (by omega)

end FeePolicy

end UtxoLedger
