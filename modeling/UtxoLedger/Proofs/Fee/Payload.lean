import UtxoLedger.Fee.Payload

/-!
# What a payload costs

On the line up to the first breakpoint every other byte costs a unit, and the cost is rounded
down. So the first byte is free.
-/
namespace UtxoLedger.Payload

theorem fee_of_short {size : Nat} (short : size ≤ 1) : fee size = .ok 0 := by
  have cases : size = 0 ∨ size = 1 := by omega
  rcases cases with rfl | rfl
  · simp [fee, maximumPayload, units, breakpoints]
  · simp [fee, maximumPayload, units, breakpoints]

/-- Only a payload above the maximum is refused. -/
theorem feeFor_error_iff {payload : Bytes} {error : FeeError} :
    feeFor payload = .error error ↔
      maximumPayload < payload.length ∧ error = .sizeAboveMaximum := by
  have natural : ¬(payload.length : Int) < 0 := by omega
  unfold feeFor fee
  rw [if_neg natural]
  split
  next large => simp [large, eq_comm (a := FeeError.sizeAboveMaximum)]
  next within => simp [within]

theorem within_of_feeFor {payload : Bytes} {fee : Amount} (priced : feeFor payload = .ok fee) :
    ¬maximumPayload < payload.length := by
  intro large
  cases priced.symm.trans (feeFor_error_iff.mpr ⟨large, rfl⟩)

theorem feeFor_of_short {payload : Bytes} (short : payload.length ≤ 1) :
    feeFor payload = .ok 0 :=
  fee_of_short short

end UtxoLedger.Payload
