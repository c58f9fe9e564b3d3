import UtxoLedger.Key.Secp256k1
import UtxoLedger.Proofs.Draft.Conservation
import UtxoLedger.Proofs.Fee.Payload
import UtxoLedger.Proofs.Fee.Policy

/-!
# Fees taken from a policy

The fees of a draft are estimated before it is known what is left over for the owner: with a
change output if something is left after paying for it as well, and without one otherwise. The
signature gives change whenever anything is left. So a funded transaction pays its own fee
except in one window: what is left is more than the fee without change takes, but not more than
the fee with change would take.
-/
namespace UtxoLedger.Draft

variable {S : SignatureScheme}

/-- The fee by size of the draft's transaction, if it had so many outputs. -/
def feeWith (draft : Draft S) (policy : FeePolicy) (outputs : Nat) : Except AmountError Amount :=
  policy.standardFee (estimatedSize draft.inputs.length outputs draft.payload.length)

theorem estimateFees_ok_iff {draft : Draft S} {policy : FeePolicy} {fees : Fees} :
    draft.estimateFees policy = .ok fees ↔
      Payload.feeFor draft.payload = .ok fees.payload ∧ ∃ withChange,
        draft.feeWith policy (draft.outputs.length + 1) = .ok withChange ∧
        draft.spending ⟨withChange, fees.payload⟩ < UInt64.size ∧
        ((draft.spending ⟨withChange, fees.payload⟩ < draft.totalInputs.toNat ∧
            fees.transaction = withChange) ∨
          (draft.totalInputs.toNat ≤ draft.spending ⟨withChange, fees.payload⟩ ∧
            draft.feeWith policy draft.outputs.length = .ok fees.transaction)) := by
  simp only [estimateFees, Except.bind_ok_iff, Except.mapError_ok_iff]
  constructor
  · rintro ⟨payload, priced, withChange, charged, spent, summed, chosen⟩
    rw [draft.sum_spending ⟨withChange, payload⟩, Amount.checked_ok_iff] at summed
    have fits := spent.toNat_lt_size
    split at chosen
    next above =>
      have more := UInt64.lt_iff_toNat_lt.mp above
      cases chosen
      exact ⟨priced, withChange, charged, summed ▸ fits, .inl ⟨summed ▸ more, rfl⟩⟩
    next within =>
      have less := UInt64.le_iff_toNat_le.mp (UInt64.not_lt.mp within)
      obtain ⟨withoutChange, cheaper, returned⟩ := Except.bind_ok_iff.mp chosen
      cases returned
      exact ⟨priced, withChange, charged, summed ▸ fits,
        .inr ⟨summed ▸ less, Except.mapError_ok_iff.mp cheaper⟩⟩
  · rintro ⟨priced, withChange, charged, fits, chosen⟩
    have exact := UInt64.toNat_ofNat_of_lt' fits
    refine ⟨fees.payload, priced, withChange, charged, _,
      (draft.sum_spending _).trans (Amount.checked_ok_iff.mpr exact), ?_⟩
    rcases chosen with ⟨more, same⟩ | ⟨less, cheaper⟩
    · rw [← exact] at more
      rw [if_pos (UInt64.lt_iff_toNat_lt.mpr more), ← same]
      rfl
    · rw [← exact] at less
      rw [if_neg (UInt64.not_lt.mpr (UInt64.le_iff_toNat_le.mpr less))]
      change (draft.feeWith policy draft.outputs.length).mapError _ >>= _ = _
      rw [cheaper]
      rfl

section Settled

variable {draft : Draft S} {kind : OutputType} {spent : Nat} {tx : Transaction}

theorem Settles.inputCount (settled : draft.Settles kind spent tx) :
    tx.inputs.length = draft.inputs.length := by
  have lengths := congrArg List.length settled.inputs
  rw [List.length_map, List.length_map] at lengths
  exact lengths

theorem Settles.outputCount (settled : draft.Settles kind spent tx) :
    tx.outputs.length = draft.outputs.length + if spent < draft.totalInputs.toNat then 1 else 0 := by
  obtain ⟨change, given, outputs⟩ := settled.outputs
  rw [outputs, List.length_append, List.length_map]
  rcases given with ⟨nothing, rfl⟩ | ⟨something, _, -, rfl⟩
  · rw [if_neg (by omega)]
    simp
  · rw [if_pos (by omega)]
    simp [Nat.add_comm]

theorem Settles.standardFee (settled : draft.Settles kind spent tx) (policy : FeePolicy) :
    policy.standardFee
        (estimatedSize tx.inputs.length tx.outputs.length tx.payload.length) =
      draft.feeWith policy tx.outputs.length := by
  rw [settled.inputCount, settled.payload]
  rfl

/-- What is funded is paid, to the unit. -/
theorem Settles.paid {fees : Fees} (settled : draft.Settles kind (draft.spending fees) tx)
    (balanced : draft.Balanced) (funded : draft.spending fees ≤ draft.totalInputs.toNat) :
    ∃ total, tx.totalOutput = .ok total ∧
      draft.totalInputs.toNat - total.toNat = fees.transaction.toNat + fees.payload.toNat := by
  have counted : draft.totalOutputs.toNat ≤ draft.spending fees := by
    unfold spending
    omega
  obtain ⟨total, summed, exact, -⟩ := settled.totalOutput balanced counted
  have conserved := exact.trans (settled.total balanced)
  refine ⟨total, summed, ?_⟩
  unfold spending at funded conserved
  omega

/-- The fee that was estimated is that of the transaction, unless change comes in after all. -/
theorem Settles.covers_iff {policy : FeePolicy} {fees : Fees}
    (settled : draft.Settles kind (draft.spending fees) tx)
    (estimated : draft.estimateFees policy = .ok fees)
    (funded : draft.spending fees ≤ draft.totalInputs.toNat) :
    ∃ own withChange : Amount, draft.feeWith policy tx.outputs.length = .ok own ∧
      draft.feeWith policy (draft.outputs.length + 1) = .ok withChange ∧
      (own.toNat ≤ fees.transaction.toNat ↔
        draft.spending fees = draft.totalInputs.toNat ∨
        draft.spending ⟨withChange, fees.payload⟩ < draft.totalInputs.toNat) := by
  obtain ⟨-, withChange, charged, -, chosen⟩ := estimateFees_ok_iff.mp estimated
  have count := settled.outputCount
  by_cases spent : draft.spending fees = draft.totalInputs.toNat
  · -- Nothing is left, so there is no change, and the fee was estimated without it.
    rw [if_neg (by omega), Nat.add_zero] at count
    rcases chosen with ⟨more, same⟩ | ⟨-, cheaper⟩
    · rw [← same] at more
      exact absurd spent (Nat.ne_of_lt more)
    · refine ⟨fees.transaction, withChange, by rw [count, cheaper], charged, ?_⟩
      simp [spent]
  · -- Something is left, so there is change, whatever was estimated.
    have left : draft.spending fees < draft.totalInputs.toNat := Nat.lt_of_le_of_ne funded spent
    rw [if_pos left] at count
    refine ⟨withChange, withChange, by rw [count, charged], charged, ?_⟩
    rcases chosen with ⟨more, same⟩ | ⟨less, -⟩
    · simp [more, same]
    · simp only [spending] at left less spent ⊢
      omega

end Settled

theorem signWithPolicy_settles {draft : Draft S} {kind : OutputType} {policy : FeePolicy}
    {fees : Fees} {entropy : Entropy} {tx : Transaction}
    (estimated : draft.estimateFees policy = .ok fees)
    (signed : draft.signWithPolicy kind policy entropy = .ok tx) :
    draft.Settles kind (draft.spending fees) tx := by
  obtain ⟨_, same, returned⟩ := Except.bind_ok_iff.mp signed
  cases same.symm.trans estimated
  rcases draft.sign_cases kind fees entropy with
    ⟨-, failed⟩ | ⟨-, -, -, failed⟩ | ⟨-, -, _, done, settled⟩
  · cases failed.symm.trans returned
  · cases failed.symm.trans returned
  · cases done.symm.trans returned
    exact settled

/-- A funded draft that pays someone is signed. -/
theorem signWithPolicy_ok {draft : Draft S} {policy : FeePolicy} {fees : Fees}
    (estimated : draft.estimateFees policy = .ok fees)
    (funded : draft.spending fees ≤ draft.totalInputs.toNat) (paid : draft.outputs ≠ [])
    (kind : OutputType) (entropy : Entropy) :
    ∃ tx, draft.signWithPolicy kind policy entropy = .ok tx := by
  have fits : draft.spending fees < UInt64.size :=
    Nat.lt_of_le_of_lt funded draft.totalInputs.toNat_lt_size
  obtain ⟨tx, returned, -⟩ := draft.sign_settles kind entropy fits (.inl paid)
  exact ⟨tx, Except.bind_ok_iff.mpr ⟨fees, estimated, returned⟩⟩

/-- A funded transaction covers its own fee exactly when nothing is left over for the owner, or
enough to pay for the change output too. -/
theorem signWithPolicy_covers_iff (owner : KeyPair S) (history : List Edit) (kind : OutputType)
    (policy : FeePolicy) (fees : Fees) (entropy : Entropy) (tx : Transaction)
    (estimated : (ofHistory owner history).estimateFees policy = .ok fees)
    (funded : (ofHistory owner history).spending fees ≤
      (ofHistory owner history).totalInputs.toNat)
    (signed : (ofHistory owner history).signWithPolicy kind policy entropy = .ok tx) :
    let draft := ofHistory owner history
    ∃ total own withChange : Amount, tx.totalOutput = .ok total ∧
      policy.standardFee (estimatedSize tx.inputs.length tx.outputs.length tx.payload.length) =
        .ok own ∧
      draft.feeWith policy (draft.outputs.length + 1) = .ok withChange ∧
      (fees.payload.toNat + own.toNat ≤ draft.totalInputs.toNat - total.toNat ↔
        draft.spending fees = draft.totalInputs.toNat ∨
        draft.spending ⟨withChange, fees.payload⟩ < draft.totalInputs.toNat) := by
  intro draft
  have settled : draft.Settles kind (draft.spending fees) tx :=
    signWithPolicy_settles estimated signed
  obtain ⟨total, summed, paid⟩ := settled.paid (balanced_ofHistory owner history) funded
  obtain ⟨own, withChange, priced, charged, covers⟩ := settled.covers_iff estimated funded
  refine ⟨total, own, withChange, summed, (settled.standardFee policy).trans priced, charged, ?_⟩
  rw [← covers, paid]
  omega

/-- 500000 are left over, and the fee with change takes 226000 of them. -/
theorem signWithPolicy_covers_iff_ample_change :
    let owner : KeyPair secp256k1 := ⟨⟨1, by decide, by decide⟩⟩
    let coin : Digest := ⟨List.replicate 64 1, List.length_replicate⟩
    let history : List Edit := [.addInput coin 1000000, .addOutput ⟨.key, [2]⟩ 500000]
    let policy : FeePolicy := { feePerByte := 1000 }
    let draft := ofHistory owner history
    let fees : Fees := ⟨226000, 0⟩
    draft.estimateFees policy = .ok fees ∧ draft.spending fees ≤ draft.totalInputs.toNat ∧
    ∃ tx, draft.signWithPolicy .payment policy (fun _ => []) = .ok tx ∧
    ∃ total own : Amount, tx.totalOutput = .ok total ∧
      policy.standardFee (estimatedSize tx.inputs.length tx.outputs.length tx.payload.length) =
        .ok own ∧
      fees.payload.toNat + own.toNat ≤ draft.totalInputs.toNat - total.toNat := by
  intro owner coin history policy draft fees
  have withChange : draft.feeWith policy (draft.outputs.length + 1) = .ok 226000 :=
    FeePolicy.standardFee_ok_iff.mpr ⟨by decide +kernel, by decide +kernel⟩
  have estimated : draft.estimateFees policy = .ok fees :=
    estimateFees_ok_iff.mpr ⟨Payload.feeFor_of_short (by decide +kernel), 226000, withChange,
      by decide +kernel, .inl ⟨by decide +kernel, rfl⟩⟩
  have funded : draft.spending fees ≤ draft.totalInputs.toNat := by decide +kernel
  obtain ⟨tx, signed⟩ :=
    signWithPolicy_ok estimated funded (by decide +kernel) .payment fun _ => []
  obtain ⟨total, own, counted, summed, priced, charged, covers⟩ :=
    signWithPolicy_covers_iff owner history .payment policy fees _ tx estimated funded signed
  cases withChange.symm.trans charged
  exact ⟨estimated, funded, tx, signed, total, own, summed, priced,
    covers.mpr (.inr (by decide +kernel))⟩

/-- 200000 are left over: more than the 183000 without change, less than the 226000 with it. -/
theorem signWithPolicy_underpays :
    let owner : KeyPair secp256k1 := ⟨⟨1, by decide, by decide⟩⟩
    let coin : Digest := ⟨List.replicate 64 1, List.length_replicate⟩
    let history : List Edit := [.addInput coin 1000000, .addOutput ⟨.key, [2]⟩ 800000]
    let policy : FeePolicy := { feePerByte := 1000 }
    let draft := ofHistory owner history
    let fees : Fees := ⟨183000, 0⟩
    draft.estimateFees policy = .ok fees ∧ draft.spending fees ≤ draft.totalInputs.toNat ∧
    ∃ tx, draft.signWithPolicy .payment policy (fun _ => []) = .ok tx ∧
    ∃ total own : Amount, tx.totalOutput = .ok total ∧
      policy.standardFee (estimatedSize tx.inputs.length tx.outputs.length tx.payload.length) =
        .ok own ∧
      ¬fees.payload.toNat + own.toNat ≤ draft.totalInputs.toNat - total.toNat := by
  intro owner coin history policy draft fees
  have withChange : draft.feeWith policy (draft.outputs.length + 1) = .ok 226000 :=
    FeePolicy.standardFee_ok_iff.mpr ⟨by decide +kernel, by decide +kernel⟩
  have estimated : draft.estimateFees policy = .ok fees :=
    estimateFees_ok_iff.mpr ⟨Payload.feeFor_of_short (by decide +kernel), 226000, withChange,
      by decide +kernel, .inr ⟨by decide +kernel,
        FeePolicy.standardFee_ok_iff.mpr ⟨by decide +kernel, by decide +kernel⟩⟩⟩
  have funded : draft.spending fees ≤ draft.totalInputs.toNat := by decide +kernel
  obtain ⟨tx, signed⟩ :=
    signWithPolicy_ok estimated funded (by decide +kernel) .payment fun _ => []
  have settled := signWithPolicy_settles estimated signed
  obtain ⟨total, summed, paid⟩ := settled.paid (balanced_ofHistory owner history) funded
  obtain ⟨own, counted, priced, charged, covers⟩ := settled.covers_iff estimated funded
  cases withChange.symm.trans charged
  have short : ¬own.toNat ≤ fees.transaction.toNat := mt covers.mp (by decide +kernel)
  refine ⟨estimated, funded, tx, signed, total, own, summed,
    (settled.standardFee policy).trans priced, ?_⟩
  rw [paid]
  omega

end UtxoLedger.Draft
