import UtxoLedger.Proofs.Draft.History
import UtxoLedger.Proofs.Transaction.Signing

/-!
# Signing a draft conserves value

Signing ends in one of three ways, decided by what the outputs and fees come to. Where it
gives a transaction, everything the draft spends is either paid, given back to the owner or
left as the fees; what the fees cannot take from the inputs is not charged.
-/
namespace UtxoLedger.Draft

variable {S : SignatureScheme}

/-- What the inputs have to cover before anything is left for the owner. -/
def spending (draft : Draft S) (fees : Fees) : Nat :=
  draft.totalOutputs.toNat + fees.transaction.toNat + fees.payload.toNat

/-- One payment of `rest` to the owner, or nothing when nothing is left. -/
def IsChange (owner : Lock) (rest : Nat) (change : List Output) : Prop :=
  (rest = 0 ∧ change = []) ∨
    (0 < rest ∧ ∃ value : Amount, value.toNat = rest ∧ change = [⟨.payment, value, owner⟩])

theorem isChange_change (draft : Draft S) (spent : Amount) :
    IsChange (.ofPublicKey draft.owner.publicKey) (draft.totalInputs.toNat - spent.toNat)
      (draft.change spent) := by
  have rest := Amount.saturatingSub_toNat draft.totalInputs spent
  unfold change
  dsimp only
  split
  next some =>
    have positive := UInt64.lt_iff_toNat_lt.mp some
    rw [rest] at positive
    exact .inr ⟨positive, _, rest, rfl⟩
  next none =>
    have zero := UInt64.le_iff_toNat_le.mp (UInt64.not_lt.mp none)
    rw [rest] at zero
    exact .inl ⟨Nat.le_zero.mp zero, rfl⟩

theorem IsChange.total {owner : Lock} {rest : Nat} {change : List Output}
    (given : IsChange owner rest change) : Amount.total (change.map Output.value) = rest := by
  rcases given with ⟨zero, rfl⟩ | ⟨-, value, exact, rfl⟩
  · exact zero.symm
  · exact exact

theorem IsChange.eq_nil_iff {owner : Lock} {rest : Nat} {change : List Output}
    (given : IsChange owner rest change) : change = [] ↔ rest = 0 := by
  rcases given with ⟨zero, rfl⟩ | ⟨positive, value, -, rfl⟩
  · simp [zero]
  · simp; omega

/-- The transaction for a draft that spends so much besides the change. -/
structure Settles (draft : Draft S) (kind : OutputType) (spent : Nat) (tx : Transaction) :
    Prop where
  inputs : tx.inputs.map (fun input => (input.utxo, input.unlockAge)) =
    draft.inputs.map fun (input, _) => (input.utxo, input.unlockAge)
  outputs : ∃ change,
    IsChange (.ofPublicKey draft.owner.publicKey) (draft.totalInputs.toNat - spent) change ∧
    tx.outputs = change ++ draft.outputs.map fun output => { output with kind }
  payload : tx.payload = draft.payload
  lockHeight : tx.lockHeight = draft.lockHeight

private theorem settles_of_bare {draft : Draft S} {kind : OutputType} {spent : Amount}
    {tx : Transaction} (same : tx.bare = (draft.unsigned kind spent).bare) :
    draft.Settles kind spent.toNat tx := by
  obtain ⟨-, outputs, payload, lockHeight⟩ := Transaction.bare_eq_iff.mp same
  refine ⟨?_, ⟨_, draft.isChange_change spent, outputs⟩, payload, lockHeight⟩
  rw [Transaction.map_inputs_of_bare _ (fun _ => rfl) same, unsigned, List.map_map]
  rfl

theorem sum_spending (draft : Draft S) (fees : Fees) :
    Amount.checkedSum [draft.totalOutputs, fees.transaction, fees.payload] =
      Amount.checked (draft.spending fees) := by
  rw [Amount.checkedSum_eq, spending, Nat.add_assoc]
  rfl

/-- Everything that signing can do. -/
theorem sign_cases (draft : Draft S) (kind : OutputType) (fees : Fees) (entropy : Entropy) :
    (UInt64.size ≤ draft.spending fees ∧
      draft.sign kind fees entropy = .error (.amount .overflow)) ∨
    (draft.spending fees < UInt64.size ∧ draft.outputs = [] ∧
      draft.totalInputs.toNat ≤ draft.spending fees ∧
      draft.sign kind fees entropy = .error .noOutput) ∨
    (draft.spending fees < UInt64.size ∧
      (draft.outputs ≠ [] ∨ draft.spending fees < draft.totalInputs.toNat) ∧
      ∃ tx, draft.sign kind fees entropy = .ok tx ∧
        draft.Settles kind (draft.spending fees) tx) := by
  rw [sign, sum_spending]
  cases summed : Amount.checked (draft.spending fees) with
  | error error =>
    obtain ⟨large, rfl⟩ := Amount.checked_error_iff.mp summed
    exact .inl ⟨large, rfl⟩
  | ok spent =>
    have exact := Amount.checked_ok_iff.mp summed
    have fits : draft.spending fees < UInt64.size := exact ▸ spent.toNat_lt_size
    have given := draft.isChange_change spent
    rw [exact] at given
    right
    -- There is no output at all just when nothing is paid and nothing is left.
    by_cases empty : (draft.unsigned kind spent).outputs = []
    · left
      obtain ⟨noChange, noOutput⟩ := List.append_eq_nil_iff.mp empty
      refine ⟨fits, List.map_eq_nil_iff.mp noOutput, ?_, ?_⟩
      · have nothing := given.eq_nil_iff.mp noChange
        omega
      · exact if_pos (List.isEmpty_iff.mpr empty)
    · right
      obtain ⟨tx, signed, same⟩ := (draft.unsigned kind spent).signed_ok
        ((draft.unsigned kind spent).inputs.map fun _ => draft.owner) entropy
      refine ⟨fits, ?_, tx, ?_, exact ▸ settles_of_bare same⟩
      · by_cases noOutput : draft.outputs = []
        · right
          have changed : draft.change spent ≠ [] := fun noChange =>
            empty (List.append_eq_nil_iff.mpr ⟨noChange, by rw [noOutput, List.map_nil]⟩)
          have something := mt given.eq_nil_iff.mpr changed
          omega
        · exact .inl noOutput
      · refine (if_neg (mt List.isEmpty_iff.mp empty)).trans ?_
        rw [signed]
        rfl

section Outcomes

variable {draft : Draft S} {kind : OutputType} {fees : Fees} {entropy : Entropy}

theorem sign_overflow_iff : draft.sign kind fees entropy = .error (.amount .overflow) ↔
    UInt64.size ≤ draft.spending fees := by
  rcases draft.sign_cases kind fees entropy with
    ⟨large, failed⟩ | ⟨fits, -, -, failed⟩ | ⟨fits, -, tx, returned, -⟩
  · exact ⟨fun _ => large, fun _ => failed⟩
  · rw [failed]
    exact ⟨nofun, fun large => absurd fits (Nat.not_lt.mpr large)⟩
  · rw [returned]
    exact ⟨nofun, fun large => absurd fits (Nat.not_lt.mpr large)⟩

theorem sign_noOutput_iff : draft.sign kind fees entropy = .error .noOutput ↔
    draft.spending fees < UInt64.size ∧ draft.outputs = [] ∧
      draft.totalInputs.toNat ≤ draft.spending fees := by
  rcases draft.sign_cases kind fees entropy with
    ⟨large, failed⟩ | ⟨fits, unpaid, short, failed⟩ | ⟨-, paid, tx, returned, -⟩
  · rw [failed]
    exact ⟨nofun, fun ⟨fits, _⟩ => absurd fits (Nat.not_lt.mpr large)⟩
  · exact ⟨fun _ => ⟨fits, unpaid, short⟩, fun _ => failed⟩
  · rw [returned]
    refine ⟨nofun, fun ⟨_, unpaid, short⟩ => ?_⟩
    rcases paid with paid | left
    · exact absurd unpaid paid
    · exact absurd left (Nat.not_lt.mpr short)

theorem sign_ne_key (error : KeyError) : draft.sign kind fees entropy ≠ .error (.key error) := by
  rcases draft.sign_cases kind fees entropy with
    ⟨-, failed⟩ | ⟨-, -, -, failed⟩ | ⟨-, -, tx, returned, -⟩
  · rw [failed]
    nofun
  · rw [failed]
    nofun
  · rw [returned]
    nofun

theorem sign_settles (draft : Draft S) (kind : OutputType) (entropy : Entropy)
    (fits : draft.spending fees < UInt64.size)
    (paid : draft.outputs ≠ [] ∨ draft.spending fees < draft.totalInputs.toNat) :
    ∃ tx, draft.sign kind fees entropy = .ok tx ∧
      draft.Settles kind (draft.spending fees) tx := by
  rcases draft.sign_cases kind fees entropy with
    ⟨large, -⟩ | ⟨-, unpaid, short, -⟩ | ⟨-, -, settled⟩
  · exact absurd fits (Nat.not_lt.mpr large)
  · rcases paid with paid | left
    · exact absurd unpaid paid
    · exact absurd left (Nat.not_lt.mpr short)
  · exact settled

end Outcomes

section Balanced

variable {draft : Draft S}

theorem Balanced.spending_of_noOutput (balanced : draft.Balanced) (none : draft.outputs = [])
    (fees : Fees) : draft.spending fees = fees.transaction.toNat + fees.payload.toNat := by
  have zero := balanced.outputs
  rw [none] at zero
  rw [spending, zero, List.map_nil, Amount.total_nil, Nat.zero_add]

variable {kind : OutputType} {spent : Nat} {tx : Transaction}

/-- Nothing is created and nothing is lost. -/
theorem Settles.total (settled : draft.Settles kind spent tx) (balanced : draft.Balanced) :
    Amount.total (tx.outputs.map Output.value) =
      draft.totalInputs.toNat - spent + draft.totalOutputs.toNat := by
  obtain ⟨change, given, outputs⟩ := settled.outputs
  rw [outputs, List.map_append, Amount.total_append, given.total, balanced.outputs, List.map_map]
  rfl

theorem Settles.totalOutput (settled : draft.Settles kind spent tx) (balanced : draft.Balanced)
    (counted : draft.totalOutputs.toNat ≤ spent) :
    ∃ total, tx.totalOutput = .ok total ∧
      total.toNat = Amount.total (tx.outputs.map Output.value) ∧
      total.toNat ≤ draft.totalInputs.toNat := by
  have exact := settled.total balanced
  have covered := balanced.covered
  have within := draft.totalInputs.toNat_lt_size
  have sum : (UInt64.ofNat (Amount.total (tx.outputs.map Output.value))).toNat =
      Amount.total (tx.outputs.map Output.value) := UInt64.toNat_ofNat_of_lt' (by omega)
  refine ⟨_, ?_, sum, by omega⟩
  rw [Transaction.totalOutput, Amount.checkedSum_eq]
  exact Amount.checked_ok_iff.mpr sum

end Balanced

/-- What comes of the accepted edits of a history when a draft is signed for so much in fees. -/
structure Accounts (owner : KeyPair S) (history : List Edit) (kind : OutputType) (charged : Nat)
    (tx : Transaction) : Prop where
  inputs : tx.inputs.map (fun input => (input.utxo, input.unlockAge)) =
    (((ofOwner owner).accepted history).flatMap Edit.inputs).map fun (utxo, _) => (utxo, 0)
  payload : tx.payload = (history.filterMap Edit.payload?).getLastD []
  lockHeight : tx.lockHeight = (history.filterMap Edit.lockHeight?).getLastD 0
  outputs : ∃ change,
    IsChange (.ofPublicKey owner.publicKey) ((ofHistory owner history).totalInputs.toNat -
      ((ofHistory owner history).totalOutputs.toNat + charged)) change ∧
    tx.outputs = change ++ (((ofOwner owner).accepted history).flatMap Edit.outputs).map
      fun (lock, amount) => ⟨kind, amount, lock⟩
  covered : (ofHistory owner history).totalOutputs.toNat ≤
    (ofHistory owner history).totalInputs.toNat
  conserved : ∃ total, tx.totalOutput = .ok total ∧
    total.toNat = Amount.total (tx.outputs.map Output.value) ∧
    total.toNat ≤ (ofHistory owner history).totalInputs.toNat ∧
    (ofHistory owner history).totalInputs.toNat - total.toNat =
      min charged ((ofHistory owner history).totalInputs.toNat -
        (ofHistory owner history).totalOutputs.toNat)

/-- What signing makes of a draft, whatever was asked of the draft before. -/
theorem sign_accounts (owner : KeyPair S) (history : List Edit) (kind : OutputType) (fees : Fees)
    (entropy : Entropy) :
    let draft := ofHistory owner history
    let taken := (ofOwner owner).accepted history
    let charged := fees.transaction.toNat + fees.payload.toNat
    let result := draft.sign kind fees entropy
    draft.totalInputs.toNat = Amount.total ((taken.flatMap Edit.inputs).map Prod.snd) ∧
    draft.totalOutputs.toNat = Amount.total ((taken.flatMap Edit.outputs).map Prod.snd) ∧
    (result = .error (.amount .overflow) ↔ UInt64.size ≤ draft.totalOutputs.toNat + charged) ∧
    (result = .error .noOutput ↔ draft.totalOutputs.toNat + charged < UInt64.size ∧
      taken.flatMap Edit.outputs = [] ∧ draft.totalInputs.toNat ≤ charged) ∧
    (∀ error, result ≠ .error (.key error)) ∧
    (draft.totalOutputs.toNat + charged < UInt64.size →
      taken.flatMap Edit.outputs ≠ [] ∨ charged < draft.totalInputs.toNat →
      ∃ tx, result = .ok tx ∧ Accounts owner history kind charged tx) := by
  intro draft taken charged result
  have balanced : draft.Balanced := balanced_ofHistory owner history
  have records : (ofOwner owner).Records history draft := records_foldl _ history
  have inputs : draft.inputs = (taken.flatMap Edit.inputs).map fun (utxo, amount) =>
    ({ utxo := utxo }, amount) := records.inputs
  have outputs : draft.outputs = (taken.flatMap Edit.outputs).map fun (lock, amount) =>
    ⟨.payment, amount, lock⟩ := records.outputs
  have spent : draft.spending fees = draft.totalOutputs.toNat + charged := Nat.add_assoc _ _ _
  have unpaid_iff : draft.outputs = [] ↔ taken.flatMap Edit.outputs = [] := by
    rw [outputs, List.map_eq_nil_iff]
  -- Without an output only the fees have to be covered.
  have unpaid (none : draft.outputs = []) : draft.totalOutputs.toNat + charged = charged :=
    spent.symm.trans (balanced.spending_of_noOutput none fees)
  refine ⟨?_, ?_, ?_, ?_, sign_ne_key, fun fits some => ?_⟩
  · rw [balanced.inputs, inputs, List.map_map]
    rfl
  · rw [balanced.outputs, outputs, List.map_map]
    rfl
  · rw [← spent]
    exact sign_overflow_iff
  · rw [← unpaid_iff]
    refine sign_noOutput_iff.trans ?_
    rw [spent]
    refine and_congr_right fun _ => and_congr_right fun none => ?_
    rw [unpaid none]
  · have needed : draft.outputs ≠ [] ∨ draft.spending fees < draft.totalInputs.toNat := by
      by_cases none : draft.outputs = []
      · right
        rw [spent, unpaid none]
        exact some.resolve_left (not_not_intro (unpaid_iff.mp none))
      · exact .inl none
    obtain ⟨tx, returned, settled⟩ := draft.sign_settles kind entropy (spent ▸ fits) needed
    rw [spent] at settled
    have counted : draft.totalOutputs.toNat ≤ draft.totalOutputs.toNat + charged :=
      Nat.le_add_right _ _
    refine ⟨tx, returned, ?_, ?_, ?_, ?_, balanced.covered, ?_⟩
    · rw [settled.inputs, inputs, List.map_map]
      rfl
    · rw [settled.payload, records.payload]
      rfl
    · rw [settled.lockHeight, records.lockHeight]
      rfl
    · obtain ⟨change, given, paid⟩ := settled.outputs
      rw [outputs, List.map_map] at paid
      rw [records.owner] at given
      exact ⟨change, given, paid⟩
    · obtain ⟨total, summed, exact, within⟩ := settled.totalOutput balanced counted
      have covered := balanced.covered
      have conserved := exact.trans (settled.total balanced)
      refine ⟨total, summed, exact, within, ?_⟩
      change draft.totalInputs.toNat - total.toNat =
        min charged (draft.totalInputs.toNat - draft.totalOutputs.toNat)
      omega

end UtxoLedger.Draft
