import UtxoLedger.Proofs.Draft.History
import UtxoLedger.Proofs.InPlace

/-!
# Calls on a draft keep its books

A draft is kept in place: a call stores a new total first and records what it is for afterwards.
Whether a call is refused, and why, can be read off the amounts recorded so far. A refused call has
stored nothing, so after any calls the totals are the sums of what is recorded.
-/
namespace UtxoLedger.Draft

open InPlace

variable {S : SignatureScheme}

/-- An edit of a draft in place. What is stored before an error stays stored. -/
def Edit.call : Edit → EStateM DraftError (Draft S) Unit
  | .addInput utxo amount => do
    let draft ← get
    let total ← MonadExcept.ofExcept
      ((Amount.checkedAdd draft.totalInputs amount).mapError .amount)
    modify fun draft => { draft with totalInputs := total }
    modify fun draft => { draft with inputs := draft.inputs ++ [({ utxo }, amount)] }
  | .addOutput lock amount => do
    if amount = 0 then throw (.invalidAmount amount)
    let draft ← get
    let total ← MonadExcept.ofExcept
      ((Amount.checkedAdd draft.totalOutputs amount).mapError .amount)
    if total > draft.totalInputs then throw (.insufficientFunds total draft.totalInputs)
    modify fun draft => { draft with totalOutputs := total }
    modify fun draft => { draft with outputs := draft.outputs ++ [⟨.payment, amount, lock⟩] }
  | .assignPayload payload => modify fun draft => { draft with payload }
  | .assignLockHeight lockHeight => modify fun draft => { draft with lockHeight }

/-- The draft after calls, of which some may have been refused. -/
def ofCalls (owner : KeyPair S) (history : List Edit) : Draft S :=
  history.foldl (fun draft step => leaves step.call draft) (ofOwner owner)

theorem call_realizes (draft : Draft S) (step : Edit) :
    Realizes step.call draft ((draft.edit step).map fun next => ((), next)) := by
  cases step with
  | addInput utxo amount =>
    rw [Draft.edit, addInput]
    change Realizes (MonadExcept.ofExcept
      ((Amount.checkedAdd draft.totalInputs amount).mapError DraftError.amount) >>= _) draft _
    cases Amount.checkedAdd draft.totalInputs amount with
    | error error => rfl
    | ok total => rfl
  | addOutput lock amount =>
    rw [Draft.edit, addOutput, Edit.call]
    by_cases zero : amount = 0
    · rw [if_pos zero, if_pos zero]
      rfl
    · rw [if_neg zero, if_neg zero]
      change Realizes (MonadExcept.ofExcept
        ((Amount.checkedAdd draft.totalOutputs amount).mapError DraftError.amount) >>= _) draft _
      cases Amount.checkedAdd draft.totalOutputs amount with
      | error error => rfl
      | ok total =>
        -- What is left of either side is the same test.
        change Realizes (if total > draft.totalInputs then _ else _) draft
          (Except.map _ (if total > draft.totalInputs then _ else _))
        by_cases short : total > draft.totalInputs
        · rw [if_pos short, if_pos short]
          rfl
        · rw [if_neg short, if_neg short]
          rfl
  | assignPayload payload => rfl
  | assignLockHeight lockHeight => rfl

/-- What the recorded inputs are worth. -/
def funds (draft : Draft S) : Nat :=
  Amount.total (draft.inputs.map Prod.snd)

/-- What the recorded outputs pay. -/
def payments (draft : Draft S) : Nat :=
  Amount.total (draft.outputs.map Output.value)

/-- The calls that are refused and the error of each. No assignment is among them. -/
inductive Refuses (draft : Draft S) : Edit → DraftError → Prop
  | input {utxo : Digest} {amount : Amount} (large : UInt64.size ≤ draft.funds + amount.toNat) :
      Refuses draft (.addInput utxo amount) (.amount .overflow)
  | nothing {lock : Lock} : Refuses draft (.addOutput lock 0) (.invalidAmount 0)
  | output {lock : Lock} {amount : Amount} (nonzero : amount ≠ 0)
      (large : UInt64.size ≤ draft.payments + amount.toNat) :
      Refuses draft (.addOutput lock amount) (.amount .overflow)
  | uncovered {lock : Lock} {amount outputs inputs : Amount} (nonzero : amount ≠ 0)
      (outputs_eq : outputs.toNat = draft.payments + amount.toNat)
      (inputs_eq : inputs.toNat = draft.funds) (short : inputs < outputs) :
      Refuses draft (.addOutput lock amount) (.insufficientFunds outputs inputs)

section Refusals

variable {draft : Draft S} {error : DraftError}

theorem Balanced.refuses_of_edit (balanced : draft.Balanced) {step : Edit}
    (refused : draft.edit step = .error error) : draft.Refuses step error := by
  have funded : draft.totalInputs.toNat = draft.funds := balanced.inputs
  have paid : draft.totalOutputs.toNat = draft.payments := balanced.outputs
  cases step with
  | addInput utxo amount =>
    rw [Draft.edit, addInput] at refused
    cases summed : Amount.checkedAdd draft.totalInputs amount with
    | error problem =>
      obtain ⟨large, rfl⟩ := Amount.checkedAdd_error_iff.mp summed
      rw [summed] at refused
      cases refused
      exact .input (funded ▸ large)
    | ok total =>
      rw [summed] at refused
      cases refused
  | addOutput lock amount =>
    rw [Draft.edit, addOutput] at refused
    split at refused
    next zero =>
      cases refused
      subst zero
      exact .nothing
    next nonzero =>
      cases summed : Amount.checkedAdd draft.totalOutputs amount with
      | error problem =>
        obtain ⟨large, rfl⟩ := Amount.checkedAdd_error_iff.mp summed
        rw [summed] at refused
        cases refused
        exact .output nonzero (paid ▸ large)
      | ok total =>
        have exact := Amount.checkedAdd_ok_iff.mp summed
        rw [paid] at exact
        rw [summed] at refused
        change (if total > draft.totalInputs then _ else _) = _ at refused
        split at refused
        next short =>
          cases refused
          exact .uncovered nonzero exact funded short
        next => cases refused
  | assignPayload payload => cases refused
  | assignLockHeight lockHeight => cases refused

theorem Balanced.edit_of_refuses (balanced : draft.Balanced) {step : Edit}
    (refused : draft.Refuses step error) : draft.edit step = .error error := by
  have funded : draft.totalInputs.toNat = draft.funds := balanced.inputs
  have paid : draft.totalOutputs.toNat = draft.payments := balanced.outputs
  cases refused with
  | input large =>
    rw [Draft.edit, addInput, Amount.checkedAdd_error_iff.mpr ⟨funded ▸ large, rfl⟩]
    rfl
  | nothing => rfl
  | output nonzero large =>
    rw [Draft.edit, addOutput, if_neg nonzero, Amount.checkedAdd_error_iff.mpr ⟨paid ▸ large, rfl⟩]
    rfl
  | uncovered nonzero outputs inputs short =>
    -- The reported total is the cached one, because both are exact.
    rw [← funded, UInt64.toNat_inj] at inputs
    rw [← paid, ← Amount.checkedAdd_ok_iff] at outputs
    subst inputs
    rw [Draft.edit, addOutput, if_neg nonzero, outputs]
    exact if_pos short

end Refusals

theorem ofCalls_eq (owner : KeyPair S) (history : List Edit) :
    ofCalls owner history = ofHistory owner history := by
  have same : (fun (draft : Draft S) step => leaves step.call draft) = edited := by
    funext draft step
    rw [(draft.call_realizes step).leaves_eq, edited]
    cases draft.edit step <;> rfl
  rw [ofCalls, ofHistory, same]

/-- After any calls the books balance. The next call is refused exactly for its cause and then
changes nothing; otherwise it records what it is for. -/
theorem calls_keep_books (owner : KeyPair S) (history : List Edit) :
    let draft := ofHistory owner history
    ofCalls owner history = draft ∧
    draft.Balanced ∧
    ∀ step, Realizes step.call draft ((draft.edit step).map fun next => ((), next)) ∧
      (∀ error, draft.edit step = .error error ↔ draft.Refuses step error) ∧
      ∀ next, draft.edit step = .ok next → draft.Extends step next := by
  intro draft
  have balanced : draft.Balanced := balanced_ofHistory owner history
  refine ⟨ofCalls_eq owner history, balanced, fun step => ⟨draft.call_realizes step, ?_, ?_⟩⟩
  · intro error
    exact ⟨balanced.refuses_of_edit, balanced.edit_of_refuses⟩
  · intro next done
    exact extends_of_edit done

end UtxoLedger.Draft
