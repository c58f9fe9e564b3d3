import UtxoLedger.Draft
import UtxoLedger.Proofs.Amount.Exact

/-!
# Histories of drafts

A draft is edited until it is signed; edits may be refused, and a refused edit changes
nothing. The draft after any history records exactly the accepted edits, in order, and its
books balance: the totals beside the lists are the exact sums, and outputs stay covered.
-/
namespace UtxoLedger.Draft

variable {S : SignatureScheme}

inductive Edit
  | addInput (utxo : Digest) (amount : Amount)
  | addOutput (lock : Lock) (amount : Amount)
  | assignPayload (payload : Bytes)
  | assignLockHeight (lockHeight : UInt64)

namespace Edit

def inputs : Edit → List (Digest × Amount)
  | .addInput utxo amount => [(utxo, amount)]
  | _ => []

def outputs : Edit → List (Lock × Amount)
  | .addOutput lock amount => [(lock, amount)]
  | _ => []

def payload? : Edit → Option Bytes
  | .assignPayload payload => some payload
  | _ => none

def lockHeight? : Edit → Option UInt64
  | .assignLockHeight lockHeight => some lockHeight
  | _ => none

end Edit

def edit (draft : Draft S) : Edit → Except DraftError (Draft S)
  | .addInput utxo amount => draft.addInput utxo amount
  | .addOutput lock amount => draft.addOutput lock amount
  | .assignPayload payload => .ok (draft.assignPayload payload)
  | .assignLockHeight lockHeight => .ok (draft.assignLockHeight lockHeight)

/-- A refused edit leaves the draft as it was. -/
def edited (draft : Draft S) (step : Edit) : Draft S :=
  match draft.edit step with
  | .ok next => next
  | .error _ => draft

def ofHistory (owner : KeyPair S) (history : List Edit) : Draft S :=
  history.foldl edited (ofOwner owner)

/-- The edits of a history that are not refused. -/
def accepted (draft : Draft S) : List Edit → List Edit
  | [] => []
  | step :: rest =>
    match draft.edit step with
    | .ok next => step :: next.accepted rest
    | .error _ => draft.accepted rest

/-- What an accepted edit does to a draft. -/
structure Extends (draft : Draft S) (step : Edit) (next : Draft S) : Prop where
  owner : next.owner = draft.owner
  inputs : next.inputs =
    draft.inputs ++ step.inputs.map fun (utxo, amount) => ({ utxo := utxo }, amount)
  outputs : next.outputs =
    draft.outputs ++ step.outputs.map fun (lock, amount) => ⟨.payment, amount, lock⟩
  payload : next.payload = step.payload?.getD draft.payload
  lockHeight : next.lockHeight = step.lockHeight?.getD draft.lockHeight
  totalInputs : next.totalInputs.toNat =
    draft.totalInputs.toNat + Amount.total (step.inputs.map Prod.snd)
  totalOutputs : next.totalOutputs.toNat =
    draft.totalOutputs.toNat + Amount.total (step.outputs.map Prod.snd)
  positive : ∀ paid ∈ step.outputs, 0 < paid.2.toNat
  covered : draft.totalOutputs.toNat ≤ draft.totalInputs.toNat →
    next.totalOutputs.toNat ≤ next.totalInputs.toNat

theorem addInput_ok_iff {draft next : Draft S} {utxo : Digest} {amount : Amount} :
    draft.addInput utxo amount = .ok next ↔ ∃ total : Amount,
      total.toNat = draft.totalInputs.toNat + amount.toNat ∧
      next = { draft with
        inputs := draft.inputs ++ [({ utxo := utxo }, amount)]
        totalInputs := total } := by
  simp only [addInput, Except.bind_ok_iff, Except.mapError_ok_iff, Amount.checkedAdd_ok_iff]
  constructor
  · rintro ⟨total, sum, returned⟩
    cases returned
    exact ⟨total, sum, rfl⟩
  · rintro ⟨total, sum, rfl⟩
    exact ⟨total, sum, rfl⟩

theorem addOutput_ok_iff {draft next : Draft S} {lock : Lock} {amount : Amount} :
    draft.addOutput lock amount = .ok next ↔ 0 < amount.toNat ∧ ∃ total : Amount,
      total.toNat = draft.totalOutputs.toNat + amount.toNat ∧
      total.toNat ≤ draft.totalInputs.toNat ∧
      next = { draft with
        outputs := draft.outputs ++ [⟨.payment, amount, lock⟩]
        totalOutputs := total } := by
  unfold addOutput
  split
  next zero => simp [zero]
  next positive =>
    have nonzero := Amount.toNat_pos_iff.mpr positive
    simp only [Except.bind_ok_iff, Except.mapError_ok_iff, Amount.checkedAdd_ok_iff, nonzero,
      true_and]
    refine exists_congr fun total => and_congr_right fun _ => ?_
    split
    next above =>
      have large := UInt64.lt_iff_toNat_lt.mp above
      simp; omega
    next within =>
      have small := UInt64.le_iff_toNat_le.mp (UInt64.not_lt.mp within)
      simp [small, eq_comm]

theorem extends_of_edit {draft next : Draft S} {step : Edit} (done : draft.edit step = .ok next) :
    draft.Extends step next := by
  cases step with
  | addInput utxo amount =>
    obtain ⟨total, sum, rfl⟩ := addInput_ok_iff.mp done
    constructor <;> simp [Edit.inputs, Edit.outputs, Edit.payload?, Edit.lockHeight?, sum]
    omega
  | addOutput lock amount =>
    obtain ⟨positive, total, sum, within, rfl⟩ := addOutput_ok_iff.mp done
    constructor <;> simp [Edit.inputs, Edit.outputs, Edit.payload?, Edit.lockHeight?, sum, positive]
    omega
  | assignPayload payload =>
    cases done
    constructor <;> simp [assignPayload, Edit.inputs, Edit.outputs, Edit.payload?, Edit.lockHeight?]
  | assignLockHeight lockHeight =>
    cases done
    constructor <;>
      simp [assignLockHeight, Edit.inputs, Edit.outputs, Edit.payload?, Edit.lockHeight?]

/-- Assignments are never refused. -/
private theorem assigns_nothing_of_refused {draft : Draft S} {step : Edit} {error : DraftError}
    (refused : draft.edit step = .error error) :
    step.payload? = none ∧ step.lockHeight? = none := by
  cases step with
  | addInput => exact ⟨rfl, rfl⟩
  | addOutput => exact ⟨rfl, rfl⟩
  | assignPayload => cases refused
  | assignLockHeight => cases refused

/-- An assignment survives only where nothing is assigned later. -/
private theorem getLastD_filterMap_cons {α : Type} (assigned? : Edit → Option α) (step : Edit)
    (rest : List Edit) (start : α) :
    ((step :: rest).filterMap assigned?).getLastD start =
      (rest.filterMap assigned?).getLastD ((assigned? step).getD start) := by
  cases assigned : assigned? step with
  | none =>
    rw [List.filterMap_cons_none assigned]
    rfl
  | some value =>
    rw [List.filterMap_cons_some assigned, List.getLastD_cons]
    rfl

/-- What a history leaves behind in a draft: the accepted inputs and outputs in order, and the
last assignments. -/
structure Records (draft : Draft S) (history : List Edit) (final : Draft S) : Prop where
  owner : final.owner = draft.owner
  inputs : final.inputs = draft.inputs ++
    ((draft.accepted history).flatMap Edit.inputs).map fun (utxo, amount) =>
      ({ utxo := utxo }, amount)
  outputs : final.outputs = draft.outputs ++
    ((draft.accepted history).flatMap Edit.outputs).map fun (lock, amount) =>
      ⟨.payment, amount, lock⟩
  payload : final.payload = (history.filterMap Edit.payload?).getLastD draft.payload
  lockHeight : final.lockHeight = (history.filterMap Edit.lockHeight?).getLastD draft.lockHeight

theorem records_foldl (draft : Draft S) (history : List Edit) :
    draft.Records history (history.foldl edited draft) := by
  induction history generalizing draft with
  | nil => constructor <;> simp [accepted]
  | cons step rest ih =>
    cases done : draft.edit step with
    | error error =>
      -- A refused edit leaves the draft alone, and the accepted edits too.
      obtain ⟨noPayload, noHeight⟩ := assigns_nothing_of_refused done
      have unchanged : draft.edited step = draft := by rw [edited, done]
      have taken : draft.accepted (step :: rest) = draft.accepted rest := by rw [accepted, done]
      obtain ⟨owner, inputs, outputs, payload, lockHeight⟩ := ih draft
      constructor
      · rw [List.foldl_cons, unchanged, owner]
      · rw [List.foldl_cons, unchanged, inputs, taken]
      · rw [List.foldl_cons, unchanged, outputs, taken]
      · rw [List.foldl_cons, unchanged, payload, getLastD_filterMap_cons, noPayload]
        rfl
      · rw [List.foldl_cons, unchanged, lockHeight, getLastD_filterMap_cons, noHeight]
        rfl
    | ok next =>
      -- An accepted edit extends the draft, and the rest of the history starts from there.
      have extended := extends_of_edit done
      have moved : draft.edited step = next := by rw [edited, done]
      obtain ⟨owner, inputs, outputs, payload, lockHeight⟩ := ih next
      have taken : draft.accepted (step :: rest) = step :: next.accepted rest := by
        rw [accepted, done]
      constructor
      · rw [List.foldl_cons, moved, owner, extended.owner]
      · rw [List.foldl_cons, moved, inputs, extended.inputs, taken, List.flatMap_cons,
          List.map_append, List.append_assoc]
      · rw [List.foldl_cons, moved, outputs, extended.outputs, taken, List.flatMap_cons,
          List.map_append, List.append_assoc]
      · rw [List.foldl_cons, moved, payload, extended.payload, getLastD_filterMap_cons]
      · rw [List.foldl_cons, moved, lockHeight, extended.lockHeight, getLastD_filterMap_cons]

/-- The books of a draft: the totals are the sums of what is recorded, what is paid is covered,
and nothing is paid for nothing. -/
structure Balanced (draft : Draft S) : Prop where
  inputs : draft.totalInputs.toNat = Amount.total (draft.inputs.map Prod.snd)
  outputs : draft.totalOutputs.toNat = Amount.total (draft.outputs.map Output.value)
  covered : draft.totalOutputs.toNat ≤ draft.totalInputs.toNat
  positive : ∀ output ∈ draft.outputs, 0 < output.value.toNat

theorem balanced_ofOwner (owner : KeyPair S) : (ofOwner owner).Balanced where
  inputs := rfl
  outputs := rfl
  covered := Nat.le_refl _
  positive := fun _ member => absurd member List.not_mem_nil

theorem Balanced.edit {draft next : Draft S} {step : Edit} (balanced : draft.Balanced)
    (done : draft.edit step = .ok next) : next.Balanced := by
  have extended := extends_of_edit done
  refine ⟨?_, ?_, extended.covered balanced.covered, fun output member => ?_⟩
  · rw [extended.totalInputs, balanced.inputs, extended.inputs, List.map_append,
      Amount.total_append, List.map_map]
    rfl
  · rw [extended.totalOutputs, balanced.outputs, extended.outputs, List.map_append,
      Amount.total_append, List.map_map]
    rfl
  · rw [extended.outputs] at member
    rcases List.mem_append.mp member with old | new
    · exact balanced.positive output old
    · obtain ⟨paid, recorded, rfl⟩ := List.mem_map.mp new
      exact extended.positive paid recorded

theorem Balanced.foldl {draft : Draft S} (balanced : draft.Balanced) (history : List Edit) :
    (history.foldl edited draft).Balanced := by
  induction history generalizing draft with
  | nil => exact balanced
  | cons step rest ih =>
    refine ih ?_
    unfold edited
    split
    next next done => exact balanced.edit done
    next => exact balanced

theorem balanced_ofHistory (owner : KeyPair S) (history : List Edit) :
    (ofHistory owner history).Balanced :=
  (balanced_ofOwner owner).foldl history

end UtxoLedger.Draft
