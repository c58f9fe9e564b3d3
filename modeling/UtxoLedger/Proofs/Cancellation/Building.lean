import Mathlib.Data.List.Forall2
import UtxoLedger.Cancellation
import UtxoLedger.Proofs.Transaction.Signing

/-!
# When a cancellation is built

A cancellation is built exactly when nothing stands in its way: every input has a record,
every record is a payment to one of the key pairs, and the fee leaves something of each.
What is built is then determined up to the signatures.
-/
namespace UtxoLedger

/-- A partial traversal that succeeds is pointwise success. -/
theorem mapM_some_iff {α β : Type} (f : α → Option β) (xs : List α) (ys : List β) :
    xs.mapM f = some ys ↔ List.Forall₂ (fun x y => f x = some y) xs ys := by
  induction xs generalizing ys with
  | nil => cases ys <;> simp
  | cons x xs ih =>
    rw [List.mapM_cons]
    cases head : f x with
    | none => cases ys <;> simp [head]
    | some y =>
      cases tail : xs.mapM f with
      | none => cases ys <;> simp [← ih, tail]
      | some rest => cases ys <;> simp [← ih, tail, head]

theorem mapM_none_iff {α β : Type} (f : α → Option β) (xs : List α) :
    xs.mapM f = none ↔ ∃ x ∈ xs, f x = none := by
  induction xs with
  | nil => simp
  | cons x xs ih =>
    rw [List.mapM_cons]
    cases head : f x with
    | none => simp [head]
    | some y =>
      cases tail : xs.mapM f with
      | none => simpa [head, tail] using ih
      | some rest => simpa [head, tail] using ih

namespace Cancellation

variable {S : SignatureScheme}

/-- The first of the records that has the key of the input. -/
def FirstRecord (records : List Unspent) (input : Input) (entry : Unspent) : Prop :=
  ∃ before after, records = before ++ entry :: after ∧ entry.utxo = input.utxo ∧
    ∀ other ∈ before, other.utxo ≠ input.utxo

theorem record?_eq_some_iff {records : List Unspent} {input : Input} {entry : Unspent} :
    record? records input = some entry ↔ FirstRecord records input entry := by
  rw [record?, List.find?_eq_some_iff_append]
  constructor
  · rintro ⟨found, before, after, split, absent⟩
    exact ⟨before, after, split, of_decide_eq_true found, by simpa using absent⟩
  · rintro ⟨before, after, split, found, absent⟩
    exact ⟨decide_eq_true found, before, after, split, by simpa using absent⟩

theorem FirstRecord.member {records : List Unspent} {input : Input} {entry : Unspent}
    (first : FirstRecord records input entry) : entry ∈ records := by
  obtain ⟨before, after, rfl, -, -⟩ := first
  exact List.mem_append_right _ List.mem_cons_self

/-- Nothing stands in the way of a cancellation that spends these records with these signers for
this fee. -/
structure Approved (tx : Transaction) (records : List Unspent) (keys : List (KeyPair S))
    (policy : FeePolicy) (spent : List Unspent) (signers : List (KeyPair S)) (fee : Amount) :
    Prop where
  recorded : List.Forall₂ (FirstRecord records) tx.inputs spent
  paid : ∀ entry ∈ spent, entry.kind = .payment
  singleKey : ∀ entry ∈ spent, entry.lock.isSingleKey = true
  owned : List.Forall₂ (fun entry pair => signer? keys entry = some pair) spent signers
  priced : totalFee policy tx = .ok fee
  covered : ∀ share ∈ spent.zip (charges fee spent.length), share.2.toNat < share.1.amount.toNat

theorem found_iff {records : List Unspent} {inputs : List Input} {spent : List Unspent} :
    (inputs.map (record? records)).mapM id = some spent ↔
      List.Forall₂ (FirstRecord records) inputs spent := by
  rw [List.mapM_map, mapM_some_iff]
  simp only [Function.comp, id, record?_eq_some_iff]

section Recorded

variable {records : List Unspent} {inputs : List Input} {spent : List Unspent}
  (recorded : List.Forall₂ (FirstRecord records) inputs spent)
include recorded

theorem map_record? : inputs.map (record? records) = spent.map some := by
  induction recorded with
  | nil => rfl
  | cons first _ ih => rw [List.map_cons, List.map_cons, ih, record?_eq_some_iff.mpr first]

theorem mem_spent_iff {entry : Unspent} :
    entry ∈ spent ↔ ∃ input ∈ inputs, FirstRecord records input entry := by
  have same := congrArg (some entry ∈ ·) (map_record? recorded)
  simpa [List.mem_map, record?_eq_some_iff] using (iff_of_eq same).symm

theorem getElem?_spent_iff {place : Nat} {entry : Unspent} :
    spent[place]? = some entry ↔
      ∃ input, inputs[place]? = some input ∧ FirstRecord records input entry := by
  have same := congrArg (fun found => found[place]? = some (some entry)) (map_record? recorded)
  simpa [List.getElem?_map, record?_eq_some_iff] using (iff_of_eq same).symm

end Recorded

private theorem frozen_iff {records : List Unspent} {inputs : List Input} {spent : List Unspent}
    (recorded : List.Forall₂ (FirstRecord records) inputs spent) :
    ((inputs.map (record? records)).any fun entry? =>
      entry?.any fun entry => entry.kind = .freeze) = true ↔
        ¬∀ entry ∈ spent, entry.kind = .payment := by
  have thawed (entry : Unspent) : entry.kind = .freeze ↔ ¬entry.kind = .payment := by
    cases entry.kind <;> decide
  -- Frozen stake is looked for before it is known that every record was found.
  rw [map_record? recorded, List.any_map, List.any_eq_true]
  simp only [Function.comp, Option.any_some, decide_eq_true_eq, thawed, not_forall, exists_prop]

private theorem uncovered_iff {spent : List Unspent} {charged : List Amount} :
    ((spent.zip charged).any fun (entry, charge) => entry.amount ≤ charge) = true ↔
      ¬∀ share ∈ spent.zip charged, share.2.toNat < share.1.amount.toNat := by
  rw [List.any_eq_true]
  simp only [decide_eq_true_eq, UInt64.le_iff_toNat_le, not_forall, exists_prop, Nat.not_lt]

theorem build_ok_iff {tx : Transaction} {records : List Unspent} {keys : List (KeyPair S)}
    {policy : FeePolicy} {entropy : Entropy} {built : Cancellation} :
    build tx records keys policy entropy = .ok built ↔
      ∃ spent signers, Approved tx records keys policy spent signers built.fee ∧
        (unsigned spent (charges built.fee spent.length)).signed signers entropy = .ok built.tx ∧
        built.feePerOutput = share built.fee spent.length := by
  unfold build
  dsimp only
  constructor
  · intro returned
    -- The checks in their order; where one fails there is no cancellation.
    split at returned
    · cases returned
    next thawed =>
      split at returned
      · cases returned
      next spent found =>
        have recorded := found_iff.mp found
        split at returned
        · cases returned
        next singleKey =>
          split at returned
          · cases returned
          next signers owned =>
            split at returned
            · cases returned
            next fee priced =>
              split at returned
              · cases returned
              next covered =>
                split at returned
                · cases returned
                next signedTx signed =>
                  cases returned
                  refine ⟨spent, signers, ⟨recorded, ?_, ?_, (mapM_some_iff _ _ _).mp owned, priced,
                    ?_⟩, signed, rfl⟩
                  · exact not_not.mp (mt (frozen_iff recorded).mpr thawed)
                  · simpa using singleKey
                  · exact not_not.mp (mt uncovered_iff.mpr covered)
  · rintro ⟨spent, signers, approved, signed, perOutput⟩
    rw [if_neg (mt (frozen_iff approved.recorded).mp (not_not.mpr approved.paid)),
      found_iff.mpr approved.recorded]
    dsimp only
    rw [if_neg (by simpa using approved.singleKey), (mapM_some_iff _ _ _).mpr approved.owned]
    dsimp only
    rw [approved.priced]
    dsimp only
    rw [if_neg (mt uncovered_iff.mp (not_not.mpr approved.covered)), signed, ← perOutput]

section Approved

variable {tx : Transaction} {records : List Unspent} {keys : List (KeyPair S)}
  {policy : FeePolicy} {spent : List Unspent} {signers : List (KeyPair S)} {fee : Amount}

theorem Approved.builds (approved : Approved tx records keys policy spent signers fee)
    (entropy : Entropy) :
    ∃ proven, (unsigned spent (charges fee spent.length)).signed signers entropy = .ok proven ∧
      Cancellation.build tx records keys policy entropy =
        .ok ⟨proven, fee, share fee spent.length⟩ := by
  obtain ⟨proven, signed, -⟩ :=
    (unsigned spent (charges fee spent.length)).signed_ok signers entropy
  exact ⟨proven, signed, build_ok_iff.mpr ⟨spent, signers, approved, signed, rfl⟩⟩

theorem Approved.build (approved : Approved tx records keys policy spent signers fee)
    (entropy : Entropy) :
    ∃ built, Cancellation.build tx records keys policy entropy = .ok built ∧ built.fee = fee := by
  obtain ⟨proven, -, returned⟩ := approved.builds entropy
  exact ⟨_, returned, rfl⟩

end Approved

end Cancellation

end UtxoLedger
