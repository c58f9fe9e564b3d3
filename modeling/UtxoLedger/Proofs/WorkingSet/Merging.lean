import UtxoLedger.Proofs.WorkingSet.Coherence

/-!
# What is found in a working set

An entry is added only where its key is not held yet. So what is found under a key is the entry
that came first under it, whether it was held already or is among those added.
-/
namespace UtxoLedger.WorkingSet

variable {set : WorkingSet}

theorem Coherent.find?_isSome_iff (coherent : set.Coherent) {key : Digest} :
    (set.find? key).isSome = true ↔ set.contains key = true := by
  rw [coherent.contains_iff, find?, List.find?_isSome]
  simp

theorem Coherent.find?_insert (coherent : set.Coherent) (entry : Unspent) (key : Digest) :
    (set.insert entry).find? key =
      (set.find? key).or ([entry].find? fun other => other.utxo = key) := by
  unfold WorkingSet.insert
  split
  next held =>
    -- An entry that is dropped is not missed, because its key is held.
    by_cases same : entry.utxo = key
    · have found := coherent.find?_isSome_iff.mpr (same ▸ held)
      rw [Option.or_of_isSome found]
    · rw [List.find?_cons_of_neg (by simpa using same), List.find?_nil, Option.or_none]
  next => exact List.find?_append

theorem Coherent.find?_add (coherent : set.Coherent) (offered : List Unspent) (key : Digest) :
    (set.add offered).find? key =
      (set.find? key).or (offered.find? fun entry => entry.utxo = key) := by
  induction offered generalizing set with
  | nil => rw [List.find?_nil, Option.or_none]; rfl
  | cons entry rest ih =>
    rw [← List.singleton_append, List.find?_append, ← Option.or_assoc, ← coherent.find?_insert]
    exact ih (coherent.insert entry)

theorem find?_ofList (entries : List Unspent) (key : Digest) :
    (ofList entries).find? key = entries.find? fun entry => entry.utxo = key :=
  coherent_empty.find?_add entries key

end UtxoLedger.WorkingSet
