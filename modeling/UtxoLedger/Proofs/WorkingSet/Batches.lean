import Mathlib.Data.List.Induction
import UtxoLedger.Proofs.WorkingSet.Merging
import UtxoLedger.Proofs.WorkingSet.Reachable

/-!
# Entries that arrive in batches

What is held stays where it is, and of the entries that are offered each is taken up that comes
first under a key that is not held. So it makes no difference how the offered entries are divided
into batches, and nothing comes of offering a key again, whatever else is offered with it.
-/
namespace UtxoLedger.WorkingSet

variable {set : WorkingSet}

/-- The place of an entry whose key neither the set nor an earlier place has. -/
def Admits (set : WorkingSet) (offered : List Unspent) (place : Nat) : Prop :=
  ∃ entry, offered[place]? = some entry ∧ (∀ held ∈ set.entries, held.utxo ≠ entry.utxo) ∧
    ∀ earlier ∈ offered.take place, earlier.utxo ≠ entry.utxo

@[simp] theorem add_nil (set : WorkingSet) : set.add [] = set := rfl

theorem add_append (set : WorkingSet) (offered more : List Unspent) :
    set.add (offered ++ more) = (set.add offered).add more :=
  List.foldl_append

theorem add_of_held {again : List Unspent}
    (held : ∀ entry ∈ again, set.contains entry.utxo = true) : set.add again = set := by
  induction again with
  | nil => rfl
  | cons entry rest ih =>
    rw [List.forall_mem_cons] at held
    have dropped : set.insert entry = set := if_pos held.1
    rw [add, List.foldl_cons, dropped]
    exact ih held.2

theorem Admits.lt_length {offered : List Unspent} {place : Nat}
    (admits : set.Admits offered place) : place < offered.length := by
  obtain ⟨entry, found, -⟩ := admits
  exact (List.getElem?_eq_some_iff.mp found).1

section Coherent

variable (coherent : set.Coherent)
include coherent

theorem Coherent.contains_add_iff {offered : List Unspent} {key : Digest} :
    (set.add offered).contains key = true ↔
      set.contains key = true ∨ ∃ entry ∈ offered, entry.utxo = key := by
  rw [← (coherent.add offered).find?_isSome_iff, coherent.find?_add, Option.isSome_or,
    Bool.or_eq_true, coherent.find?_isSome_iff, List.find?_isSome]
  simp

/-- One more entry is admitted behind the others, and no other place is affected. -/
theorem Coherent.admits_concat_iff {offered : List Unspent} {entry : Unspent} {place : Nat} :
    set.Admits (offered ++ [entry]) place ↔
      set.Admits offered place ∨
      place = offered.length ∧ (set.add offered).contains entry.utxo = false := by
  rcases Nat.lt_trichotomy place offered.length with before | rfl | behind
  · rw [Admits, Admits, List.getElem?_append_left before,
      List.take_append_of_le_length (Nat.le_of_lt before)]
    simp [Nat.ne_of_lt before]
  · -- In front of the last place stand all the others.
    rw [Bool.eq_false_iff, Ne, coherent.contains_add_iff, coherent.contains_iff, not_or]
    simp [Admits]
  · have outside (longer : List Unspent) (short : longer.length ≤ place) :
        ¬set.Admits longer place := fun admits => Nat.not_lt.mpr short admits.lt_length
    have first := outside (offered ++ [entry]) (by simp; omega)
    have second := outside offered (Nat.le_of_lt behind)
    simp [first, second, Nat.ne_of_gt behind]

/-- The places in order. -/
theorem Coherent.add_places (offered : List Unspent) :
    ∃ places : List Nat, places.Pairwise (· < ·) ∧
      (∀ place, place ∈ places ↔ set.Admits offered place) ∧
      (set.add offered).entries = set.entries ++ places.filterMap (offered[·]?) := by
  induction offered using List.reverseRecOn with
  | nil => exact ⟨[], .nil, by simp [Admits], by simp⟩
  | append_singleton offered entry ih =>
    obtain ⟨places, ordered, exact, entries⟩ := ih
    have inside (place : Nat) (member : place ∈ places) : place < offered.length :=
      ((exact place).mp member).lt_length
    have same : places.filterMap ((offered ++ [entry])[·]?) = places.filterMap (offered[·]?) :=
      List.filterMap_congr fun place member => List.getElem?_append_left (inside place member)
    rw [add_append]
    change ∃ places, _ ∧ _ ∧ ((set.add offered).insert entry).entries = _
    unfold WorkingSet.insert
    cases held : (set.add offered).contains entry.utxo with
    | true =>
      refine ⟨places, ordered, fun place => ?_, ?_⟩
      · simp [coherent.admits_concat_iff, held, exact]
      · rw [if_pos rfl, same, entries]
    | false =>
      refine ⟨places ++ [offered.length], ?_, fun place => ?_, ?_⟩
      · rw [List.pairwise_append]
        refine ⟨ordered, List.pairwise_singleton _ _, ?_⟩
        simpa using inside
      · simp [coherent.admits_concat_iff, held, exact]
      · rw [List.filterMap_append, same]
        simp [entries]

end Coherent

/-- Held entries stay in place, and behind them come, in the order in which they were offered, the
first ones under keys that were not held. What is offered again under the same keys is dropped, and
two batches do what one does. -/
theorem add_merges (reachable : set.Reachable) (offered more : List Unspent) :
    (∃ places : List Nat, places.Pairwise (· < ·) ∧
      (∀ place, place ∈ places ↔ set.Admits offered place) ∧
      (set.add offered).entries = set.entries ++ places.filterMap (offered[·]?)) ∧
    (∀ again, again.map Unspent.utxo ⊆ offered.map Unspent.utxo →
      (set.add offered).add again = set.add offered) ∧
    (set.add offered).add more = set.add (offered ++ more) := by
  have coherent := reachable.coherent
  refine ⟨coherent.add_places offered, fun again known => ?_, (set.add_append offered more).symm⟩
  refine add_of_held fun entry member => ?_
  rw [coherent.contains_add_iff, ← List.mem_map]
  exact .inr (known (List.mem_map_of_mem member))

/-- One coin was selected before and comes back with another amount. Two coins are offered under a
key that is held, and one once more under a new key. -/
theorem add_merges_coin_back :
    let coin := fun (byte : UInt8) (amount : Amount) =>
      (⟨⟨List.replicate 64 byte, List.length_replicate⟩, .payment, 0, amount, ⟨.key, []⟩⟩ : Unspent)
    let offered := [coin 2 77, coin 1 99, coin 3 40, coin 2 20, coin 3 50]
    let frozen : Unspent := { coin 3 60 with kind := .freeze }
    ∃ set : WorkingSet, set.Reachable ∧ set.entries = [coin 2 20] ∧
      (set.add offered).entries = [coin 2 20, coin 1 99, coin 3 40] ∧
      (set.add offered).add [frozen, coin 1 10] = set.add offered ∧
      (set.add offered).add [coin 4 10] = set.add (offered ++ [coin 4 10]) := by
  intro coin offered frozen
  let set := ofList [coin 1 10, coin 2 20]
  have selected : set.selectWith none (fun _ => .ok 5) =
      .ok ([coin 1 10], ⟨[coin 2 20], [(coin 2 20).utxo]⟩) := by decide +kernel
  have reachable := Reachable.select (.add .empty _) selected
  obtain ⟨-, again, batches⟩ := add_merges reachable offered [coin 4 10]
  exact ⟨_, reachable, rfl, by decide +kernel, again _ (by decide +kernel), batches⟩

end UtxoLedger.WorkingSet
