import UtxoLedger.Key.Secp256k1
import UtxoLedger.Proofs.Wallet.Outcome
import UtxoLedger.Proofs.WorkingSet.InPlace
import UtxoLedger.Proofs.WorkingSet.Merging
import UtxoLedger.Proofs.WorkingSet.Reachable

/-!
# Histories of a working set

A set is kept in place while entries are added to it, selected out of it and paid with, in any
order. A request that fails leaves a set behind as well, and the next request is made to that one.
After each history the entries and their index agree, so a key can be added just when it is not
held, and a key that was given away can come back.
-/
namespace UtxoLedger.WorkingSet

open InPlace

variable {S : SignatureScheme}

inductive Request (S : SignatureScheme)
  | add (offered : List Unspent)
  | select (amount : Amount) (height : Option UInt64)
  | selectWith (height : Option UInt64) (target : Target)
  | send (wallet : Wallet S) (payment : Payment) (policy : FeePolicy) (entropy : Entropy)

/-- The set after a request, whatever the request returns. -/
def requested (set : WorkingSet) : Request S → WorkingSet
  | .add offered => set.add offered
  | .select amount height => leaves (selectInPlace height fun _ => .ok amount) set
  | .selectWith height target => leaves (selectInPlace height target) set
  | .send wallet payment policy entropy => leaves (wallet.sendInPlace payment policy entropy) set

def ofRequests (requests : List (Request S)) : WorkingSet :=
  requests.foldl requested empty

section Reachable

variable {set : WorkingSet} (reachable : set.Reachable)
include reachable

/-- A program that realizes a function takes a set to a reachable one if the function does. -/
private theorem reachable_leaves {ε α : Type} {program : EStateM ε WorkingSet α}
    {result : Except ε (α × WorkingSet)} (realizes : Realizes program set result)
    (returned : ∀ value left, result = .ok (value, left) → left.Reachable) :
    (leaves program set).Reachable := by
  rw [realizes.leaves_eq]
  cases result with
  | error error => exact reachable
  | ok found => exact returned found.1 found.2 rfl

theorem Reachable.requested (request : Request S) : (set.requested request).Reachable := by
  -- Whatever is called in place leaves what the function returns, or the set as it was.
  cases request with
  | add offered => exact reachable.add offered
  | select amount height =>
    exact reachable_leaves reachable (set.selectInPlace_realizes height _)
      fun _ _ returned => reachable.select returned
  | selectWith height target =>
    exact reachable_leaves reachable (set.selectInPlace_realizes height target)
      fun _ _ returned => reachable.select returned
  | send wallet payment policy entropy =>
    exact reachable_leaves reachable (wallet.sendInPlace_realizes set payment policy entropy)
      fun _ _ returned => reachable.send returned

theorem Reachable.foldl_requested (requests : List (Request S)) :
    (requests.foldl WorkingSet.requested set).Reachable := by
  induction requests generalizing set with
  | nil => exact reachable
  | cons request rest ih => exact ih (reachable.requested request)

end Reachable

/-- The index of a set tells what its entries tell, and is right about what can be added. -/
structure Agrees (set : WorkingSet) : Prop where
  distinct : (set.entries.map Unspent.utxo).Nodup
  contains_iff : ∀ key, set.contains key = true ↔ ∃ entry ∈ set.entries, entry.utxo = key
  held : ∀ entry, set.contains entry.utxo = true → set.add [entry] = set
  absent : ∀ entry, set.contains entry.utxo = false →
    (set.add [entry]).entries = set.entries ++ [entry]
  /-- Among many entries under one key, the first of all is the one that is held. -/
  first : ∀ offered key,
    (set.add offered).find? key =
      (set.find? key).or (offered.find? fun entry => entry.utxo = key)

theorem Coherent.agrees {set : WorkingSet} (coherent : set.Coherent) : set.Agrees where
  distinct := coherent.distinct
  contains_iff := fun _ => coherent.contains_iff
  held := fun _ held => if_pos held
  absent := by
    intro entry absent
    change (set.insert entry).entries = _
    rw [WorkingSet.insert, absent]
    rfl
  first := coherent.find?_add

/-- A key that was held and is not held any more, so that it can be added again. -/
structure GivesUp (set left : WorkingSet) (key : Digest) : Prop where
  held : set.contains key = true
  gone : left.contains key = false
  again : ∀ entry, entry.utxo = key → (left.add [entry]).entries = left.entries ++ [entry]

section GivesUp

variable {set left : WorkingSet} (coherent : set.Coherent)
include coherent

theorem Leaves.givesUp {selected : List Unspent} (leaves : set.Leaves selected left)
    {entry : Unspent} (taken : entry ∈ selected) (member : entry ∈ set.entries) :
    set.GivesUp left entry.utxo := by
  have gone := leaves.not_contains taken
  refine ⟨coherent.contains_iff.mpr ⟨entry, member, rfl⟩, gone, ?_⟩
  intro other same
  exact leaves.coherent.agrees.absent other (same ▸ gone)

theorem givesUp_of_select {height : Option UInt64} {target : Target} {selected : List Unspent}
    (returned : set.selectWith height target = .ok (selected, left)) {entry : Unspent}
    (taken : entry ∈ selected) : set.GivesUp left entry.utxo := by
  have member : entry ∈ set.entries :=
    (selectWith_perm returned).mem_iff.mp (List.mem_append_left _ taken)
  exact (coherent.leaves_of_select returned).givesUp coherent taken member

theorem givesUp_of_send {wallet : Wallet S} {payment : Payment} {policy : FeePolicy}
    {entropy : Entropy} {tx : Transaction}
    (returned : wallet.send set payment policy entropy = .ok (tx, left)) {input : Input}
    (spent : input ∈ tx.inputs) : set.GivesUp left input.utxo := by
  obtain ⟨count, _, _, _, sent⟩ := Wallet.sent_of_send coherent returned
  -- The inputs name the first coins by their keys.
  have key : input.utxo ∈ ((set.coins payment.height).take count).map Unspent.utxo :=
    sent.keys ▸ List.mem_map_of_mem spent
  obtain ⟨entry, taken, same⟩ := List.mem_map.mp key
  rw [← same]
  exact sent.leaves.givesUp coherent taken (List.mem_of_mem_filter (List.mem_of_mem_take taken))

end GivesUp

/-- After any history the index agrees with the entries, and what the next selection or payment
takes can be added again. -/
theorem ofRequests_agrees (requests : List (Request S)) :
    let set := ofRequests requests
    set.Agrees ∧
    (∀ height target selected left,
      (selectInPlace height target).run set = .ok selected left →
      ∀ entry ∈ selected, set.GivesUp left entry.utxo) ∧
    ∀ (wallet : Wallet S) payment policy entropy tx left,
      (wallet.sendInPlace payment policy entropy).run set = .ok tx left →
      ∀ input ∈ tx.inputs, set.GivesUp left input.utxo := by
  intro set
  have reachable : set.Reachable := Reachable.empty.foldl_requested requests
  have coherent := reachable.coherent
  refine ⟨coherent.agrees, ?_, ?_⟩
  · intro height target selected left ended entry taken
    exact givesUp_of_select coherent
      ((set.selectInPlace_realizes height target).ok_iff.mp ended) taken
  · intro wallet payment policy entropy tx left ended input spent
    have returned := (wallet.sendInPlace_realizes set payment policy entropy).ok_iff.mp ended
    exact givesUp_of_send coherent returned spent

/-- A key is offered twice in one call and again in the next, a selection fails, another one falls
short, and a coin comes back after it was selected. -/
theorem ofRequests_agrees_coin_back :
    let coin := fun (byte : UInt8) (amount : Amount) =>
      (⟨⟨List.replicate 64 byte, List.length_replicate⟩, .payment, 0, amount, ⟨.key, []⟩⟩ : Unspent)
    let requests : List (Request secp256k1) :=
      [.add [coin 1 10, coin 2 20, coin 1 99], .add [coin 2 77, coin 3 40],
        .selectWith none fun _ => .error .overflow, .select 100 none, .select 10 none,
        .add [coin 1 10, coin 1 50]]
    let set := ofRequests requests
    set.entries = [coin 2 20, coin 3 40, coin 1 10] ∧ set.Agrees ∧
    ∃ left, (selectInPlace none fun _ => .ok 50).run set = .ok [coin 2 20, coin 3 40] left ∧
      left.entries = [coin 1 10] ∧ set.GivesUp left (coin 3 40).utxo := by
  intro coin requests set
  obtain ⟨agrees, given, -⟩ := ofRequests_agrees requests
  have chosen : set.selectWith none (fun _ => .ok 50) =
      .ok ([coin 2 20, coin 3 40], ⟨[coin 1 10], [(coin 1 10).utxo]⟩) := by decide +kernel
  have ended := (set.selectInPlace_realizes none fun _ => .ok 50).ok_iff.mpr chosen
  exact ⟨by decide +kernel, agrees, _, ended, rfl,
    given none _ _ _ ended (coin 3 40) (by simp)⟩

end UtxoLedger.WorkingSet
