import UtxoLedger.Proofs.Wallet.Sending

/-!
# Reachable working sets

A working set starts empty; entries are added to it, selections take entries out of it, and
so do payments. Every set that comes about in this way is coherent.
-/
namespace UtxoLedger.WorkingSet

inductive Reachable : WorkingSet → Prop
  | empty : Reachable .empty
  | add {set : WorkingSet} (reached : Reachable set) (offered : List Unspent) :
      Reachable (set.add offered)
  | select {set left : WorkingSet} {height : Option UInt64} {target : Target}
      {selected : List Unspent} (reached : Reachable set)
      (returned : set.selectWith height target = .ok (selected, left)) : Reachable left
  | send {S : SignatureScheme} {wallet : Wallet S} {set left : WorkingSet} {payment : Payment}
      {policy : FeePolicy} {entropy : Entropy} {tx : Transaction} (reached : Reachable set)
      (returned : wallet.send set payment policy entropy = .ok (tx, left)) : Reachable left

theorem Reachable.coherent {set : WorkingSet} (reachable : set.Reachable) : set.Coherent := by
  induction reachable with
  | empty => exact coherent_empty
  | add _ offered ih => exact ih.add offered
  | select _ returned ih => exact (ih.leaves_of_select returned).coherent
  | send _ returned ih =>
    obtain ⟨-, _, _, _, _, -, chosen, -⟩ := Wallet.send_ok_iff.mp returned
    exact (ih.leaves_of_select chosen).coherent

end UtxoLedger.WorkingSet
