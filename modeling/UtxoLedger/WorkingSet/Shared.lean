import UtxoLedger.WorkingSet.Basic

/-!
# Shared working sets

Clients reach working sets through handles, and several handles may name one set.
A call has its set to itself from beginning to end, so what clients do together is
a sequence of calls, in some order.
-/
namespace UtxoLedger

/-- What a client asks of a set. -/
inductive Call
  | add (offered : List Unspent)
  | select (height : Option UInt64) (target : Target)

/-- What a call leaves, and what it gives back. -/
structure Outcome where
  set : WorkingSet
  /-- Entries that were offered under a key absent at that moment. -/
  accepted : List Unspent := []
  returned : Except AmountError (List Unspent) := .ok []

namespace WorkingSet

/-- The entries that `add` takes up, in order. -/
def accepted (set : WorkingSet) : List Unspent → List Unspent
  | [] => []
  | entry :: rest =>
    if set.contains entry.utxo then set.accepted rest
    else entry :: (set.insert entry).accepted rest

/-- A selection that fails or falls short leaves the set as it was. -/
def call (set : WorkingSet) : Call → Outcome
  | .add offered => { set := set.add offered, accepted := set.accepted offered }
  | .select height target =>
    match set.selectWith height target with
    | .error error => { set, returned := .error error }
    | .ok (selected, left) => { set := left, returned := .ok selected }

end WorkingSet

/-- Sets by number, and for each handle the number of its set. -/
structure SharedSets where
  sets : List WorkingSet
  handles : List Nat

namespace SharedSets

def single (set : WorkingSet) : SharedSets :=
  ⟨[set], [0]⟩

/-- The set behind a handle. A handle that is not known leads to the first set. -/
def set (shared : SharedSets) (handle : Nat) : WorkingSet :=
  shared.sets.getD (shared.handles.getD handle 0) .empty

/-- What a call leaves is there for all handles of the set. -/
def call (shared : SharedSets) (handle : Nat) (request : Call) :
    Except AmountError (List Unspent) × SharedSets :=
  let outcome := (shared.set handle).call request
  (outcome.returned,
    { shared with sets := shared.sets.set (shared.handles.getD handle 0) outcome.set })

/-- One more handle to the set of an old one, with its number. -/
def clone (shared : SharedSets) (handle : Nat) : Nat × SharedSets :=
  (shared.handles.length,
    { shared with handles := shared.handles ++ [shared.handles.getD handle 0] })

/-- A handle to a set of its own, with its number. -/
def fresh (shared : SharedSets) : Nat × SharedSets :=
  (shared.handles.length,
    ⟨shared.sets ++ [.empty], shared.handles ++ [shared.sets.length]⟩)

/-- So many equal calls, one after another; those that returned nothing are left out. -/
def race (shared : SharedSets) (handle : Nat) (request : Call) :
    Nat → List (List Unspent) × SharedSets
  | 0 => ([], shared)
  | clients + 1 =>
    let (returned, after) := shared.call handle request
    let (others, final) := after.race handle request clients
    match returned with
    | .ok (entry :: rest) => ((entry :: rest) :: others, final)
    | _ => (others, final)

end SharedSets

end UtxoLedger
