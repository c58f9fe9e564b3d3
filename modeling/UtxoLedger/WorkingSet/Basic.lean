import UtxoLedger.Transaction.Basic

/-!
# Working sets of unspent outputs

A working set keeps its entries in the order in which they were added, one for
each key, and beside them an index of their keys, so that membership is decided
without the entries. Coins are selected in that order until they cover a target;
a selection that covers it takes its coins out, any other one changes nothing.
-/
namespace UtxoLedger

/-- What the entries of a set come to. Each entry counts in one of the sums. -/
structure Balance where
  /-- Mature payments. -/
  spendable : Amount := 0
  frozen : Amount := 0
  /-- Payments that are not mature yet. -/
  locked : Amount := 0
  deriving DecidableEq, Repr

/-- What a selection of so many entries has to cover. -/
abbrev Target := Nat → Except AmountError Amount

/-- The entries of a set and the index of their keys, which every call keeps in agreement. -/
structure WorkingSet where
  entries : List Unspent
  keys : List Digest
  deriving DecidableEq

namespace WorkingSet

def empty : WorkingSet :=
  ⟨[], []⟩

/-- Answered by the index alone. -/
def contains (set : WorkingSet) (key : Digest) : Bool :=
  set.keys.contains key

def size (set : WorkingSet) : Nat :=
  set.entries.length

def isEmpty (set : WorkingSet) : Bool :=
  set.entries.isEmpty

/-- An entry whose key is held already is dropped. -/
def insert (set : WorkingSet) (entry : Unspent) : WorkingSet :=
  if set.contains entry.utxo then set
  else ⟨set.entries ++ [entry], entry.utxo :: set.keys⟩

/-- Entries are taken one by one, so of two new ones with the same key the first is kept. -/
def add (set : WorkingSet) (offered : List Unspent) : WorkingSet :=
  offered.foldl insert set

def ofList (offered : List Unspent) : WorkingSet :=
  empty.add offered

/-- The entry that a key stands for. -/
def find? (set : WorkingSet) (key : Digest) : Option Unspent :=
  set.entries.find? fun entry => entry.utxo = key

/-- Adds an entry to the sum it belongs to; the other two stay as they are. -/
def Balance.count (height : Option UInt64) (balance : Balance) (entry : Unspent) :
    Except AmountError Balance :=
  match entry.kind with
  | .freeze => (Amount.checkedAdd balance.frozen entry.amount).map fun total =>
      { balance with frozen := total }
  | .payment =>
    if entry.isMature height then
      (Amount.checkedAdd balance.spendable entry.amount).map fun total =>
        { balance with spendable := total }
    else
      (Amount.checkedAdd balance.locked entry.amount).map fun total =>
        { balance with locked := total }

/-- The sums at a height, or without a height those of a set in which all is mature. -/
def balance (set : WorkingSet) (height : Option UInt64) : Except AmountError Balance :=
  set.entries.foldlM (Balance.count height) {}

/-- Splits entries into those selected and those left, both in order; none when all that is
spendable falls short. `count` and `sum` tell what is selected already. -/
def pick (height : Option UInt64) (target : Target) (count : Nat) (sum : Amount) :
    List Unspent → Except AmountError (Option (List Unspent × List Unspent))
  | [] => .ok none
  | entry :: rest =>
    if entry.isSpendable height then do
      -- The sum comes first: where it overflows, the target is not asked.
      let covered ← Amount.checkedAdd sum entry.amount
      let goal ← target (count + 1)
      if covered ≥ goal then return some ([entry], rest)
      let picked ← pick height target (count + 1) covered rest
      return picked.map fun (selected, left) => (entry :: selected, left)
    else do
      let picked ← pick height target count sum rest
      return picked.map fun (selected, left) => (selected, entry :: left)

/-- Selects for a target that may grow with the number of entries. Nothing is selected when the
spendable entries fall short. -/
def selectWith (set : WorkingSet) (height : Option UInt64) (target : Target) :
    Except AmountError (List Unspent × WorkingSet) := do
  match ← pick height target 0 0 set.entries with
  | none => return ([], set)
  | some (selected, left) =>
    return (selected, ⟨left, selected.foldl (fun keys entry => keys.erase entry.utxo) set.keys⟩)

/-- Selects for an amount that does not depend on the number of entries. -/
def select (set : WorkingSet) (amount : Amount) (height : Option UInt64) :
    Except AmountError (List Unspent × WorkingSet) :=
  set.selectWith height fun _ => .ok amount

end WorkingSet

end UtxoLedger
