import UtxoLedger.Proofs.InPlace
import UtxoLedger.Proofs.WorkingSet.Coherence

/-!
# Selections in place

A working set that is kept in place is gone through twice for a selection. The first time the places
of coins are written down until they cover the target, and nothing is stored. The second time the
entries at these places are taken out and their keys leave the index one by one, while the entries
of the set are put back only at the end. Both together do what a selection does to a set in one go.
-/
namespace UtxoLedger.WorkingSet

open InPlace

/-- The places of coins that cover a target, those in `found` first; none when all coins fall short.
The first entry has place `index`, and what is found comes to `sum`. -/
def search (height : Option UInt64) (target : Target) (index : Nat) (found : List Nat)
    (sum : Amount) : List Unspent → Except AmountError (Option (List Nat))
  | [] => .ok none
  | entry :: rest =>
    if entry.isSpendable height then do
      let found := found ++ [index]
      let covered ← Amount.checkedAdd sum entry.amount
      let goal ← target found.length
      if covered ≥ goal then return some found
      search height target (index + 1) found covered rest
    else search height target (index + 1) found sum rest

/-- Entries at ascending places and the other ones. The keys of the former leave the index. -/
def part (index : Nat) (places : List Nat) :
    List Unspent → EStateM AmountError WorkingSet (List Unspent × List Unspent)
  | [] => return ([], [])
  | entry :: rest => do
    if places.head? = some index then
      modify fun set => { set with keys := set.keys.erase entry.utxo }
      let (taken, remaining) ← part (index + 1) places.tail rest
      return (entry :: taken, remaining)
    else
      let (taken, remaining) ← part (index + 1) places rest
      return (taken, entry :: remaining)

/-- Takes the entries at ascending places out of the set, which has no entries meanwhile. -/
def takeAt (places : List Nat) : EStateM AmountError WorkingSet (List Unspent) := do
  let entries := (← get).entries
  modify fun set => { set with entries := [] }
  let (taken, remaining) ← part 0 places entries
  modify fun set => { set with entries := remaining }
  return taken

def selectInPlace (height : Option UInt64) (target : Target) :
    EStateM AmountError WorkingSet (List Unspent) := do
  let places ← MonadExcept.ofExcept (search height target 0 [] 0 (← get).entries)
  match places with
  | some places => takeAt places
  | none => return []

/-- The entries at ascending places and the other ones, with no set at hand. -/
def partition (index : Nat) (places : List Nat) : List Unspent → List Unspent × List Unspent
  | [] => ([], [])
  | entry :: rest =>
    if places.head? = some index then
      let (taken, remaining) := partition (index + 1) places.tail rest
      (entry :: taken, remaining)
    else
      let (taken, remaining) := partition (index + 1) places rest
      (taken, entry :: remaining)

theorem part_run (index : Nat) (places : List Nat) (entries : List Unspent) (set : WorkingSet) :
    (part index places entries).run set =
      .ok (partition index places entries)
        (set.taking (partition index places entries).1 set.entries) := by
  induction entries generalizing index places set with
  | nil => rfl
  | cons entry rest ih =>
    rw [part, partition]
    by_cases here : places.head? = some index
    · rw [if_pos here, if_pos here]
      -- The key is gone before the rest is parted.
      change EStateM.run (part (index + 1) places.tail rest >>= _)
        (set.taking [entry] set.entries) = _
      rw [EStateM.run_bind, ih]
      rfl
    · rw [if_neg here, if_neg here]
      rw [EStateM.run_bind, ih]
      rfl

theorem partition_nil (index : Nat) (entries : List Unspent) :
    partition index [] entries = ([], entries) := by
  induction entries generalizing index with
  | nil => rfl
  | cons entry rest ih => simp [partition, ih]

/-- What is searched for by place is what is picked: the places found before, and from `index` on
those that part the entries in the same way. -/
def Locates (index : Nat) (found : List Nat) (entries : List Unspent) :
    Except AmountError (Option (List Nat)) →
      Except AmountError (Option (List Unspent × List Unspent)) → Prop
  | .error error, .error same => error = same
  | .ok none, .ok none => True
  | .ok (some places), .ok (some parts) =>
    ∃ more, places = found ++ more ∧ (∀ place ∈ more, index ≤ place) ∧
      partition index more entries = parts
  | _, _ => False

section Locates

variable {index : Nat} {found : List Nat} {entry : Unspent} {rest : List Unspent}
  {places : Except AmountError (Option (List Nat))}
  {picked : Except AmountError (Option (List Unspent × List Unspent))}

private theorem locates_selected
    (located : Locates (index + 1) (found ++ [index]) rest places picked) :
    Locates index found (entry :: rest) places (picked >>= fun parts =>
      return parts.map fun (selected, left) => (entry :: selected, left)) := by
  rcases places with error | _ | places <;> rcases picked with other | _ | parts
  case error.error => exact located
  case ok.none.ok.none => trivial
  case ok.some.ok.some =>
    obtain ⟨more, rfl, later, rfl⟩ := located
    refine ⟨index :: more, by simp, ?_, ?_⟩
    · intro place member
      rcases List.mem_cons.mp member with rfl | after
      · exact Nat.le_refl _
      · exact Nat.le_of_succ_le (later place after)
    · simp [partition]
  all_goals cases located

private theorem locates_passed (located : Locates (index + 1) found rest places picked) :
    Locates index found (entry :: rest) places (picked >>= fun parts =>
      return parts.map fun (selected, left) => (selected, entry :: left)) := by
  rcases places with error | _ | places <;> rcases picked with other | _ | parts
  case error.error => exact located
  case ok.none.ok.none => trivial
  case ok.some.ok.some =>
    obtain ⟨more, rfl, later, rfl⟩ := located
    -- All places lie behind the entry, so it is not taken for one of them.
    have elsewhere : more.head? ≠ some index := by
      intro here
      have behind := later index (List.mem_of_mem_head? here)
      omega
    refine ⟨more, rfl, fun place member => Nat.le_of_succ_le (later place member), ?_⟩
    simp [partition, elsewhere]
  all_goals cases located

end Locates

theorem search_locates (height : Option UInt64) (target : Target) (index : Nat)
    (found : List Nat) (sum : Amount) (entries : List Unspent) :
    Locates index found entries (search height target index found sum entries)
      (pick height target found.length sum entries) := by
  induction entries generalizing index found sum with
  | nil => trivial
  | cons entry rest ih =>
    rw [search, pick]
    split
    next can =>
      have count : (found ++ [index]).length = found.length + 1 := List.length_append
      cases Amount.checkedAdd sum entry.amount with
      | error error => rfl
      | ok covered =>
        change Locates index found _ (target (found ++ [index]).length >>= _)
          (target (found.length + 1) >>= _)
        rw [count]
        cases target (found.length + 1) with
        | error error => rfl
        | ok goal =>
          change Locates index found _ (if covered ≥ goal then _ else _)
            (if covered ≥ goal then _ else _)
          split
          next enough =>
            refine ⟨[index], rfl, by simp, ?_⟩
            simp [partition, partition_nil]
          next few =>
            have located := ih (index + 1) (found ++ [index]) covered
            rw [count] at located
            exact locates_selected located
    next cannot => exact locates_passed (ih (index + 1) found sum)

theorem takeAt_run (places : List Nat) (set : WorkingSet) :
    (takeAt places).run set =
      .ok (partition 0 places set.entries).1
        (set.taking (partition 0 places set.entries).1 (partition 0 places set.entries).2) := by
  change EStateM.run (part 0 places set.entries >>= _) { set with entries := [] } = _
  rw [EStateM.run_bind, part_run]
  rfl

/-- In place a selection stores what it leaves of the set, and nothing where it fails. -/
theorem selectInPlace_realizes (set : WorkingSet) (height : Option UInt64) (target : Target) :
    Realizes (selectInPlace height target) set (set.selectWith height target) := by
  have located := search_locates height target 0 [] 0 set.entries
  unfold Realizes selectWith
  change EStateM.run (MonadExcept.ofExcept (search height target 0 [] 0 set.entries) >>= _) set = _
  change Locates 0 [] set.entries _ (pick height target 0 0 set.entries) at located
  generalize search height target 0 [] 0 set.entries = places at located ⊢
  generalize pick height target 0 0 set.entries = picked at located ⊢
  rcases places with error | _ | places <;> rcases picked with other | _ | parts
  case error.error =>
    cases located
    rfl
  case ok.none.ok.none => rfl
  case ok.some.ok.some =>
    obtain ⟨more, rfl, -, rfl⟩ := located
    exact takeAt_run _ set
  all_goals cases located

end UtxoLedger.WorkingSet
