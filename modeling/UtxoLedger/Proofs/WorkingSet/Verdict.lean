import UtxoLedger.Proofs.WorkingSet.InPlace
import UtxoLedger.Proofs.WorkingSet.Reachable

/-!
# The first decision of a selection

One coin, two coins and so on are counted until a number of them decides. That number alone gives
the end of a selection, and the coins that it takes are all that the set loses.
-/
namespace UtxoLedger.WorkingSet

open InPlace

/-- What so many coins decide, if anything. An overflow comes before the target is looked at. -/
def decision? (target : Target) (coins : List Unspent) (count : Nat) :
    Option (Except AmountError (List Unspent)) :=
  if UInt64.size ≤ worth coins count then some (.error .overflow)
  else
    match target count with
    | .error error => some (.error error)
    | .ok goal => if goal.toNat ≤ worth coins count then some (.ok (coins.take count)) else none

/-- The first decision, counted from one coin on. Without any, nothing is selected. -/
def verdict (target : Target) (coins : List Unspent) : Except AmountError (List Unspent) :=
  ((List.range' 1 coins.length).findSome? (decision? target coins)).getD (.ok [])

/-- A set without selected entries: the other ones, where they were, and their keys. -/
def without (set : WorkingSet) (selected : List Unspent) : WorkingSet :=
  set.taking selected (set.entries.filter fun entry => entry.utxo ∉ selected.map Unspent.utxo)

section Verdict

variable {target : Target} {coins : List Unspent} {count : Nat}

theorem decision?_of_decides {result : Except AmountError (List Unspent)}
    (decides : Decides target coins count result) : decision? target coins count = some result := by
  unfold decision?
  cases decides with
  | overflow large => rw [if_pos large]
  | refused fits failed => rw [if_neg (Nat.not_le.mpr fits), failed]
  | covered fits aimed enough =>
    rw [if_neg (Nat.not_le.mpr fits), aimed]
    exact if_pos enough

theorem decision?_of_short (short : Short target coins count) :
    decision? target coins count = none := by
  obtain ⟨goal, aimed, less⟩ := short
  have bound := goal.toNat_lt_size
  unfold decision?
  rw [if_neg (by omega), aimed]
  exact if_neg (Nat.not_le.mpr less)

theorem verdict_of_reaches {result : Except AmountError (List Unspent)}
    (reaches : Reaches target coins 0 count) (decides : Decides target coins count result) :
    verdict target coins = result := by
  have past := reaches.past
  have inside := reaches.inside
  -- The numbers before the one that decides, that one, and those behind it.
  have split : List.range' 1 coins.length =
      List.range' 1 (count - 1) ++ count :: List.range' (count + 1) (coins.length - count) := by
    have next : count :: List.range' (count + 1) (coins.length - count) =
        List.range' (1 + (count - 1)) (coins.length - count + 1) := by
      rw [List.range'_succ, Nat.add_sub_cancel' past]
    rw [next, List.range'_append_1]
    congr 1
    omega
  have first : (List.range' 1 coins.length).findSome? (decision? target coins) = some result := by
    rw [List.findSome?_eq_some_iff]
    refine ⟨_, count, _, split, decision?_of_decides decides, fun fewer member => ?_⟩
    have bounds := List.mem_range'_1.mp member
    exact decision?_of_short (reaches.short fewer (by omega) (by omega))
  rw [verdict, first]
  rfl

theorem verdict_of_short
    (short : ∀ count, 0 < count → count ≤ coins.length → Short target coins count) :
    verdict target coins = .ok [] := by
  have undecided : (List.range' 1 coins.length).findSome? (decision? target coins) = none := by
    rw [List.findSome?_eq_none_iff]
    intro count member
    have bounds := List.mem_range'_1.mp member
    exact decision?_of_short (short count (by omega) (by omega))
  rw [verdict, undecided]
  rfl

end Verdict

theorem without_nil (set : WorkingSet) : set.without [] = set := by
  simp [without, taking]

theorem Coherent.selectWith_verdict {set : WorkingSet} (coherent : set.Coherent)
    (height : Option UInt64) (target : Target) :
    set.selectWith height target =
      (verdict target (set.coins height)).map fun selected => (selected, set.without selected) := by
  rcases set.selectWith_cases height target with
    ⟨_, _, reaches, decides, failed⟩ | ⟨short, nothing⟩ | ⟨_, _, _, reaches, decides, done, split⟩
  · rw [failed, verdict_of_reaches reaches decides]
    rfl
  · rw [nothing, verdict_of_short short]
    exact congrArg (fun left => Except.ok ([], left)) set.without_nil.symm
  · rw [done, verdict_of_reaches reaches decides, coherent.left_eq split]
    rfl

/-- What a set loses to a selection are the coins that are selected, each once. -/
structure Yields (set : WorkingSet) (selected : List Unspent) (left : WorkingSet) : Prop where
  taken : (selected ++ left.entries).Perm set.entries
  contains_iff : ∀ key, left.contains key = true ↔ ∃ entry ∈ left.entries, entry.utxo = key

theorem Coherent.yields {set left : WorkingSet} (coherent : set.Coherent) {height : Option UInt64}
    {target : Target} {selected : List Unspent}
    (returned : set.selectWith height target = .ok (selected, left)) : set.Yields selected left where
  taken := selectWith_perm returned
  contains_iff := fun _ => (coherent.leaves_of_select returned).coherent.contains_iff

/-- In place a selection ends as its first decision says. An error leaves the set as it was, and so
does a selection of nothing; selected coins leave it and nothing else does. -/
theorem selectInPlace_verdict (set : WorkingSet) (reachable : set.Reachable)
    (height : Option UInt64) (target : Target) :
    Realizes (selectInPlace height target) set (set.selectWith height target) ∧
    (selectInPlace height target).run set =
      (match verdict target (set.coins height) with
      | .error error => .error error set
      | .ok selected => .ok selected (set.without selected)) ∧
    set.without [] = set ∧
    (∀ selected, verdict target (set.coins height) = .ok selected →
      set.Yields selected (set.without selected)) ∧
    ∀ amount, set.select amount height = set.selectWith height fun _ => .ok amount := by
  have coherent := reachable.coherent
  have realizes := set.selectInPlace_realizes height target
  have ends := coherent.selectWith_verdict height target
  refine ⟨realizes, ?_, set.without_nil, fun selected decided => ?_, fun _ => rfl⟩
  · unfold Realizes at realizes
    rw [realizes, ends]
    cases verdict target (set.coins height) <;> rfl
  · rw [decided] at ends
    exact coherent.yields ends

/-- The first coin falls short of a target that grows with each coin, and the next two entries
cannot be spent. -/
theorem selectInPlace_verdict_scattered :
    let coin := fun (byte : UInt8) (kind : OutputType) (unlockHeight : UInt64) (amount : Amount) =>
      (⟨⟨List.replicate 64 byte, List.length_replicate⟩, kind, unlockHeight, amount,
        ⟨.key, []⟩⟩ : Unspent)
    let set := ofList [coin 1 .payment 0 10, coin 2 .freeze 0 100, coin 3 .payment 9 50,
      coin 4 .payment 6 20, coin 5 .payment 0 30]
    let target : Target := fun count => .ok (15 + 5 * UInt64.ofNat count)
    set.Reachable ∧
    verdict target (set.coins (some 5)) = .ok [coin 1 .payment 0 10, coin 4 .payment 6 20] ∧
    (set.without [coin 1 .payment 0 10, coin 4 .payment 6 20]).entries =
      [coin 2 .freeze 0 100, coin 3 .payment 9 50, coin 5 .payment 0 30] ∧
    (selectInPlace (some 5) target).run set =
      .ok [coin 1 .payment 0 10, coin 4 .payment 6 20]
        (set.without [coin 1 .payment 0 10, coin 4 .payment 6 20]) := by
  intro coin set target
  have reachable : set.Reachable := .add .empty _
  have decided : verdict target (set.coins (some 5)) =
      .ok [coin 1 .payment 0 10, coin 4 .payment 6 20] := by decide +kernel
  obtain ⟨-, ends, -⟩ := selectInPlace_verdict set reachable (some 5) target
  rw [decided] at ends
  exact ⟨reachable, decided, by decide +kernel, ends⟩

end UtxoLedger.WorkingSet
