import UtxoLedger.Proofs.Amount.Exact
import UtxoLedger.WorkingSet.Basic

/-!
# What a selection takes

A selection looks at the spendable entries alone: for one coin, two coins and so on, until a
number of them decides. What it takes are the first coins, and what it leaves are all other
entries, where they were.
-/
namespace UtxoLedger.WorkingSet

/-- The entries that can be spent at a height. -/
def spendable (height : Option UInt64) (entries : List Unspent) : List Unspent :=
  entries.filter fun entry => entry.isSpendable height

/-- What the first so many coins come to. -/
def worth (coins : List Unspent) (count : Nat) : Nat :=
  Amount.total ((coins.take count).map Unspent.amount)

/-- So many coins decide nothing: they are worth less than what has to be covered. -/
def Short (target : Target) (coins : List Unspent) (count : Nat) : Prop :=
  ∃ goal, target count = .ok goal ∧ worth coins count < goal.toNat

/-- What so many coins decide. An overflow comes before the target is looked at. -/
inductive Decides (target : Target) (coins : List Unspent) (count : Nat) :
    Except AmountError (List Unspent) → Prop
  | overflow : UInt64.size ≤ worth coins count → Decides target coins count (.error .overflow)
  | refused {error : AmountError} : worth coins count < UInt64.size →
      target count = .error error → Decides target coins count (.error error)
  | covered {goal : Amount} : worth coins count < UInt64.size → target count = .ok goal →
      goal.toNat ≤ worth coins count → Decides target coins count (.ok (coins.take count))

/-- A scan gets to so many coins when all fewer are short; those up to `start` do not count. -/
structure Reaches (target : Target) (coins : List Unspent) (start count : Nat) : Prop where
  past : start < count
  inside : count ≤ coins.length
  short : ∀ fewer, start < fewer → fewer < count → Short target coins fewer

/-- The first number of coins that decides gives the result; without one nothing is selected. -/
def Scans (target : Target) (coins : List Unspent) (start : Nat) :
    Except AmountError (Option (List Unspent)) → Prop
  | .ok none => ∀ count, start < count → count ≤ coins.length → Short target coins count
  | .ok (some selected) =>
    ∃ count, Reaches target coins start count ∧ Decides target coins count (.ok selected)
  | .error error =>
    ∃ count, Reaches target coins start count ∧ Decides target coins count (.error error)

/-- Where the first coin covers by itself, no scan gets any further. -/
theorem Reaches.eq_one {target : Target} {coin : Unspent} {others : List Unspent} {count : Nat}
    {goal : Amount} (reaches : Reaches target (coin :: others) 0 count)
    (aimed : target 1 = .ok goal) (covered : goal.toNat ≤ coin.amount.toNat) : count = 1 := by
  have past := reaches.past
  by_cases more : 1 < count
  · obtain ⟨_, same, short⟩ := reaches.short 1 Nat.one_pos more
    cases same.symm.trans aimed
    simp only [worth, List.take_succ_cons, List.take_zero, List.map_cons, List.map_nil,
      Amount.total_cons, Amount.total_nil] at short
    omega
  · omega

theorem spendable_cons_of_pos {height : Option UInt64} {entry : Unspent}
    (can : entry.isSpendable height = true) (rest : List Unspent) :
    spendable height (entry :: rest) = entry :: spendable height rest :=
  List.filter_cons_of_pos can

theorem spendable_cons_of_neg {height : Option UInt64} {entry : Unspent}
    (cannot : ¬ entry.isSpendable height = true) (rest : List Unspent) :
    spendable height (entry :: rest) = spendable height rest :=
  List.filter_cons_of_neg cannot

section Scan

variable {target : Target} {coins : List Unspent} {start : Nat}

private theorem scans_of_next {result : Except AmountError (List Unspent)}
    (inside : start + 1 ≤ coins.length) (decides : Decides target coins (start + 1) result) :
    Scans target coins start (result.map some) := by
  have reaches : Reaches target coins start (start + 1) :=
    ⟨Nat.lt_succ_self _, inside, fun _ past before => by omega⟩
  cases result with
  | error error => exact ⟨_, reaches, decides⟩
  | ok selected => exact ⟨_, reaches, decides⟩

private theorem scans_of_short {result : Except AmountError (Option (List Unspent))}
    (short : Short target coins (start + 1)) (scans : Scans target coins (start + 1) result) :
    Scans target coins start result := by
  have extend {fewer : Nat} (past : start < fewer)
      (later : start + 1 < fewer → Short target coins fewer) : Short target coins fewer := by
    rcases Nat.eq_or_lt_of_le (Nat.succ_le_of_lt past) with same | beyond
    · exact same ▸ short
    · exact later beyond
  have widen {count : Nat} (reaches : Reaches target coins (start + 1) count) :
      Reaches target coins start count :=
    ⟨Nat.lt_of_succ_lt reaches.past, reaches.inside, fun fewer past before =>
      extend past fun beyond => reaches.short fewer beyond before⟩
  rcases result with error | _ | selected
  · obtain ⟨count, reaches, decides⟩ := scans
    exact ⟨count, widen reaches, decides⟩
  · exact fun count past inside => extend past fun beyond => scans count beyond inside
  · obtain ⟨count, reaches, decides⟩ := scans
    exact ⟨count, widen reaches, decides⟩

end Scan

private theorem map_bind_map {α β γ ε : Type} (result : Except ε (Option α)) (inner : α → β)
    (outer : β → γ) :
    (result >>= fun picked => pure (picked.map inner)).map (Option.map outer) =
      result.map (Option.map fun found => outer (inner found)) := by
  cases result with
  | error error => rfl
  | ok picked => cases picked <;> rfl

private theorem take_next (before rest : List Unspent) (entry : Unspent) :
    (before ++ entry :: rest).take (before.length + 1) = before ++ [entry] := by
  have count : before.length + 1 = (before ++ [entry]).length := by simp
  rw [List.append_cons, count, List.take_left]

private theorem worth_next (before rest : List Unspent) (entry : Unspent) :
    worth (before ++ entry :: rest) (before.length + 1) =
      Amount.total (before.map Unspent.amount) + entry.amount.toNat := by
  rw [worth, take_next]
  simp

/-- Picking is a scan of the coins: those selected `before`, and those among the entries. -/
theorem pick_scans (height : Option UInt64) (target : Target) (before entries : List Unspent)
    (sum : Amount) (exact : sum.toNat = Amount.total (before.map Unspent.amount)) :
    Scans target (before ++ spendable height entries) before.length
      ((pick height target before.length sum entries).map
        (Option.map fun found => before ++ found.1)) := by
  induction entries generalizing before sum with
  | nil =>
    intro count past inside
    simp only [spendable, List.filter_nil, List.append_nil] at inside
    omega
  | cons entry rest ih =>
    rw [pick]
    split
    next can =>
      rw [spendable_cons_of_pos can]
      have inside : before.length + 1 ≤ (before ++ entry :: spendable height rest).length := by simp
      have next := worth_next before (spendable height rest) entry
      rw [← exact] at next
      cases added : Amount.checkedAdd sum entry.amount with
      | error error =>
        obtain ⟨large, rfl⟩ := Amount.checkedAdd_error_iff.mp added
        exact scans_of_next inside (.overflow (next ▸ large))
      | ok covered =>
        have equal : covered.toNat = worth _ _ :=
          (Amount.checkedAdd_ok_iff.mp added).trans next.symm
        have fits := equal ▸ covered.toNat_lt_size
        cases aimed : target (before.length + 1) with
        | error error => exact scans_of_next inside (.refused fits aimed)
        | ok goal =>
          change Scans _ _ _ (Except.map _ (if covered ≥ goal then _ else _))
          split
          next enough =>
            have reached := equal ▸ UInt64.le_iff_toNat_le.mp enough
            have decides := Decides.covered fits aimed reached
            rw [take_next] at decides
            exact scans_of_next inside decides
          next few =>
            -- The scan goes on as if the entry had been selected before.
            have below := equal ▸ UInt64.lt_iff_toNat_lt.mp (UInt64.not_le.mp few)
            have moved : covered.toNat =
                Amount.total ((before ++ [entry]).map Unspent.amount) := by
              rw [Amount.checkedAdd_ok_iff.mp added, exact]
              simp
            refine scans_of_short ⟨goal, aimed, below⟩ ?_
            rw [map_bind_map]
            simpa using ih (before ++ [entry]) covered moved
    next cannot =>
      rw [spendable_cons_of_neg cannot, map_bind_map]
      exact ih before sum exact

/-- Up to some entry all that is spendable is selected; the rest is left, in order. -/
def Splits (height : Option UInt64) (entries selected left : List Unspent) : Prop :=
  ∃ front back, entries = front ++ back ∧ selected = spendable height front ∧
    left = front.filter (fun entry => !entry.isSpendable height) ++ back

theorem splits_of_pick {height : Option UInt64} {target : Target} {count : Nat} {sum : Amount}
    {entries selected left : List Unspent}
    (returned : pick height target count sum entries = .ok (some (selected, left))) :
    Splits height entries selected left := by
  induction entries generalizing count sum selected left with
  | nil => cases returned
  | cons entry rest ih =>
    rw [pick] at returned
    split at returned
    next can =>
      obtain ⟨covered, -, returned⟩ := Except.bind_ok_iff.mp returned
      obtain ⟨goal, -, returned⟩ := Except.bind_ok_iff.mp returned
      split at returned
      next =>
        cases returned
        exact ⟨[entry], rest, rfl, (spendable_cons_of_pos can []).symm, by simp [can]⟩
      next =>
        obtain ⟨picked, found, mapped⟩ := Except.bind_ok_iff.mp returned
        obtain ⟨⟨others, after⟩, rfl, same⟩ := Option.map_eq_some_iff.mp (Except.ok.inj mapped)
        cases same
        obtain ⟨front, back, rfl, rfl, rfl⟩ := ih found
        exact ⟨entry :: front, back, rfl, (spendable_cons_of_pos can front).symm,
          by simp [can]⟩
    next cannot =>
      obtain ⟨picked, found, mapped⟩ := Except.bind_ok_iff.mp returned
      obtain ⟨⟨others, after⟩, rfl, same⟩ := Option.map_eq_some_iff.mp (Except.ok.inj mapped)
      cases same
      obtain ⟨front, back, rfl, rfl, rfl⟩ := ih found
      exact ⟨entry :: front, back, rfl, (spendable_cons_of_neg cannot front).symm,
        by simp [cannot]⟩

theorem Splits.perm {height : Option UInt64} {entries selected left : List Unspent}
    (split : Splits height entries selected left) : (selected ++ left).Perm entries := by
  obtain ⟨front, back, rfl, rfl, rfl⟩ := split
  rw [← List.append_assoc]
  exact (List.filter_append_perm _ front).append_right back

theorem selectWith_perm {set left : WorkingSet} {height : Option UInt64} {target : Target}
    {selected : List Unspent} (returned : set.selectWith height target = .ok (selected, left)) :
    (selected ++ left.entries).Perm set.entries := by
  obtain ⟨picked, found, returned⟩ := Except.bind_ok_iff.mp returned
  cases picked with
  | none =>
    cases returned
    exact .refl _
  | some pair =>
    cases returned
    exact (splits_of_pick found).perm

end UtxoLedger.WorkingSet
