import UtxoLedger.Proofs.WorkingSet.Selection
import Mathlib.Data.List.Nodup

/-!
# A working set and its index

A working set holds its entries and, beside them, an index of their keys. In a coherent set
no key is held twice and the index has just the keys of the entries. What is done to a set
keeps it coherent, so a selection can be read off by keys: it takes the first coins, and the
other entries stay.
-/
namespace UtxoLedger.WorkingSet

structure Coherent (set : WorkingSet) : Prop where
  distinct : (set.entries.map Unspent.utxo).Nodup
  indexed : set.keys.Perm (set.entries.map Unspent.utxo)

theorem coherent_empty : empty.Coherent :=
  ⟨List.nodup_nil, .refl _⟩

section Coherent

variable {set : WorkingSet}

theorem Coherent.contains_iff (coherent : set.Coherent) {key : Digest} :
    set.contains key = true ↔ ∃ entry ∈ set.entries, entry.utxo = key := by
  rw [contains, List.contains_iff_mem, coherent.indexed.mem_iff, List.mem_map]

theorem Coherent.insert (coherent : set.Coherent) (entry : Unspent) :
    (set.insert entry).Coherent := by
  unfold WorkingSet.insert
  split
  next => exact coherent
  next absent =>
    have fresh : entry.utxo ∉ set.entries.map Unspent.utxo := by
      rw [← coherent.indexed.mem_iff, ← List.contains_iff_mem]
      exact absent
    constructor
    · rw [List.map_append, List.map_singleton, List.nodup_append_comm]
      exact List.nodup_cons.mpr ⟨fresh, coherent.distinct⟩
    · rw [List.map_append, List.map_singleton]
      exact (coherent.indexed.cons _).trans (List.perm_append_singleton _ _).symm

theorem Coherent.add (coherent : set.Coherent) (offered : List Unspent) :
    (set.add offered).Coherent := by
  induction offered generalizing set with
  | nil => exact coherent
  | cons entry rest ih => exact ih (coherent.insert entry)

/-- The set without entries that were taken out of it. -/
def taking (set : WorkingSet) (selected left : List Unspent) : WorkingSet :=
  ⟨left, selected.foldl (fun keys entry => keys.erase entry.utxo) set.keys⟩

private theorem erase_keys_perm {selected left : List Unspent} {keys : List Digest}
    (indexed : keys.Perm ((selected ++ left).map Unspent.utxo)) :
    (selected.foldl (fun keys entry => keys.erase entry.utxo) keys).Perm
      (left.map Unspent.utxo) := by
  induction selected generalizing keys with
  | nil => exact indexed
  | cons entry rest ih =>
    refine ih ((indexed.erase entry.utxo).trans ?_)
    simp

theorem Coherent.taking (coherent : set.Coherent) {selected left : List Unspent}
    (split : (selected ++ left).Perm set.entries) : (set.taking selected left).Coherent := by
  have keys := split.map Unspent.utxo
  have distinct := keys.nodup_iff.mpr coherent.distinct
  rw [List.map_append] at distinct
  exact ⟨distinct.of_append_right, erase_keys_perm (coherent.indexed.trans keys.symm)⟩

/-- With distinct keys, what is left are the entries under keys that were not selected. -/
theorem Coherent.left_eq (coherent : set.Coherent) {height : Option UInt64}
    {selected left : List Unspent} (split : Splits height set.entries selected left) :
    left = set.entries.filter fun entry => entry.utxo ∉ selected.map Unspent.utxo := by
  have distinct := (split.perm.map Unspent.utxo).nodup_iff.mpr coherent.distinct
  rw [List.map_append, List.nodup_append] at distinct
  obtain ⟨-, -, apart⟩ := distinct
  have kept {entry : Unspent} (member : entry ∈ left) :
      entry.utxo ∉ selected.map Unspent.utxo := by
    intro taken
    exact apart _ taken _ (List.mem_map_of_mem member) rfl
  obtain ⟨front, back, equal, rfl, rfl⟩ := split
  rw [equal, List.filter_append]
  congr 1
  -- In front an entry is selected just when it can be spent; at the back none is.
  · refine List.filter_congr fun entry member => ?_
    cases can : entry.isSpendable height with
    | true =>
      have taken : entry ∈ spendable height front := List.mem_filter.mpr ⟨member, can⟩
      simpa using ⟨entry, taken, rfl⟩
    | false =>
      have stays := kept (List.mem_append_left back (List.mem_filter.mpr ⟨member, by simp [can]⟩))
      simpa using stays
  · symm
    rw [List.filter_eq_self]
    intro entry member
    exact decide_eq_true (kept (List.mem_append_right _ member))

/-- What a set can spend at a height, in the order in which it is taken. -/
def coins (set : WorkingSet) (height : Option UInt64) : List Unspent :=
  spendable height set.entries

/-- What a selection leaves of a set: the other entries, in order. -/
structure Leaves (set : WorkingSet) (selected : List Unspent) (left : WorkingSet) : Prop where
  coherent : left.Coherent
  distinct : (selected.map Unspent.utxo).Nodup
  entries : left.entries = set.entries.filter fun entry => entry.utxo ∉ selected.map Unspent.utxo

theorem Coherent.leaves (coherent : set.Coherent) {height : Option UInt64}
    {selected left : List Unspent} (split : Splits height set.entries selected left) :
    set.Leaves selected (set.taking selected left) := by
  have keys := (split.perm.map Unspent.utxo).nodup_iff.mpr coherent.distinct
  rw [List.map_append] at keys
  exact ⟨coherent.taking split.perm, keys.of_append_left, coherent.left_eq split⟩

/-- Everything that a selection can do, for any set. -/
theorem selectWith_cases (set : WorkingSet) (height : Option UInt64) (target : Target) :
    (∃ count error, Reaches target (set.coins height) 0 count ∧
      Decides target (set.coins height) count (.error error) ∧
      set.selectWith height target = .error error) ∨
    ((∀ count, 0 < count → count ≤ (set.coins height).length →
        Short target (set.coins height) count) ∧
      set.selectWith height target = .ok ([], set)) ∨
    (∃ count selected left, Reaches target (set.coins height) 0 count ∧
      Decides target (set.coins height) count (.ok selected) ∧
      set.selectWith height target = .ok (selected, set.taking selected left) ∧
      Splits height set.entries selected left) := by
  have scans := pick_scans height target [] set.entries 0 rfl
  unfold selectWith
  change Scans target (set.coins height) 0 ((pick height target 0 0 set.entries).map _) at scans
  cases picked : pick height target 0 0 set.entries with
  | error error =>
    rw [picked] at scans
    obtain ⟨count, reaches, decides⟩ := scans
    exact .inl ⟨count, error, reaches, decides, rfl⟩
  | ok found =>
    rw [picked] at scans
    right
    cases found with
    | none => exact .inl ⟨scans, rfl⟩
    | some found =>
      obtain ⟨count, reaches, decides⟩ := scans
      exact .inr ⟨count, _, _, reaches, decides, rfl, splits_of_pick picked⟩

theorem Coherent.selectWith_cases (coherent : set.Coherent) (height : Option UInt64)
    (target : Target) :
    (∃ count error, Reaches target (set.coins height) 0 count ∧
      Decides target (set.coins height) count (.error error) ∧
      set.selectWith height target = .error error) ∨
    ((∀ count, 0 < count → count ≤ (set.coins height).length →
        Short target (set.coins height) count) ∧
      set.selectWith height target = .ok ([], set)) ∨
    (∃ count selected left, Reaches target (set.coins height) 0 count ∧
      Decides target (set.coins height) count (.ok selected) ∧
      set.selectWith height target = .ok (selected, left) ∧ set.Leaves selected left) := by
  rcases set.selectWith_cases height target with
    failed | nothing | ⟨count, selected, left, reaches, decides, done, split⟩
  · exact .inl failed
  · exact .inr (.inl nothing)
  · exact .inr (.inr ⟨count, selected, _, reaches, decides, done, coherent.leaves split⟩)

/-- What is returned for a set is what leaves it, even where that is nothing. -/
theorem Coherent.leaves_of_select (coherent : set.Coherent) {height : Option UInt64}
    {target : Target} {selected : List Unspent} {left : WorkingSet}
    (returned : set.selectWith height target = .ok (selected, left)) : set.Leaves selected left := by
  rcases coherent.selectWith_cases height target with
    ⟨_, _, -, -, failed⟩ | ⟨-, nothing⟩ | ⟨_, _, _, -, -, done, leaves⟩
  · cases failed.symm.trans returned
  · -- Where nothing is selected, no key is, and the filter passes all entries.
    cases nothing.symm.trans returned
    exact ⟨coherent, List.nodup_nil, by simp⟩
  · cases done.symm.trans returned
    exact leaves

theorem Leaves.not_contains {selected : List Unspent} {left : WorkingSet}
    (leaves : set.Leaves selected left) {entry : Unspent} (member : entry ∈ selected) :
    left.contains entry.utxo = false := by
  refine Bool.eq_false_iff.mpr fun held => ?_
  obtain ⟨other, stays, same⟩ := leaves.coherent.contains_iff.mp held
  rw [leaves.entries, List.mem_filter, same] at stays
  exact of_decide_eq_true stays.2 (List.mem_map_of_mem member)

theorem Coherent.selectWith_first (coherent : set.Coherent) {height : Option UInt64}
    {target : Target} {coin : Unspent} {others : List Unspent} {goal : Amount}
    (first : set.coins height = coin :: others) (aimed : target 1 = .ok goal)
    (covered : goal.toNat ≤ coin.amount.toNat) :
    ∃ left, set.selectWith height target = .ok ([coin], left) := by
  have within := coin.amount.toNat_lt_size
  have alone : worth (coin :: others) 1 = coin.amount.toNat := by simp [worth]
  rcases first ▸ coherent.selectWith_cases height target with
    ⟨count, _, reaches, decides, -⟩ | ⟨short, -⟩ | ⟨count, _, left, reaches, decides, done, -⟩
  · cases reaches.eq_one aimed covered
    cases decides with
    | overflow large => omega
    | refused _ failed => cases failed.symm.trans aimed
  · obtain ⟨_, same, less⟩ := short 1 Nat.one_pos (by simp)
    cases same.symm.trans aimed
    omega
  · cases reaches.eq_one aimed covered
    cases decides
    exact ⟨left, done⟩

end Coherent

end UtxoLedger.WorkingSet
