import UtxoLedger.Proofs.WorkingSet.InPlace

/-!
# Balances and selections agree

A balance goes through all entries and sums them up by what can be done with them. A selection goes
through the same entries, and stops as soon as it has enough. Where the sums are amounts, the
selection finds just what the balance promises, and takes it from the mature payments alone.
-/
namespace UtxoLedger.WorkingSet

open InPlace

/-- What entries are worth together, whether or not it is an amount. -/
def value (entries : List Unspent) : Nat :=
  Amount.total (entries.map Unspent.amount)

@[simp] theorem value_nil : value [] = 0 := rfl

@[simp] theorem value_cons (entry : Unspent) (rest : List Unspent) :
    value (entry :: rest) = entry.amount.toNat + value rest := rfl

@[simp] theorem value_append (front back : List Unspent) :
    value (front ++ back) = value front + value back := by
  simp [value]

theorem value_perm {entries others : List Unspent} (same : entries.Perm others) :
    value entries = value others :=
  Amount.total_perm (same.map Unspent.amount)

/-- The sums of a balance, each of which has entries of its own. -/
inductive Bucket
  | spendable
  | frozen
  | locked
  deriving DecidableEq

namespace Bucket

def ofEntry (height : Option UInt64) (entry : Unspent) : Bucket :=
  match entry.kind with
  | .freeze => .frozen
  | .payment => if entry.isMature height then .spendable else .locked

def get (balance : Balance) : Bucket → Amount
  | .spendable => balance.spendable
  | .frozen => balance.frozen
  | .locked => balance.locked

def set (balance : Balance) (total : Amount) : Bucket → Balance
  | .spendable => { balance with spendable := total }
  | .frozen => { balance with frozen := total }
  | .locked => { balance with locked := total }

/-- The entries that a sum is of. -/
def entries (bucket : Bucket) (height : Option UInt64) (held : List Unspent) : List Unspent :=
  held.filter fun entry => ofEntry height entry = bucket

theorem get_set (balance : Balance) (total : Amount) (bucket other : Bucket) :
    other.get (bucket.set balance total) = if other = bucket then total else other.get balance := by
  cases bucket <;> cases other <;> rfl

theorem ext_get {balance other : Balance}
    (same : ∀ bucket : Bucket, bucket.get balance = bucket.get other) : balance = other := by
  cases balance
  cases other
  simp only [Balance.mk.injEq]
  exact ⟨same .spendable, same .frozen, same .locked⟩

/-- A selection takes what is summed up as spendable. -/
theorem ofEntry_eq_spendable_iff {height : Option UInt64} {entry : Unspent} :
    ofEntry height entry = .spendable ↔ entry.isSpendable height = true := by
  unfold ofEntry Unspent.isSpendable
  cases entry.kind with
  | freeze => simp
  | payment => cases entry.isMature height <;> simp

theorem entries_spendable (height : Option UInt64) (held : List Unspent) :
    Bucket.spendable.entries height held = WorkingSet.spendable height held := by
  refine List.filter_congr fun entry _ => ?_
  exact Bool.eq_iff_iff.mpr (decide_eq_true_iff.trans ofEntry_eq_spendable_iff)

end Bucket

/-- A balance is what another one is and the exact worth of some entries on top. -/
def Grows (height : Option UInt64) (before : Balance) (added : List Unspent) (after : Balance) :
    Prop :=
  ∀ bucket : Bucket,
    (bucket.get after).toNat = (bucket.get before).toNat + value (bucket.entries height added)

section Grows

variable {height : Option UInt64} {before after : Balance} {entry : Unspent} {rest : List Unspent}

theorem grows_nil_iff : Grows height before [] after ↔ before = after := by
  constructor
  · intro grows
    refine Bucket.ext_get fun bucket => UInt64.toNat_inj.mp ?_
    exact (grows bucket).symm
  · rintro rfl bucket
    rfl

theorem count_eq (height : Option UInt64) (before : Balance) (entry : Unspent) :
    Balance.count height before entry =
      (Amount.checkedAdd ((Bucket.ofEntry height entry).get before) entry.amount).map fun total =>
        (Bucket.ofEntry height entry).set before total := by
  unfold Balance.count Bucket.ofEntry
  cases entry.kind with
  | freeze => rfl
  | payment => cases entry.isMature height <;> rfl

theorem count_ok_iff :
    Balance.count height before entry = .ok after ↔ Grows height before [entry] after := by
  rw [count_eq, Except.map_ok_iff]
  constructor
  · rintro ⟨total, added, rfl⟩ bucket
    rw [Bucket.get_set]
    by_cases own : bucket = Bucket.ofEntry height entry
    · subst own
      simpa [Bucket.entries] using Amount.checkedAdd_ok_iff.mp added
    · simp [Bucket.entries, own, Ne.symm own]
  · intro grows
    have sum := grows (Bucket.ofEntry height entry)
    refine ⟨_, Amount.checkedAdd_ok_iff.mpr (by simpa [Bucket.entries] using sum), ?_⟩
    refine Bucket.ext_get fun bucket => ?_
    rw [Bucket.get_set]
    by_cases own : bucket = Bucket.ofEntry height entry
    · rw [if_pos own, own]
    · have kept : (bucket.get after).toNat = (bucket.get before).toNat := by
        simpa [Bucket.entries, Ne.symm own] using grows bucket
      rw [if_neg own]
      exact UInt64.toNat_inj.mp kept.symm

/-- Of a growth by several entries the first part is one, because no sum is past its end then. -/
theorem grows_cons_iff :
    Grows height before (entry :: rest) after ↔
      ∃ middle, Grows height before [entry] middle ∧ Grows height middle rest after := by
  have split (bucket : Bucket) : value (bucket.entries height (entry :: rest)) =
      value (bucket.entries height [entry]) + value (bucket.entries height rest) := by
    rw [← value_append, Bucket.entries, Bucket.entries, Bucket.entries, ← List.filter_append]
    rfl
  constructor
  · intro grows
    have own := grows (Bucket.ofEntry height entry)
    have alone : value ((Bucket.ofEntry height entry).entries height [entry]) =
        entry.amount.toNat := by simp [Bucket.entries]
    have fits := ((Bucket.ofEntry height entry).get after).toNat_lt_size
    rw [split, alone] at own
    obtain ⟨middle, counted⟩ : ∃ middle, Balance.count height before entry = .ok middle := by
      rw [count_eq]
      cases added : Amount.checkedAdd ((Bucket.ofEntry height entry).get before) entry.amount with
      | ok total => exact ⟨_, rfl⟩
      | error error =>
        have large := (Amount.checkedAdd_error_iff.mp added).1
        omega
    have first := count_ok_iff.mp counted
    refine ⟨middle, first, fun bucket => ?_⟩
    rw [grows bucket, split, first bucket, Nat.add_assoc]
  · rintro ⟨middle, first, others⟩ bucket
    rw [others bucket, first bucket, split, Nat.add_assoc]

theorem foldlM_count_ok_iff {held : List Unspent} :
    held.foldlM (Balance.count height) before = .ok after ↔ Grows height before held after := by
  -- By induction on the entries; the balance counted so far changes from one to the next.
  induction held generalizing before with
  | nil =>
    rw [grows_nil_iff]
    exact Except.ok.injEq before after ▸ Iff.rfl
  | cons entry rest ih =>
    rw [List.foldlM_cons, Except.bind_ok_iff, grows_cons_iff]
    exact exists_congr fun middle => and_congr count_ok_iff ih

end Grows

/-- A balance is given just where its sums are the exact ones. -/
theorem balance_ok_iff {set : WorkingSet} {height : Option UInt64} {sums : Balance} :
    set.balance height = .ok sums ↔
      ∀ bucket : Bucket, (bucket.get sums).toNat = value (bucket.entries height set.entries) := by
  have zero (bucket : Bucket) : (bucket.get {}).toNat = 0 := by cases bucket <;> rfl
  rw [balance, foldlM_count_ok_iff]
  refine forall_congr' fun bucket => ?_
  rw [zero, Nat.zero_add]

theorem Bucket.value_entries_perm {held others : List Unspent} (same : held.Perm others)
    (bucket : Bucket) (height : Option UInt64) :
    value (bucket.entries height held) = value (bucket.entries height others) :=
  value_perm (same.filter _)

theorem Bucket.entries_of_spendable {height : Option UInt64} {selected : List Unspent}
    (can : ∀ entry ∈ selected, entry.isSpendable height = true) (bucket : Bucket) :
    bucket.entries height selected = if bucket = .spendable then selected else [] := by
  split
  next own =>
    rw [own, entries_spendable]
    exact List.filter_eq_self.mpr can
  next other =>
    refine List.filter_eq_nil_iff.mpr fun entry member same => ?_
    have spendable := ofEntry_eq_spendable_iff.mpr (can entry member)
    exact other ((of_decide_eq_true same).symm.trans spendable)

section Selected

variable {set : WorkingSet} {height : Option UInt64} {before : Balance}

theorem value_coins (summed : set.balance height = .ok before) :
    value (set.coins height) = before.spendable.toNat := by
  have sum := balance_ok_iff.mp summed .spendable
  rw [Bucket.entries_spendable] at sum
  exact sum.symm

theorem worth_le_value (coins : List Unspent) (count : Nat) : worth coins count ≤ value coins := by
  have split : worth coins count + value (coins.drop count) = value coins := by
    rw [worth, ← value, ← value_append, List.take_append_drop]
  omega

/-- What a selection takes is missing from the spendable sum, and from no other. -/
theorem balance_taking (summed : set.balance height = .ok before) {selected left : List Unspent}
    (split : Splits height set.entries selected left) :
    ∃ remaining : Amount, remaining.toNat + value selected = before.spendable.toNat ∧
      (set.taking selected left).balance height = .ok { before with spendable := remaining } := by
  have sums := balance_ok_iff.mp summed
  have can : ∀ entry ∈ selected, entry.isSpendable height = true := by
    obtain ⟨front, back, -, rfl, -⟩ := split
    exact fun entry member => (List.mem_filter.mp member).2
  -- Each sum is parted; what is selected counts for the spendable one alone.
  have parted (bucket : Bucket) : (bucket.get before).toNat =
      value (if bucket = .spendable then selected else []) + value (bucket.entries height left) := by
    rw [sums bucket, ← Bucket.value_entries_perm split.perm, Bucket.entries, List.filter_append,
      value_append, ← Bucket.entries, ← Bucket.entries, Bucket.entries_of_spendable can]
  have spent := parted .spendable
  rw [if_pos rfl] at spent
  have bound := before.spendable.toNat_lt_size
  change before.spendable.toNat = _ at spent
  have exact : (UInt64.ofNat (value (Bucket.spendable.entries height left))).toNat =
      value (Bucket.spendable.entries height left) := UInt64.toNat_ofNat_of_lt' (by omega)
  refine ⟨_, by rw [exact, spent, Nat.add_comm], balance_ok_iff.mpr fun bucket => ?_⟩
  cases bucket with
  | spendable => exact exact
  | frozen => exact (parted .frozen).trans (Nat.zero_add _)
  | locked => exact (parted .locked).trans (Nat.zero_add _)

end Selected

/-- A selection that is not empty, against the balance before it. -/
structure Pays (height : Option UInt64) (amount : Amount) (before : Balance)
    (selected : List Unspent) (after : WorkingSet) : Prop where
  enough : amount.toNat ≤ value selected
  needed : 1 < selected.length → value selected.dropLast < amount.toNat
  balance : ∃ remaining : Amount, remaining.toNat + value selected = before.spendable.toNat ∧
    after.balance height = .ok { before with spendable := remaining }

theorem coins_ne_nil_iff {set : WorkingSet} {height : Option UInt64} :
    set.coins height ≠ [] ↔ ∃ entry ∈ set.entries, entry.isSpendable height = true := by
  rw [coins, spendable, Ne, List.filter_eq_nil_iff]
  simp

/-- Where all fewer coins are short of an amount, the last one is needed. -/
theorem Reaches.needed {amount : Amount} {coins : List Unspent} {count : Nat}
    (reaches : Reaches (fun _ => .ok amount) coins 0 count)
    (several : 1 < (coins.take count).length) :
    value (coins.take count).dropLast < amount.toNat := by
  have length := List.length_take_of_le reaches.inside
  rw [length] at several
  obtain ⟨_, same, less⟩ := reaches.short (count - 1) (by omega) (by omega)
  cases same
  rw [List.dropLast_eq_take, length, List.take_take, Nat.min_eq_left (Nat.sub_le count 1)]
  exact less

/-- Where a balance can be given, an amount can be selected just when it is within the spendable
sum and there is something to select at all. -/
theorem select_of_balance (set : WorkingSet) (height : Option UInt64) (amount : Amount)
    (before : Balance) (summed : set.balance height = .ok before) :
    ∃ selected after, set.select amount height = .ok (selected, after) ∧
      (selectInPlace height fun _ => .ok amount).run set = .ok selected after ∧
      (selected ≠ [] ↔
        (∃ entry ∈ set.entries, entry.isSpendable height = true) ∧ amount ≤ before.spendable) ∧
      (selected ≠ [] → Pays height amount before selected after) ∧
      (selected = [] → after.balance height = .ok before) := by
  have realizes := set.selectInPlace_realizes height fun _ => .ok amount
  have all := value_coins summed
  have bound := before.spendable.toNat_lt_size
  rw [← coins_ne_nil_iff, UInt64.le_iff_toNat_le, ← all]
  rcases set.selectWith_cases height fun _ => .ok amount with
    ⟨count, _, -, decides, -⟩ | ⟨short, nothing⟩ |
    ⟨count, selected, left, reaches, decides, done, split⟩
  · -- The sum of all coins is an amount, so no number of them overflows.
    have within := worth_le_value (set.coins height) count
    cases decides with
    | overflow large => omega
    | refused _ failed => cases failed
  · refine ⟨[], set, nothing, realizes.ok_iff.mpr nothing, ?_, fun taken => absurd rfl taken,
      fun _ => summed⟩
    constructor
    · intro taken
      exact absurd rfl taken
    · rintro ⟨present, enough⟩
      -- All coins together are short too, and their worth is the sum.
      obtain ⟨_, same, less⟩ := short _ (List.length_pos_iff.mpr present) (Nat.le_refl _)
      cases same
      rw [worth, List.take_length] at less
      exact absurd enough (Nat.not_le.mpr less)
  · cases decides with
    | covered _ aimed enough =>
      cases aimed
      have within := worth_le_value (set.coins height) count
      have past := reaches.past
      have inside := reaches.inside
      have present : set.coins height ≠ [] := by
        rw [← List.length_pos_iff]
        omega
      have taken : (set.coins height).take count ≠ [] := by
        rw [← List.length_pos_iff, List.length_take_of_le inside]
        exact past
      exact ⟨_, _, done, realizes.ok_iff.mpr done,
        ⟨fun _ => ⟨present, Nat.le_trans enough within⟩, fun _ => taken⟩,
        fun _ => ⟨enough, reaches.needed, balance_taking summed split⟩,
        fun none => absurd none taken⟩

/-- The last coin is not worth much, but without it the amount is not covered; a frozen and a locked
entry stay. -/
theorem select_of_balance_scattered :
    let coin := fun (byte : UInt8) (kind : OutputType) (unlockHeight : UInt64) (amount : Amount) =>
      (⟨⟨List.replicate 64 byte, List.length_replicate⟩, kind, unlockHeight, amount,
        ⟨.key, []⟩⟩ : Unspent)
    let set := ofList [coin 1 .payment 0 30, coin 2 .freeze 0 100, coin 3 .payment 9 50,
      coin 4 .payment 6 5, coin 5 .payment 0 40]
    set.balance (some 5) = .ok ⟨75, 100, 50⟩ ∧
    ∃ selected after, set.select 35 (some 5) = .ok (selected, after) ∧ selected ≠ [] ∧
      Pays (some 5) 35 ⟨75, 100, 50⟩ selected after := by
  intro coin set
  have summed : set.balance (some 5) = .ok ⟨75, 100, 50⟩ := by decide +kernel
  obtain ⟨selected, after, returned, -, some_iff, pays, -⟩ :=
    select_of_balance set (some 5) 35 ⟨75, 100, 50⟩ summed
  have taken : selected ≠ [] :=
    some_iff.mpr ⟨⟨coin 1 .payment 0 30, by decide +kernel, by decide⟩, by decide⟩
  exact ⟨summed, selected, after, returned, taken, pays taken⟩

end UtxoLedger.WorkingSet
