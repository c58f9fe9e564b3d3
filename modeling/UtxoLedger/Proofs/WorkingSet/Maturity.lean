import Mathlib.Algebra.BigOperators.Group.List.Basic
import UtxoLedger.Proofs.WorkingSet.Balance

/-!
# Balances over time

A payment is mature one block before its unlock height, counted in integers: the saturating
successor of a height is the exact one wherever an unlock height can tell the difference. A balance
shares all entries out by this rule. Its sums depend on nothing but the shares, so neither the
order of the entries nor an overflow on the way matters, and as blocks are added value only
moves from the locked payments to the spendable ones.
-/
namespace UtxoLedger

theorem Amount.saturatingSucc_toNat (value : Amount) :
    (saturatingSucc value).toNat = min (value.toNat + 1) (UInt64.size - 1) := by
  have bound := value.toNat_lt_size
  unfold saturatingSucc
  split
  next fits =>
    have exact : (value + 1).toNat = value.toNat + 1 := toNat_add fits
    omega
  next last => omega

/-- From the block before the unlock height on, which may be the one before the first. -/
def Unspent.MatureAt (entry : Unspent) : Option UInt64 → Prop
  | none => True
  | some height => (entry.unlockHeight.toNat : Int) - 1 ≤ height.toNat

instance (entry : Unspent) : (height : Option UInt64) → Decidable (entry.MatureAt height)
  | none => inferInstanceAs (Decidable True)
  | some height => inferInstanceAs (Decidable ((entry.unlockHeight.toNat : Int) - 1 ≤ height.toNat))

theorem Unspent.isMature_iff {entry : Unspent} {height : Option UInt64} :
    entry.isMature height = true ↔ entry.MatureAt height := by
  cases height with
  | none => simp [isMature, MatureAt]
  | some height =>
    -- The successor saturates at the largest height, which no unlock height is above.
    have bound := entry.unlockHeight.toNat_lt_size
    simp only [isMature, MatureAt, decide_eq_true_eq, UInt64.le_iff_toNat_le,
      Amount.saturatingSucc_toNat]
    omega

theorem Unspent.MatureAt.later {entry : Unspent} {height later : UInt64}
    (mature : entry.MatureAt (some height)) (le : height ≤ later) :
    entry.MatureAt (some later) := by
  have exact := UInt64.le_iff_toNat_le.mp le
  unfold MatureAt at mature ⊢
  omega

namespace WorkingSet

variable {height : Option UInt64} {held others : List Unspent}

theorem value_filter_add_filter_not (chosen : Unspent → Prop) [DecidablePred chosen]
    (held : List Unspent) :
    value (held.filter fun entry => chosen entry) +
        value (held.filter fun entry => ¬chosen entry) = value held := by
  simpa [value, Amount.total, Function.comp_def] using
    List.sum_map_filter_add_sum_map_filter_not chosen (fun entry => entry.amount.toNat) held

theorem value_filter_and (wider chosen : Unspent → Prop) [DecidablePred wider]
    [DecidablePred chosen] (held : List Unspent) :
    value (held.filter fun entry => wider entry ∧ chosen entry) +
        value (held.filter fun entry => wider entry ∧ ¬chosen entry) =
      value (held.filter fun entry => wider entry) := by
  rw [← value_filter_add_filter_not chosen (held.filter fun entry => wider entry),
    List.filter_filter, List.filter_filter]
  simp [Bool.and_comm]

namespace Bucket

/-- What the entries of a sum are, said of the entries themselves. -/
def Holds (height : Option UInt64) (entry : Unspent) : Bucket → Prop
  | .spendable => entry.kind = .payment ∧ entry.MatureAt height
  | .frozen => entry.kind = .freeze
  | .locked => entry.kind = .payment ∧ ¬entry.MatureAt height

instance (height : Option UInt64) (entry : Unspent) :
    (bucket : Bucket) → Decidable (bucket.Holds height entry)
  | .spendable => inferInstanceAs (Decidable (_ ∧ _))
  | .frozen => inferInstanceAs (Decidable (_ = _))
  | .locked => inferInstanceAs (Decidable (_ ∧ ¬_))

/-- A sum without a bound. -/
def exact (bucket : Bucket) (height : Option UInt64) (held : List Unspent) : Nat :=
  value (held.filter fun entry => bucket.Holds height entry)

theorem holds_iff {entry : Unspent} {bucket : Bucket} :
    bucket.Holds height entry ↔ ofEntry height entry = bucket := by
  have mature : entry.isMature height = true ↔ entry.MatureAt height := Unspent.isMature_iff
  cases kind : entry.kind with
  | freeze => cases bucket <;> simp [Holds, ofEntry, kind]
  | payment =>
    by_cases now : entry.MatureAt height
    · cases bucket <;> simp [Holds, ofEntry, kind, now, mature.mpr now]
    · cases bucket <;> simp [Holds, ofEntry, kind, now, mt mature.mp now]

theorem exact_eq (bucket : Bucket) (height : Option UInt64) (held : List Unspent) :
    bucket.exact height held = value (bucket.entries height held) := by
  refine congrArg value (List.filter_congr fun entry _ => ?_)
  exact decide_eq_decide.mpr holds_iff

theorem exact_perm (same : held.Perm others) (bucket : Bucket) (height : Option UInt64) :
    bucket.exact height held = bucket.exact height others :=
  value_perm (same.filter _)

/-- Stake does not mature. -/
theorem exact_frozen (height later : Option UInt64) (held : List Unspent) :
    Bucket.frozen.exact height held = Bucket.frozen.exact later held := rfl

/-- The mature payments and the other ones are all payments, whatever the height. -/
theorem exact_payments (height : Option UInt64) (held : List Unspent) :
    Bucket.spendable.exact height held + Bucket.locked.exact height held =
      value (held.filter fun entry => entry.kind = .payment) :=
  value_filter_and _ _ held

theorem exact_partition (height : Option UInt64) (held : List Unspent) :
    Bucket.spendable.exact height held + Bucket.frozen.exact height held +
      Bucket.locked.exact height held = value held := by
  have stake : Bucket.frozen.exact height held =
      value (held.filter fun entry => ¬entry.kind = .payment) := by
    refine congrArg value (List.filter_congr fun entry _ => decide_eq_decide.mpr ?_)
    cases kind : entry.kind <;> simp [Holds, kind]
  rw [Nat.add_right_comm, exact_payments, stake]
  exact value_filter_add_filter_not _ held

theorem exact_spendable_mono {height later : UInt64} (le : height ≤ later) (held : List Unspent) :
    Bucket.spendable.exact (some height) held ≤ Bucket.spendable.exact (some later) held := by
  -- What is mature early is what is mature late, but for the payments that mature in between.
  have early : Bucket.spendable.exact (some height) held =
      value (held.filter fun entry => Bucket.spendable.Holds (some later) entry ∧
        entry.MatureAt (some height)) := by
    refine congrArg value (List.filter_congr fun entry _ => decide_eq_decide.mpr ?_)
    constructor
    · rintro ⟨payment, mature⟩
      exact ⟨⟨payment, mature.later le⟩, mature⟩
    · rintro ⟨⟨payment, -⟩, mature⟩
      exact ⟨payment, mature⟩
  have parted := value_filter_and (fun entry => Bucket.spendable.Holds (some later) entry)
    (fun entry => entry.MatureAt (some height)) held
  rw [early]
  exact Nat.le.intro parted

/-- Once all payments are mature, a height makes no difference any more. -/
theorem exact_of_mature {height : UInt64}
    (mature : ∀ entry ∈ held, entry.kind = .payment → entry.MatureAt (some height))
    (bucket : Bucket) : bucket.exact (some height) held = bucket.exact none held := by
  refine congrArg value (List.filter_congr fun entry member => decide_eq_decide.mpr ?_)
  have always : entry.MatureAt none := trivial
  cases bucket with
  | spendable =>
    exact and_congr_right fun payment => iff_of_true (mature entry member payment) always
  | frozen => rfl
  | locked =>
    exact and_congr_right fun payment =>
      not_congr (iff_of_true (mature entry member payment) always)

end Bucket

section Balance

variable {set other : WorkingSet} {later : Option UInt64}

theorem balance_exact_iff {sums : Balance} :
    set.balance height = .ok sums ↔
      ∀ bucket : Bucket, (bucket.get sums).toNat = bucket.exact height set.entries := by
  simp only [Bucket.exact_eq]
  exact balance_ok_iff

theorem balance_isOk_iff :
    (∃ sums, set.balance height = .ok sums) ↔
      ∀ bucket : Bucket, bucket.exact height set.entries < UInt64.size := by
  constructor
  · rintro ⟨sums, summed⟩ bucket
    rw [← balance_exact_iff.mp summed bucket]
    exact (bucket.get sums).toNat_lt_size
  · intro fits
    let total (bucket : Bucket) : Amount := UInt64.ofNat (bucket.exact height set.entries)
    refine ⟨⟨total .spendable, total .frozen, total .locked⟩, balance_exact_iff.mpr ?_⟩
    intro bucket
    cases bucket <;> exact UInt64.toNat_ofNat_of_lt' (fits _)

private theorem overflow_of_count {before : Balance} {entry : Unspent} {error : AmountError}
    (failed : Balance.count height before entry = .error error) : error = .overflow := by
  rw [count_eq] at failed
  cases added : Amount.checkedAdd ((Bucket.ofEntry height entry).get before) entry.amount with
  | ok total => simp [added, Except.map] at failed
  | error reason =>
    simp only [added, Except.map, Except.error.injEq] at failed
    exact failed ▸ (Amount.checkedAdd_error_iff.mp added).2

private theorem overflow_of_foldlM {before : Balance} {error : AmountError}
    (failed : held.foldlM (Balance.count height) before = .error error) : error = .overflow := by
  induction held generalizing before with
  | nil => cases failed
  | cons entry rest ih =>
    rw [List.foldlM_cons] at failed
    cases counted : Balance.count height before entry with
    | ok middle =>
      rw [counted] at failed
      exact ih failed
    | error reason =>
      rw [counted] at failed
      cases failed
      exact overflow_of_count counted

/-- Nothing but the exact sums makes a difference to a balance. -/
theorem balance_congr
    (same : ∀ bucket : Bucket,
      bucket.exact height set.entries = bucket.exact later other.entries) :
    set.balance height = other.balance later := by
  cases first : set.balance height with
  | ok sums =>
    refine (balance_exact_iff.mpr fun bucket => ?_).symm
    rw [balance_exact_iff.mp first bucket, same]
  | error error =>
    -- Where one of the two overflows the other does too, and there is only one overflow.
    cases second : other.balance later with
    | ok sums =>
      have given : set.balance height = .ok sums := balance_exact_iff.mpr fun bucket => by
        rw [balance_exact_iff.mp second bucket, same]
      cases first.symm.trans given
    | error reason => rw [overflow_of_foldlM first, overflow_of_foldlM second]

end Balance

/-- From one balance to a later one: stake stays, and payments become spendable. -/
structure Matures (early late : Balance) : Prop where
  frozen : late.frozen = early.frozen
  payments : late.spendable.toNat + late.locked.toNat =
    early.spendable.toNat + early.locked.toNat
  spendable : early.spendable ≤ late.spendable

theorem matures_of_le {set : WorkingSet} {height later : UInt64} {early late : Balance}
    (le : height ≤ later) (before : set.balance (some height) = .ok early)
    (after : set.balance (some later) = .ok late) : Matures early late := by
  have earlier := balance_exact_iff.mp before
  have sums := balance_exact_iff.mp after
  constructor
  · apply UInt64.toNat_inj.mp
    calc late.frozen.toNat
        = Bucket.frozen.exact (some later) set.entries := sums .frozen
      _ = Bucket.frozen.exact (some height) set.entries := Bucket.exact_frozen _ _ _
      _ = early.frozen.toNat := (earlier .frozen).symm
  · calc late.spendable.toNat + late.locked.toNat
        = Bucket.spendable.exact (some later) set.entries +
            Bucket.locked.exact (some later) set.entries :=
          congrArg₂ (· + ·) (sums .spendable) (sums .locked)
      _ = Bucket.spendable.exact (some height) set.entries +
            Bucket.locked.exact (some height) set.entries := by
          rw [Bucket.exact_payments, Bucket.exact_payments]
      _ = early.spendable.toNat + early.locked.toNat :=
          (congrArg₂ (· + ·) (earlier .spendable) (earlier .locked)).symm
  · have grows := Bucket.exact_spendable_mono le set.entries
    rw [← sums .spendable, ← earlier .spendable] at grows
    exact UInt64.le_iff_toNat_le.mpr grows

/-- A balance shares out all that is held, and it is given as soon as each share is an amount, in
whatever order the entries are. With the height value moves to the spendable payments alone, until
all of them are mature and no height makes a difference. -/
theorem balance_matures (set : WorkingSet) :
    (∀ height : Option UInt64,
      ((∃ sums, set.balance height = .ok sums) ↔
        ∀ bucket : Bucket, bucket.exact height set.entries < UInt64.size) ∧
      (∀ sums, set.balance height = .ok sums →
        ∀ bucket : Bucket, (bucket.get sums).toNat = bucket.exact height set.entries) ∧
      Bucket.spendable.exact height set.entries + Bucket.frozen.exact height set.entries +
        Bucket.locked.exact height set.entries = value set.entries ∧
      ∀ other : WorkingSet, other.entries.Perm set.entries →
        other.balance height = set.balance height) ∧
    (∀ (height later : UInt64) (early late : Balance), height ≤ later →
      set.balance (some height) = .ok early → set.balance (some later) = .ok late →
        Matures early late) ∧
    ∀ height : UInt64,
      (∀ entry ∈ set.entries, entry.kind = .payment →
        (entry.unlockHeight.toNat : Int) - 1 ≤ height.toNat) →
      set.balance (some height) = set.balance none := by
  refine ⟨fun height => ⟨balance_isOk_iff, fun sums => balance_exact_iff.mp,
    Bucket.exact_partition height set.entries, fun other same => ?_⟩,
    fun _ _ _ _ le => matures_of_le le, fun height mature => ?_⟩
  · exact balance_congr fun bucket => Bucket.exact_perm same bucket height
  · exact balance_congr fun bucket => Bucket.exact_of_mature mature bucket

/-- A payment without an unlock height is mature before the first block, and one with the largest
is mature one block before the last. -/
theorem balance_matures_last_block :
    let coin := fun (byte : UInt8) (kind : OutputType) (unlockHeight : UInt64) (amount : Amount) =>
      (⟨⟨List.replicate 64 byte, List.length_replicate⟩, kind, unlockHeight, amount,
        ⟨.key, []⟩⟩ : Unspent)
    let set := ofList [coin 1 .payment 0 1, coin 2 .freeze 7 20,
      coin 3 .payment 18446744073709551615 300, coin 4 .payment 6 4000]
    let reversed := ofList [coin 4 .payment 6 4000, coin 3 .payment 18446744073709551615 300,
      coin 2 .freeze 7 20, coin 1 .payment 0 1]
    set.balance (some 5) = .ok ⟨4001, 20, 300⟩ ∧ reversed.balance (some 5) = set.balance (some 5) ∧
    set.balance (some 18446744073709551613) = .ok ⟨4001, 20, 300⟩ ∧
    set.balance (some 18446744073709551615) = .ok ⟨4301, 20, 0⟩ ∧
    Matures ⟨4001, 20, 300⟩ ⟨4301, 20, 0⟩ ∧ set.balance none = .ok ⟨4301, 20, 0⟩ := by
  intro coin set reversed
  have early : set.balance (some 5) = .ok ⟨4001, 20, 300⟩ := by decide +kernel
  have late : set.balance (some 18446744073709551615) = .ok ⟨4301, 20, 0⟩ := by decide +kernel
  obtain ⟨shares, matures, always⟩ := balance_matures set
  obtain ⟨-, -, -, ordered⟩ := shares (some 5)
  have same : reversed.entries.Perm set.entries := by decide +kernel
  have none_eq := always 18446744073709551615 (by decide +kernel)
  exact ⟨early, ordered reversed same, by decide +kernel, late,
    matures _ _ _ _ (by decide) early late, none_eq ▸ late⟩

end WorkingSet

end UtxoLedger
