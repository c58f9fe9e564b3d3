import Mathlib.Algebra.Order.Ring.Nat
import Mathlib.Algebra.Order.Ring.Unbundled.Basic
import Mathlib.Data.Nat.Sqrt
import UtxoLedger.Fee.Payload
import UtxoLedger.Proofs.Amount.Exact

/-!
# Roots by descent

The estimates of a root start at the number itself. None of them is below the root, and what they
are above it is at least halved from one to the next. An estimate that is not followed by a smaller
one is not above the root either. So after 64 turns at most the descent is over, at the root. On the
way an estimate and its share of the number come to one more than the number at most, and this is a
word unless the number is the largest word there is.
-/
namespace UtxoLedger.Payload

/-- What keeps a loop over words from its result. -/
inductive Fault
  | overflow
  | divisionByZero
  | outOfTurns
  deriving DecidableEq, Repr

/-- With the number as its area, a rectangle has the estimate as one side and this as the other. -/
def share (n estimate : UInt64) : Except Fault UInt64 :=
  if estimate = 0 then .error .divisionByZero else .ok (n / estimate)

def mean (left right : UInt64) : Except Fault UInt64 := do
  let sum ← (Amount.checkedAdd left right).mapError fun _ => .overflow
  return sum / 2

/-- The descent in so many turns at most, stopped by the first word that cannot be had. -/
def descendWithin (n : UInt64) : Nat → UInt64 → UInt64 → Except Fault UInt64
  | 0, estimate, next => if next < estimate then .error .outOfTurns else .ok estimate
  | turns + 1, estimate, next =>
    if next < estimate then do
      let quotient ← share n next
      let following ← mean next quotient
      descendWithin n turns next following
    else .ok estimate

def isqrtWithin (turns : Nat) (n : UInt64) : Except Fault UInt64 :=
  if n < 2 then .ok n else do
    let next ← mean n 1
    descendWithin n turns n next

section Newton

/-- The next estimate where numbers have no bound. -/
def newton (n estimate : Nat) : Nat :=
  (estimate + n / estimate) / 2

variable {n estimate : Nat}

/-- The arithmetic mean of an estimate and its share is not below the geometric one. -/
theorem sqrt_le_newton (some : 0 < estimate) : n.sqrt ≤ newton n estimate := by
  have squares := two_mul_le_add_sq n.sqrt estimate
  have root := Nat.sqrt_le' n
  have doubled : 2 * n.sqrt ≤ (n + estimate * estimate) / estimate := by
    rw [Nat.le_div_iff_mul_le some, ← Nat.pow_two]
    omega
  rw [Nat.add_mul_div_right _ _ some] at doubled
  unfold newton
  omega

theorem le_sqrt_of_le_newton (stays : estimate ≤ newton n estimate) : estimate ≤ n.sqrt := by
  unfold newton at stays
  have covered : estimate ≤ n / estimate := by omega
  exact Nat.le_sqrt.mpr (Nat.mul_le_of_le_div _ _ _ covered)

theorem newton_sub_sqrt_le (above : n.sqrt < estimate) :
    newton n estimate - n.sqrt ≤ (estimate - n.sqrt) / 2 := by
  -- An estimate above the root has a share that is not.
  have share : n / estimate ≤ n.sqrt := by
    rw [← Nat.lt_succ_iff]
    apply Nat.div_lt_of_lt_mul
    exact Nat.lt_of_lt_of_le (Nat.lt_succ_sqrt n) (Nat.mul_le_mul_right _ above)
  unfold newton
  omega

theorem add_div_le_succ (some : 0 < estimate) (le : estimate ≤ n) :
    estimate + n / estimate ≤ n + 1 := by
  -- Neither of the two is zero, so their sum is not much above their product.
  have product := Nat.div_mul_le_self n estimate
  obtain ⟨side, rfl⟩ := Nat.exists_eq_add_one_of_ne_zero (Nat.ne_of_gt some)
  obtain ⟨other, quotient⟩ := Nat.exists_eq_add_one_of_ne_zero
    (Nat.ne_of_gt (Nat.div_pos le some))
  rw [quotient, Nat.add_mul, Nat.mul_add] at product
  omega

end Newton

section Words

variable {n estimate next root left right : UInt64}

theorem share_ok_iff {quotient : UInt64} :
    share n estimate = .ok quotient ↔ 0 < estimate.toNat ∧ quotient = n / estimate := by
  rw [Amount.toNat_pos_iff, share]
  split
  next none => simp [none]
  next some => simp [some, eq_comm]

theorem mean_ok_iff {half : UInt64} :
    mean left right = .ok half ↔
      left.toNat + right.toNat < UInt64.size ∧ half = (left + right) / 2 := by
  unfold mean
  simp only [Except.bind_ok_iff, Except.mapError_ok_iff, Amount.checkedAdd_ok_iff]
  constructor
  · rintro ⟨sum, exact, returned⟩
    have fits := sum.toNat_lt_size
    rw [exact] at fits
    cases returned
    refine ⟨fits, congrArg (· / 2) (UInt64.toNat_inj.mp ?_)⟩
    rw [exact, Amount.toNat_add fits]
  · rintro ⟨fits, rfl⟩
    exact ⟨left + right, Amount.toNat_add fits, rfl⟩

theorem toNat_mean (fits : left.toNat + right.toNat < UInt64.size) :
    ((left + right) / 2).toNat = (left.toNat + right.toNat) / 2 := by
  rw [UInt64.toNat_div, Amount.toNat_add fits]
  rfl

/-- A descent that is over in time is the one without a limit. -/
theorem descend_of_within {turns : Nat} (ended : descendWithin n turns estimate next = .ok root) :
    descend n estimate next = root := by
  fun_induction descendWithin n turns estimate next with
  | case1 estimate next falls => cases ended
  | case2 estimate next stays | case4 _ estimate next stays =>
    rw [descend, if_neg stays]
    exact Except.ok.inj ended
  | case3 turns estimate next falls ih =>
    simp only [Except.bind_ok_iff, share_ok_iff, mean_ok_iff] at ended
    obtain ⟨quotient, ⟨-, rfl⟩, following, ⟨-, rfl⟩, ended⟩ := ended
    rw [descend, if_pos falls]
    exact ih _ ended

end Words

/-- Two estimates in a row: the first one is not below the root, and the second one is its next. -/
structure Descends (n estimate next : UInt64) : Prop where
  some : 0 < n.toNat
  root_le : n.toNat.sqrt ≤ estimate.toNat
  le : estimate.toNat ≤ n.toNat
  follows : next.toNat = newton n.toNat estimate.toNat

namespace Descends

variable {n estimate next : UInt64} (descends : Descends n estimate next)
include descends

theorem pos : 0 < estimate.toNat :=
  Nat.lt_of_lt_of_le (Nat.sqrt_pos.mpr descends.some) descends.root_le

theorem root_le_next : n.toNat.sqrt ≤ next.toNat := by
  rw [descends.follows]
  exact sqrt_le_newton descends.pos

theorem eq_root (stays : ¬next < estimate) : estimate.toNat = n.toNat.sqrt := by
  rw [UInt64.lt_iff_toNat_lt, descends.follows, Nat.not_lt] at stays
  exact Nat.le_antisymm (le_sqrt_of_le_newton stays) descends.root_le

/-- A turn has all its words, and what is left above the root is at least halved. -/
theorem turn (falls : next < estimate) (below : n.toNat < 2 ^ 64 - 1) :
    ∃ quotient following, share n next = .ok quotient ∧ mean next quotient = .ok following ∧
      Descends n next following ∧
      next.toNat - n.toNat.sqrt ≤ (estimate.toNat - n.toNat.sqrt) / 2 := by
  rw [UInt64.lt_iff_toNat_lt] at falls
  have root_le := descends.root_le_next
  have some := Nat.lt_of_lt_of_le (Nat.sqrt_pos.mpr descends.some) root_le
  have le := Nat.le_trans (Nat.le_of_lt falls) descends.le
  have fits : next.toNat + (n / next).toNat < UInt64.size := by
    rw [UInt64.toNat_div]
    exact Nat.lt_of_le_of_lt (add_div_le_succ some le) (Nat.add_lt_of_lt_sub below)
  have half := toNat_mean fits
  rw [UInt64.toNat_div] at half
  refine ⟨n / next, (next + n / next) / 2, share_ok_iff.mpr ⟨some, rfl⟩,
    mean_ok_iff.mpr ⟨fits, rfl⟩, ⟨descends.some, root_le, le, half⟩, ?_⟩
  rw [descends.follows]
  exact newton_sub_sqrt_le (Nat.lt_of_le_of_lt root_le falls)

/-- So many turns are enough for what can be halved so many times. -/
theorem ends {turns : Nat} (near : estimate.toNat - n.toNat.sqrt < 2 ^ turns)
    (below : n.toNat < 2 ^ 64 - 1) :
    ∃ root, descendWithin n turns estimate next = .ok root ∧ root.toNat = n.toNat.sqrt := by
  induction turns generalizing estimate next with
  | zero =>
    -- Nothing is left above the root, so the next estimate is not smaller.
    have stays : ¬next < estimate := by
      have root_le := descends.root_le_next
      rw [UInt64.lt_iff_toNat_lt]
      omega
    exact ⟨estimate, if_neg stays, descends.eq_root stays⟩
  | succ turns ih =>
    by_cases falls : next < estimate
    · obtain ⟨quotient, following, shared, halved, further, less⟩ := descends.turn falls below
      obtain ⟨root, ended, exact⟩ := ih further (by rw [Nat.pow_succ] at near; omega)
      refine ⟨root, ?_, exact⟩
      rw [descendWithin, if_pos falls]
      exact Except.bind_ok_iff.mpr ⟨_, shared, Except.bind_ok_iff.mpr ⟨_, halved, ended⟩⟩
    · refine ⟨estimate, ?_, descends.eq_root falls⟩
      rw [descendWithin, if_neg falls]

end Descends

/-- The number is its own first estimate, and its share is one. -/
theorem descends_start {n : UInt64} (some : 0 < n.toNat) (below : n.toNat < 2 ^ 64 - 1) :
    ∃ next, mean n 1 = .ok next ∧ Descends n n next := by
  have fits : n.toNat + (1 : UInt64).toNat < UInt64.size := Nat.add_lt_of_lt_sub below
  refine ⟨(n + 1) / 2, mean_ok_iff.mpr ⟨fits, rfl⟩, some, Nat.sqrt_le_self _, Nat.le_refl _, ?_⟩
  rw [toNat_mean fits, newton, Nat.div_self some]
  rfl

/-- The descent to the root of any number but the largest word is over after 64 turns at most. All
sums on the way are words and no divisor is zero, and its end is the integer part of the root. -/
theorem isqrt_reaches_root (n : UInt64) (below : n.toNat < 2 ^ 64 - 1) :
    isqrtWithin 64 n = .ok (isqrt n) ∧
    (isqrt n).toNat * (isqrt n).toNat ≤ n.toNat ∧
    n.toNat < ((isqrt n).toNat + 1) * ((isqrt n).toNat + 1) := by
  have small_iff : n < 2 ↔ n.toNat < 2 := UInt64.lt_iff_toNat_lt
  rw [← Nat.eq_sqrt, isqrtWithin, isqrt]
  by_cases small : n < 2
  · rw [if_pos small, if_pos small]
    refine ⟨rfl, ?_⟩
    rcases Nat.le_one_iff_eq_zero_or_eq_one.mp (Nat.le_of_lt_succ (small_iff.mp small)) with
      zero | one
    · rw [zero, Nat.sqrt_zero]
    · rw [one, Nat.sqrt_one]
  · rw [if_neg small, if_neg small]
    have large : ¬n.toNat < 2 := mt small_iff.mpr small
    have some : 0 < n.toNat := by omega
    obtain ⟨next, halved, descends⟩ := descends_start some below
    have near : n.toNat - n.toNat.sqrt < 2 ^ 64 := by omega
    obtain ⟨root, ended, exact⟩ := descends.ends near below
    obtain ⟨-, rfl⟩ := mean_ok_iff.mp halved
    rw [descend_of_within ended]
    exact ⟨Except.bind_ok_iff.mpr ⟨_, halved, ended⟩, exact⟩

/-- The number before the largest word has the largest root there is. -/
theorem isqrt_reaches_root_largest :
    (18446744073709551614 : UInt64).toNat < 2 ^ 64 - 1 ∧
    isqrtWithin 64 18446744073709551614 = .ok 4294967295 ∧
    isqrt 18446744073709551614 = 4294967295 := by
  have below : (18446744073709551614 : UInt64).toNat < 2 ^ 64 - 1 := by decide +kernel
  obtain ⟨ended, -⟩ := isqrt_reaches_root 18446744073709551614 below
  have root : isqrtWithin 64 18446744073709551614 = .ok 4294967295 := by decide +kernel
  exact ⟨below, root, Except.ok.inj (ended.symm.trans root)⟩

/-- The one sum that is no word is the very first one. -/
example : isqrtWithin 64 18446744073709551615 = .error .overflow := by decide +kernel

end UtxoLedger.Payload
