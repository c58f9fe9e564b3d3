import Mathlib.Algebra.Order.Group.Multiset
import UtxoLedger.Proofs.WorkingSet.Reachable
import UtxoLedger.WorkingSet.Shared

/-!
# Interleaved calls on one working set

Clients share a working set through handles of their own and call it in any order. Whatever the
order, and whether a call returns coins, nothing or an error, the coins that were accepted are
the coins that are held together with those that were returned. So no coin gets lost, and none
is handed out twice. Clients that race for coins with one and the same call are such a run.
-/
namespace UtxoLedger

namespace WorkingSet

theorem add_entries (set : WorkingSet) (offered : List Unspent) :
    (set.add offered).entries = set.entries ++ set.accepted offered := by
  induction offered generalizing set with
  | nil => simp [add, accepted]
  | cons entry rest ih =>
    have next := ih (set.insert entry)
    rw [accepted]
    by_cases old : set.contains entry.utxo = true
    · have unchanged : set.insert entry = set := if_pos old
      rw [unchanged] at next
      simpa [add, old, unchanged] using next
    · have grown : (set.insert entry).entries = set.entries ++ [entry] := by
        simp [insert, old]
      rw [grown] at next
      simpa [add, old] using next

/-- A call moves coins between three places: those accepted go in, those returned come out. -/
theorem call_entries (set : WorkingSet) (request : Call) :
    (set.entries : Multiset Unspent) + (set.call request).accepted =
      (set.call request).set.entries + (set.call request).returned.toOption.getD [] := by
  cases request with
  | add offered => simp [call, add_entries, Except.toOption]
  | select height target =>
    cases selected : set.selectWith height target with
    | error error => simp [call, selected, Except.toOption]
    | ok found =>
      have moved := Multiset.coe_eq_coe.mpr (selectWith_perm selected)
      rw [← Multiset.coe_add, add_comm] at moved
      simpa [call, selected, Except.toOption] using moved.symm

theorem Coherent.call {set : WorkingSet} (coherent : set.Coherent) (request : Call) :
    (set.call request).set.Coherent := by
  cases request with
  | add offered => exact coherent.add offered
  | select height target =>
    cases selected : set.selectWith height target with
    | error error => simpa [WorkingSet.call, selected] using coherent
    | ok found =>
      have leaves := coherent.leaves_of_select selected
      simpa [WorkingSet.call, selected] using leaves.coherent

end WorkingSet

namespace SharedSets

/-- What a client does: it calls the set through a handle, or makes one more handle to it.
Selecting a fixed amount is a selection whose target ignores the number of entries. -/
inductive Action
  | clone (handle : Nat)
  | call (handle : Nat) (request : Call)

/-- The handles and their set at some moment, with the coins accepted until then and what each
call returned: nothing, if it added coins or failed. -/
structure Course where
  shared : SharedSets
  accepted : List Unspent
  returned : List (List Unspent)

namespace Course

/-- A set behind its first handle. What it holds was accepted before it was shared. -/
def start (set : WorkingSet) : Course :=
  ⟨single set, set.entries, []⟩

def next (course : Course) : Action → Course
  | .clone handle => { course with shared := (course.shared.clone handle).2 }
  | .call handle request =>
    let (returned, shared) := course.shared.call handle request
    { shared
      accepted := course.accepted ++ ((course.shared.set handle).call request).accepted
      returned := course.returned ++ [returned.toOption.getD []] }

def run (course : Course) (actions : List Action) : Course :=
  actions.foldl next course

/-- All handles lead to one set, and no coin is missing. -/
structure Sound (course : Course) (set : WorkingSet) : Prop where
  sets : course.shared.sets = [set]
  handles : ∀ number ∈ course.shared.handles, number = 0
  coherent : set.Coherent
  balanced : (course.accepted : Multiset Unspent) = set.entries + course.returned.flatten

variable {course : Course} {set : WorkingSet}

theorem sound_start (coherent : set.Coherent) : (start set).Sound set where
  sets := rfl
  handles := fun _ member => List.mem_singleton.mp member
  coherent := coherent
  balanced := (add_zero _).symm

theorem Sound.number (sound : course.Sound set) (handle : Nat) :
    course.shared.handles.getD handle 0 = 0 := by
  rw [List.getD_eq_getElem?_getD]
  cases found : course.shared.handles[handle]? with
  | none => rfl
  | some number => exact sound.handles number (List.mem_of_getElem? found)

theorem Sound.set_eq (sound : course.Sound set) (handle : Nat) : course.shared.set handle = set := by
  rw [SharedSets.set, sound.number, sound.sets]
  rfl

theorem Sound.next (sound : course.Sound set) (action : Action) :
    ∃ after, (course.next action).Sound after := by
  cases action with
  | clone handle =>
    refine ⟨set, sound.sets, fun number member => ?_, sound.coherent, sound.balanced⟩
    rcases List.mem_append.mp member with old | new
    · exact sound.handles number old
    · rw [List.mem_singleton.mp new]
      exact sound.number handle
  | call handle request =>
    refine ⟨(set.call request).set, ?_, sound.handles, sound.coherent.call request, ?_⟩
    · simp only [Course.next, SharedSets.call, sound.set_eq, sound.number, sound.sets]
      rfl
    · have moved := set.call_entries request
      simp only [Course.next, SharedSets.call, sound.set_eq, List.flatten_append,
        List.flatten_cons, List.flatten_nil, List.append_nil, ← Multiset.coe_add]
      calc (course.accepted : Multiset Unspent) + (set.call request).accepted
        _ = (set.entries + (set.call request).accepted) + course.returned.flatten := by
          rw [sound.balanced, add_right_comm]
        _ = (set.call request).set.entries +
            (course.returned.flatten + (set.call request).returned.toOption.getD []) := by
          rw [moved, add_assoc, add_comm (Multiset.ofList course.returned.flatten)]

theorem Sound.run (sound : course.Sound set) (actions : List Action) :
    ∃ final, (course.run actions).Sound final := by
  induction actions generalizing course set with
  | nil => exact ⟨set, sound⟩
  | cons action rest ih =>
    obtain ⟨after, moved⟩ := sound.next action
    exact ih moved

end Course

/-- A list that has such an element adds to the number of such elements. -/
private theorem countP_any_le {α : Type} (such : α → Bool) (lists : List (List α)) :
    (lists.countP fun list => list.any such) ≤ lists.flatten.countP such := by
  induction lists with
  | nil => exact Nat.le_refl _
  | cons list rest ih =>
    rw [List.flatten_cons, List.countP_append, List.countP_cons]
    by_cases present : list.any such = true
    · have one : 0 < list.countP such := by
        rw [List.countP_pos_iff]
        exact List.any_eq_true.mp present
      rw [if_pos present]
      omega
    · rw [if_neg present]
      omega

/-- No coin is lost and none is handed out twice, where `held` is what the handles lead to. -/
structure Course.Conserves (course : Course) (held : WorkingSet) : Prop where
  balanced : (course.accepted : Multiset Unspent) = held.entries + course.returned.flatten
  contains_iff : ∀ key, held.contains key = true ↔ ∃ entry ∈ held.entries, entry.utxo = key
  once : ∀ key, (course.accepted.countP fun entry => entry.utxo = key) ≤ 1 →
    (course.returned.countP fun selection => selection.any fun entry => entry.utxo = key) ≤ 1 ∧
    (held.contains key = true →
      ∀ selection ∈ course.returned, ∀ entry ∈ selection, entry.utxo ≠ key)

theorem run_conserves (initial : WorkingSet) (reachable : initial.Reachable)
    (actions : List Action) (handle : Nat) :
    let course := (Course.start initial).run actions
    course.Conserves (course.shared.set handle) := by
  intro course
  obtain ⟨held, sound⟩ := (Course.sound_start reachable.coherent).run actions
  have balanced : (course.accepted : Multiset Unspent) =
      held.entries + course.returned.flatten := sound.balanced
  rw [sound.set_eq handle]
  refine ⟨balanced, fun key => sound.coherent.contains_iff, fun key once => ?_⟩
  -- A coin with the key is held or was returned, and there is only one.
  have counted : (course.accepted.countP fun entry => entry.utxo = key) =
      (held.entries.countP fun entry => entry.utxo = key) +
        course.returned.flatten.countP fun entry => entry.utxo = key := by
    rw [← List.countP_append]
    exact (Multiset.coe_eq_coe.mp balanced).countP_eq _
  have selections := countP_any_le (fun entry : Unspent => entry.utxo = key) course.returned
  refine ⟨by omega, fun present selection member entry inside equal => ?_⟩
  obtain ⟨kept, among, keyed⟩ := sound.coherent.contains_iff.mp present
  have still : 0 < held.entries.countP fun entry => entry.utxo = key :=
    List.countP_pos_iff.mpr ⟨kept, among, decide_eq_true keyed⟩
  have gone : 0 < course.returned.flatten.countP fun entry => entry.utxo = key :=
    List.countP_pos_iff.mpr ⟨entry, List.mem_flatten_of_mem member inside, decide_eq_true equal⟩
  omega

/-- Two handles; one offered key is held already, one call fails, and a coin comes back after it
was returned. -/
theorem run_conserves_two_clients :
    let coin := fun (byte : UInt8) (amount : Amount) =>
      (⟨⟨List.replicate 64 byte, List.length_replicate⟩, .payment, 0, amount, ⟨.key, []⟩⟩ : Unspent)
    let initial := WorkingSet.ofList [coin 1 10]
    let actions := [.clone 0, .call 1 (.add [coin 2 20, coin 1 99, coin 3 40]),
      .call 0 (.select none fun _ => .ok 25), .call 1 (.select none fun _ => .error .overflow),
      .call 0 (.add [coin 1 10])]
    let course := (Course.start initial).run actions
    initial.Reachable ∧
    course.returned = [[], [coin 1 10, coin 2 20], [], []] ∧
    (course.shared.set 1).entries = [coin 3 40, coin 1 10] ∧
    course.Conserves (course.shared.set 1) := by
  intro coin initial actions course
  have reachable : initial.Reachable := .add .empty _
  exact ⟨reachable, by decide +kernel, by decide +kernel, run_conserves initial reachable actions 1⟩

/-! ## Clients that race -/

/-- Clients that race make their calls one after another, and those that get nothing drop out. -/
theorem race_eq_run (course : Course) (handle : Nat) (request : Call) (clients : Nat) :
    let final := course.run (List.replicate clients (.call handle request))
    (course.shared.race handle request clients).2 = final.shared ∧
    final.returned.filter (fun selection => !selection.isEmpty) =
      course.returned.filter (fun selection => !selection.isEmpty) ++
        (course.shared.race handle request clients).1 := by
  -- The first call is made on another set than those after it.
  induction clients generalizing course with
  | zero => simp [race, Course.run]
  | succ clients ih =>
    obtain ⟨shared, returned⟩ := ih (course.next (.call handle request))
    simp only [Course.run, List.replicate_succ, List.foldl_cons] at shared returned ⊢
    rw [← shared, returned, race]
    simp only [Course.next, List.filter_append, List.append_assoc]
    -- Only a selection with something in it is kept on either side.
    rcases (course.shared.call handle request).1 with error | _ | ⟨entry, rest⟩ <;>
      simp [Except.toOption]

theorem accepted_of_selections (course : Course) (handle clients : Nat) (height : Option UInt64)
    (target : Target) :
    (course.run (List.replicate clients (.call handle (.select height target)))).accepted =
      course.accepted := by
  induction clients generalizing course with
  | zero => rfl
  | succ clients ih =>
    have nothing : ((course.shared.set handle).call (.select height target)).accepted = [] := by
      rw [WorkingSet.call]
      split <;> rfl
    have next := ih (course.next (.call handle (.select height target)))
    simpa [Course.run, List.replicate_succ, Course.next, nothing] using next

/-- Of the coins that clients race for, each one is left or went to one of them. -/
theorem race_conserves (initial : WorkingSet) (reachable : initial.Reachable)
    (handle clients : Nat) (height : Option UInt64) (target : Target) :
    let raced := (single initial).race handle (.select height target) clients
    (initial.entries : Multiset Unspent) = (raced.2.set handle).entries + raced.1.flatten := by
  intro raced
  obtain ⟨held, sound⟩ := (Course.sound_start reachable.coherent).run
    (List.replicate clients (.call handle (.select height target)))
  obtain ⟨shared, returned⟩ :=
    race_eq_run (.start initial) handle (.select height target) clients
  have balanced := sound.balanced
  -- Selections accept nothing, and the empty ones that dropped out hold no coin.
  rw [accepted_of_selections, ← List.flatten_filter_not_isEmpty, returned] at balanced
  have leads : raced.2.set handle = held := by
    rw [← sound.set_eq handle, ← shared]
    rfl
  rw [leads]
  exact balanced

/-- A fresh handle leads to a set of its own. It is empty, and whatever is called on it is not seen
through the handles that were there. -/
theorem fresh_apart (shared : SharedSets)
    (valid : ∀ number ∈ shared.handles, number < shared.sets.length) (request : Call)
    {handle : Nat} (known : handle < shared.handles.length) :
    let (own, after) := shared.fresh
    after.set own = .empty ∧ after.set handle = shared.set handle ∧
    (after.call own request).2.set handle = shared.set handle := by
  -- The new set stands behind those that the handles lead to.
  have inside := valid _ (List.getElem_mem known)
  refine ⟨?_, ?_, ?_⟩
  · simp [set]
  · simp [set, List.getElem?_append_left, known, inside]
  · simp [set, call, List.getElem?_append_left, known, inside]

end SharedSets

end UtxoLedger
