import Mathlib.Algebra.GroupWithZero.Nat
import UtxoLedger.Proofs.InPlace
import UtxoLedger.Script.Stack

/-!
# Stacks account for their bytes

A stack counts its bytes in a word, which a push adds to and a pop takes from; neither looks at the
items below. Over any run of requests to a stack and to copies of it, the word is the exact sum of
the lengths, it stays within the limits the stack was made with, and no request reaches a stack
other than its own. Only because the word is exact does it never wrap.
-/
namespace UtxoLedger.Stack

open InPlace

inductive Request
  | push (item : Bytes)
  | pop
  | peek
  | canPush (item : Bytes)

inductive Answer
  | pushed
  | item (item : Bytes)
  | fits (fits : Bool)

/-- A request answered, with the stack as it is then. -/
def respond (stack : Stack) : Request → Except ScriptError (Answer × Stack)
  | .push item => (stack.push item).map fun after => (.pushed, after)
  | .pop => stack.pop.map fun (item, after) => (.item item, after)
  | .peek => stack.peek.map fun item => (.item item, stack)
  | .canPush item => .ok (.fits (stack.canPush item), stack)

/-- A request to a stack in place. A push counts the bytes before it stores the item, a pop takes
the item before it counts. -/
def Request.call : Request → EStateM ScriptError Stack Answer
  | .push item => do
    let stack ← get
    if ¬stack.canPush item then
      throw (.stackOverflow item.length stack.used stack.limits.maxTotal stack.limits.maxItem)
    modify fun stack => { stack with used := stack.used + UInt64.ofNat item.length }
    modify fun stack => { stack with items := item :: stack.items }
    return .pushed
  | .pop => do
    match (← get).items with
    | [] => throw .stackUnderflow
    | item :: rest =>
      modify fun stack => { stack with items := rest }
      modify fun stack => { stack with used := stack.used - UInt64.ofNat item.length }
      return .item item
  | .peek => do
    match (← get).items with
    | [] => throw .stackUnderflow
    | item :: _ => return .item item
  | .canPush item => return .fits ((← get).canPush item)

section Push

variable {stack : Stack} {item : Bytes}

theorem push_of_fits (fits : stack.canPush item = true) :
    stack.push item = .ok { stack with
      items := item :: stack.items
      used := stack.used + UInt64.ofNat item.length } :=
  if_pos fits

theorem push_of_full (full : ¬stack.canPush item = true) :
    stack.push item = .error
      (.stackOverflow item.length stack.used stack.limits.maxTotal stack.limits.maxItem) :=
  if_neg full

theorem push_isOk_iff : (∃ after, stack.push item = .ok after) ↔ stack.canPush item = true := by
  by_cases fits : stack.canPush item = true
  · simp [push_of_fits fits, fits]
  · simp [push_of_full fits, fits]

end Push

theorem call_realizes (stack : Stack) (request : Request) :
    Realizes request.call stack (stack.respond request) := by
  cases request with
  | push item =>
    unfold Realizes
    by_cases fits : stack.canPush item = true
    · rw [respond, push_of_fits fits]
      change EStateM.run (if ¬stack.canPush item = true then _ else _) stack = _
      rw [if_neg (not_not_intro fits)]
      rfl
    · rw [respond, push_of_full fits]
      change EStateM.run (if ¬stack.canPush item = true then _ else _) stack = _
      rw [if_pos fits]
      rfl
  | pop =>
    obtain ⟨limits, items, used⟩ := stack
    cases items with
    | nil => rfl
    | cons item rest => rfl
  | peek =>
    obtain ⟨limits, items, used⟩ := stack
    cases items with
    | nil => rfl
    | cons item rest => rfl
  | canPush item => rfl

/-- The bytes of all items together, where numbers have no bound. -/
def load (stack : Stack) : Nat :=
  (stack.items.map List.length).sum

/-- An item on top would pass neither limit. -/
def HasRoom (stack : Stack) (item : Bytes) : Prop :=
  item.length ≤ stack.limits.maxItem.toNat ∧
    stack.load + item.length ≤ stack.limits.maxTotal.toNat

instance (stack : Stack) (item : Bytes) : Decidable (stack.HasRoom item) :=
  inferInstanceAs (Decidable (_ ∧ _))

/-- The books of a stack that was made with some limits. -/
structure Accounted (limits : StackLimits) (stack : Stack) : Prop where
  limited : stack.limits = limits
  exact : stack.used.toNat = stack.load
  within : stack.load ≤ limits.maxTotal.toNat
  items : ∀ item ∈ stack.items, item.length ≤ limits.maxItem.toNat

/-- How a request ends and what it leaves. The count of bytes is a word and moves by the exact
length of the item. -/
inductive Ends (stack : Stack) : Request → EStateM.Result ScriptError Stack Answer → Prop
  | pushed {item : Bytes} {used : UInt64} (room : stack.HasRoom item)
      (counted : used.toNat = stack.used.toNat + item.length) :
      Ends stack (.push item) (.ok .pushed { stack with items := item :: stack.items, used })
  | overflow {item : Bytes} (full : ¬stack.HasRoom item) :
      Ends stack (.push item)
        (.error (.stackOverflow item.length stack.used stack.limits.maxTotal stack.limits.maxItem)
          stack)
  | popped {item : Bytes} {rest : List Bytes} {used : UInt64} (top : stack.items = item :: rest)
      (counted : used.toNat + item.length = stack.used.toNat) :
      Ends stack .pop (.ok (.item item) { stack with items := rest, used })
  | nothingToPop (empty : stack.items = []) : Ends stack .pop (.error .stackUnderflow stack)
  | peeked {item : Bytes} {rest : List Bytes} (top : stack.items = item :: rest) :
      Ends stack .peek (.ok (.item item) stack)
  | nothingToPeek (empty : stack.items = []) : Ends stack .peek (.error .stackUnderflow stack)
  | asked {item : Bytes} :
      Ends stack (.canPush item) (.ok (.fits (decide (stack.HasRoom item))) stack)

theorem toNat_add_ofNat {used : UInt64} {length : Nat}
    (fits : used.toNat + length < UInt64.size) :
    (used + UInt64.ofNat length).toNat = used.toNat + length := by
  rw [UInt64.toNat_add, UInt64.toNat_ofNat_of_lt' (by omega)]
  exact Nat.mod_eq_of_lt fits

theorem toNat_sub_ofNat {used : UInt64} {length : Nat} (covered : length ≤ used.toNat) :
    (used - UInt64.ofNat length).toNat + length = used.toNat := by
  have bound := used.toNat_lt_size
  have exact : (UInt64.ofNat length).toNat = length := UInt64.toNat_ofNat_of_lt' (by omega)
  rw [UInt64.toNat_sub_of_le _ _ (UInt64.le_iff_toNat_le.mpr (exact.symm ▸ covered)), exact]
  exact Nat.sub_add_cancel covered

section Accounted

variable {limits : StackLimits} {stack : Stack}

theorem accounted_empty (limits : StackLimits) : (empty limits).Accounted limits where
  limited := rfl
  exact := rfl
  within := Nat.zero_le _
  items := fun _ member => absurd member List.not_mem_nil

/-- The check compares the count, and the count is exact. -/
theorem Accounted.canPush_iff (accounted : stack.Accounted limits) {item : Bytes} :
    stack.canPush item = true ↔ stack.HasRoom item := by
  rw [canPush, decide_eq_true_iff, accounted.exact, HasRoom]

theorem Accounted.ends (accounted : stack.Accounted limits) (request : Request) :
    stack.Ends request (request.call.run stack) := by
  rw [stack.call_realizes request]
  cases request with
  | push item =>
    by_cases room : stack.HasRoom item
    · have fits := accounted.canPush_iff.mpr room
      have bound := stack.limits.maxTotal.toNat_lt_size
      have total := room.2
      -- The new sum is within the limit, which is a word, so nothing wraps.
      rw [respond, push_of_fits fits]
      exact .pushed room (toNat_add_ofNat (by rw [accounted.exact]; omega))
    · have full := mt accounted.canPush_iff.mp room
      rw [respond, push_of_full full]
      exact .overflow room
  | pop =>
    cases top : stack.items with
    | nil =>
      rw [respond, pop, top]
      exact .nothingToPop top
    | cons item rest =>
      -- The item is among those that were counted, so nothing wraps here either.
      have part : item.length ≤ stack.load := by simp [load, top]
      rw [respond, pop, top]
      exact .popped top (toNat_sub_ofNat (accounted.exact ▸ part))
  | peek =>
    cases top : stack.items with
    | nil =>
      rw [respond, peek, top]
      exact .nothingToPeek top
    | cons item rest =>
      rw [respond, peek, top]
      exact .peeked top
  | canPush item =>
    have same : stack.canPush item = decide (stack.HasRoom item) :=
      Bool.eq_iff_iff.mpr (accounted.canPush_iff.trans decide_eq_true_iff.symm)
    rw [respond, same]
    exact .asked

theorem Accounted.leaves (accounted : stack.Accounted limits) (request : Request) :
    (InPlace.leaves request.call stack).Accounted limits := by
  have ends := accounted.ends request
  unfold InPlace.leaves
  generalize request.call.run stack = result at ends ⊢
  have limited := accounted.limited
  have exact := accounted.exact
  have within := accounted.within
  have items := accounted.items
  cases ends with
  | @pushed item used room counted =>
    rw [HasRoom, limited] at room
    have total : ({ stack with items := item :: stack.items, used } : Stack).load =
        stack.load + item.length := by simp [load, Nat.add_comm]
    refine ⟨limited, ?_, total ▸ room.2, ?_⟩
    · rw [total, ← exact]
      exact counted
    · intro other member
      rcases List.mem_cons.mp member with rfl | below
      · exact room.1
      · exact items other below
  | @popped item rest used top counted =>
    have total : stack.load = item.length + ({ stack with items := rest, used } : Stack).load := by
      simp [load, top]
    refine ⟨limited, ?_, ?_, ?_⟩
    · dsimp only
      omega
    · dsimp only
      omega
    · intro other member
      exact items other (top ▸ List.mem_cons_of_mem item member)
  -- In all other cases the stack is the one that was asked.
  | overflow => exact accounted
  | nothingToPop => exact accounted
  | peeked => exact accounted
  | nothingToPeek => exact accounted
  | asked => exact accounted

end Accounted

/-- What comes off after a push is the item, and the count is back at what it was. -/
theorem pop_of_push {stack after : Stack} {item : Bytes} (pushed : stack.push item = .ok after) :
    after.pop = .ok (item, stack) := by
  have fits := push_isOk_iff.mp ⟨after, pushed⟩
  rw [push_of_fits fits] at pushed
  cases pushed
  rw [pop]
  simp

/-- What is done where stacks go by numbers. -/
inductive Action
  | call (number : Nat) (request : Request)
  | copy (number : Nat)

/-- The number of the stack that a request is made to. -/
def Action.target? : Action → Option Nat
  | .call number _ => some number
  | .copy _ => none

/-- The stacks after an action. A copy gets a number of its own; where there is no stack, nothing
is done. -/
def acted (family : List Stack) : Action → List Stack
  | .call number request => family.modify number (InPlace.leaves request.call)
  | .copy number => family ++ family[number]?.toList

/-- A stack and its copies after a run. -/
def ofActions (limits : StackLimits) (actions : List Action) : List Stack :=
  actions.foldl acted [empty limits]

section Actions

variable {limits : StackLimits} {family : List Stack}

theorem accounted_acted (accounted : ∀ stack ∈ family, stack.Accounted limits)
    (action : Action) : ∀ stack ∈ acted family action, stack.Accounted limits := by
  intro stack member
  cases action with
  | call number request =>
    obtain ⟨place, inside, rfl⟩ := List.getElem_of_mem member
    rw [acted, List.length_modify] at inside
    have before := accounted _ (List.getElem_mem inside)
    simp only [acted, List.getElem_modify]
    split
    next => exact before.leaves request
    next => exact before
  | copy number =>
    rcases List.mem_append.mp member with old | new
    · exact accounted stack old
    · exact accounted stack (List.mem_of_getElem? (Option.mem_toList.mp new))

theorem accounted_run (accounted : ∀ stack ∈ family, stack.Accounted limits)
    (actions : List Action) : ∀ stack ∈ actions.foldl acted family, stack.Accounted limits := by
  -- The invariant is about all stacks at once, for a copy may be made of any of them.
  induction actions generalizing family with
  | nil => exact accounted
  | cons action rest ih => exact ih (accounted_acted accounted action)

variable {number : Nat} {stack : Stack} (present : family[number]? = some stack)
include present

theorem acted_other {action : Action} (other : action.target? ≠ some number) :
    (acted family action)[number]? = some stack := by
  cases action with
  | call target request =>
    have apart : target ≠ number := fun same => other (congrArg some same)
    rw [acted, List.getElem?_modify_ne _ _ apart]
    exact present
  | copy source =>
    have inside := (List.getElem?_eq_some_iff.mp present).1
    rw [acted, List.getElem?_append_left inside]
    exact present

theorem run_other {actions : List Action}
    (others : ∀ action ∈ actions, action.target? ≠ some number) :
    (actions.foldl acted family)[number]? = some stack := by
  induction actions generalizing family with
  | nil => exact present
  | cons action rest ih =>
    have step := acted_other present (others action List.mem_cons_self)
    exact ih step fun later member => others later (List.mem_cons_of_mem action member)

end Actions

/-- Every stack of a run keeps its books, answers by them alone, and changes for no request to
another one. -/
theorem ofActions_accounts (limits : StackLimits) (actions : List Action) (number : Nat)
    (stack : Stack) (present : (ofActions limits actions)[number]? = some stack) :
    stack.Accounted limits ∧
    (∀ request, Realizes request.call stack (stack.respond request) ∧
      stack.Ends request (request.call.run stack)) ∧
    (∀ item, ((∃ after, stack.push item = .ok after) ↔ stack.canPush item = true) ∧
      (stack.canPush item = true ↔ stack.HasRoom item)) ∧
    (∀ item after, stack.push item = .ok after → after.pop = .ok (item, stack)) ∧
    ∀ later : List Action, (∀ action ∈ later, action.target? ≠ some number) →
      (ofActions limits (actions ++ later))[number]? = some stack := by
  have start : ∀ stack ∈ [empty limits], stack.Accounted limits := by
    intro stack member
    rw [List.mem_singleton.mp member]
    exact accounted_empty limits
  have accounted := accounted_run start actions stack (List.mem_of_getElem? present)
  refine ⟨accounted, ?_, ?_, ?_, ?_⟩
  · exact fun request => ⟨stack.call_realizes request, accounted.ends request⟩
  · exact fun item => ⟨push_isOk_iff, accounted.canPush_iff⟩
  · exact fun item after pushed => pop_of_push pushed
  · intro later others
    rw [ofActions, List.foldl_append]
    exact run_other present others

/-- The original gives an item away and takes a longer one that its copy has no room for. -/
theorem ofActions_accounts_full_copy :
    let limits : StackLimits := { maxTotal := 10, maxItem := 8 }
    let actions : List Action := [.call 0 (.push [1, 1, 1, 1, 1, 1]), .call 0 (.push [2, 2, 2, 2]),
      .copy 0, .call 0 .pop, .call 0 (.push [3]), .call 1 (.push [3])]
    let stack : Stack := ⟨limits, [[2, 2, 2, 2], [1, 1, 1, 1, 1, 1]], 10⟩
    (ofActions limits actions)[1]? = some stack ∧ stack.Accounted limits ∧
      ¬stack.HasRoom [3] ∧ stack.Ends (.push [3]) ((Request.push [3]).call.run stack) ∧
      (ofActions limits (actions ++ [.call 0 .pop]))[1]? = some stack := by
  intro limits actions stack
  have present : (ofActions limits actions)[1]? = some stack := by decide
  obtain ⟨accounted, ends, -, -, others⟩ :=
    ofActions_accounts limits actions 1 stack present
  exact ⟨present, accounted, by decide, (ends (.push [3])).2,
    others [.call 0 .pop] (by simp [Action.target?])⟩

end UtxoLedger.Stack
