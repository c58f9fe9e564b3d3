import UtxoLedger.Script.Scope

/-!
# Conditionals run the right branches

A script is read token by token, and one scope is kept for all its conditionals. An ELSE turns the
innermost condition over even where nothing runs. The same script as a tree says which branches of
a conditional are its own: the first, the third and so on where the condition is true, the others
where it is false. Reading the tokens performs what the tree does, and leaves the scope as it was.
-/
namespace UtxoLedger

@[simp] theorem Scope.isTrue_push (scope : Scope) (condition : Bool) :
    (scope.push condition).isTrue = (condition && scope.isTrue) := rfl

theorem Scope.isTrue_iff {scope : Scope} :
    scope.isTrue = true ↔ ∀ condition ∈ scope.conditions, condition = true := by
  simp [isTrue, List.all_eq_true]

namespace Script

variable {α : Type}

inductive Token (α : Type)
  | statement (statement : α)
  | ifThen (condition : Bool)
  | orElse
  | endIf
  deriving DecidableEq, Repr

structure Execution (α : Type) where
  scope : Scope
  /-- The statements performed so far, in order. -/
  performed : List α
  deriving DecidableEq

namespace Execution

/-- Only a statement looks at whether anything runs. -/
def step (execution : Execution α) : Token α → Except ScriptError (Execution α)
  | .statement statement =>
    if execution.scope.isTrue then
      .ok { execution with performed := execution.performed ++ [statement] }
    else .ok execution
  | .ifThen condition => .ok { execution with scope := execution.scope.push condition }
  | .orElse => execution.scope.toggle.map fun scope => { execution with scope }
  | .endIf => execution.scope.pop.map fun scope => { execution with scope }

def run (execution : Execution α) (tokens : List (Token α)) : Except ScriptError (Execution α) :=
  tokens.foldlM step execution

/-- Inside a conditional, in a branch that is or is not taken. -/
def enter (execution : Execution α) (taken : Bool) : Execution α :=
  { execution with scope := execution.scope.push taken }

/-- Past statements, which are performed if anything runs. -/
def perform (execution : Execution α) (statements : List α) : Execution α :=
  if execution.scope.isTrue then
    { execution with performed := execution.performed ++ statements }
  else execution

variable (execution : Execution α)

@[simp] theorem perform_nil : execution.perform [] = execution := by
  simp [perform]

theorem perform_append (front back : List α) :
    execution.perform (front ++ back) = (execution.perform front).perform back := by
  unfold perform
  by_cases running : execution.scope.isTrue = true
  · simp [running]
  · simp [running]

theorem perform_enter (taken : Bool) (statements : List α) :
    (execution.enter taken).perform statements =
      (execution.perform (if taken then statements else [])).enter taken := by
  cases taken with
  | false => simp [perform, enter]
  | true =>
    by_cases running : execution.scope.isTrue = true
    · simp [perform, enter, running]
    · simp [perform, enter, running]

theorem step_statement (statement : α) :
    execution.step (.statement statement) = .ok (execution.perform [statement]) := by
  rw [step, perform]
  split <;> rfl

theorem step_ifThen (condition : Bool) :
    execution.step (.ifThen condition) = .ok (execution.enter condition) := rfl

theorem step_orElse (taken : Bool) :
    (execution.enter taken).step .orElse = .ok (execution.enter !taken) := rfl

theorem step_endIf (taken : Bool) : (execution.enter taken).step .endIf = .ok execution := rfl

@[simp] theorem run_nil : execution.run [] = .ok execution := rfl

theorem run_append {reached : Execution α} {front : List (Token α)} (back : List (Token α))
    (moved : execution.run front = .ok reached) :
    execution.run (front ++ back) = reached.run back := by
  unfold run at moved
  rw [run, List.foldlM_append, moved]
  rfl

theorem run_cons {reached : Execution α} {token : Token α} (tokens : List (Token α))
    (moved : execution.step token = .ok reached) :
    execution.run (token :: tokens) = reached.run tokens := by
  rw [run, List.foldlM_cons, moved]
  rfl

end Execution

mutual

/-- Statements and conditionals, one after the other. -/
inductive Program (α : Type)
  | done
  | statement (statement : α) (rest : Program α)
  | conditional (condition : Bool) (branches : Branches α) (rest : Program α)

/-- The branches of one conditional; there is always one. -/
inductive Branches (α : Type)
  | last (branch : Program α)
  | orElse (branch : Program α) (others : Branches α)

end

mutual

def Program.tokens : Program α → List (Token α)
  | .done => []
  | .statement statement rest => .statement statement :: rest.tokens
  | .conditional condition branches rest => .ifThen condition :: (branches.tokens ++ rest.tokens)

/-- Up to the ENDIF of the conditional. -/
def Branches.tokens : Branches α → List (Token α)
  | .last branch => branch.tokens ++ [.endIf]
  | .orElse branch others => branch.tokens ++ .orElse :: others.tokens

end

/-- Whether the branch in a place is taken; the first place is 0. -/
def takes (condition : Bool) (place : Nat) : Bool :=
  condition = (place % 2 = 0)

mutual

/-- What a program performs where it runs at all. -/
def Program.performed : Program α → List α
  | .done => []
  | .statement statement rest => statement :: rest.performed
  | .conditional condition branches rest => branches.performed condition 0 ++ rest.performed

/-- What the branches from a place on perform. -/
def Branches.performed (condition : Bool) (place : Nat) : Branches α → List α
  | .last branch => if takes condition place then branch.performed else []
  | .orElse branch others =>
    (if takes condition place then branch.performed else []) ++
      others.performed condition (place + 1)

end

theorem takes_first (condition : Bool) : takes condition 0 = condition := by
  simp [takes]

/-- What an ELSE does to the innermost condition. -/
theorem takes_next (condition : Bool) (place : Nat) :
    takes condition (place + 1) = !takes condition place := by
  unfold takes
  by_cases even : place % 2 = 0
  · have odd : (place + 1) % 2 = 1 := by omega
    cases condition <;> simp [even, odd]
  · have odd : place % 2 = 1 := by omega
    have next : (place + 1) % 2 = 0 := by omega
    cases condition <;> simp [odd, next]

mutual

theorem Program.run_tokens (execution : Execution α) (program : Program α) :
    execution.run program.tokens = .ok (execution.perform program.performed) := by
  cases program with
  | done => rw [Program.tokens, Program.performed, Execution.run_nil, Execution.perform_nil]
  | statement statement rest =>
    have moved := execution.step_statement statement
    rw [Program.tokens, Program.performed, Execution.run_cons _ _ moved, rest.run_tokens,
      ← Execution.perform_append]
    rfl
  | conditional condition branches rest =>
    -- The first branch is taken just where the condition is true.
    have inside := branches.run_tokens execution condition 0
    rw [takes_first] at inside
    rw [Program.tokens, Program.performed, Execution.run_cons _ _ (execution.step_ifThen condition),
      Execution.run_append _ _ inside, rest.run_tokens, ← Execution.perform_append]

/-- From the start of the branch in a place, whether or not anything runs outside. -/
theorem Branches.run_tokens (execution : Execution α) (condition : Bool) (place : Nat)
    (branches : Branches α) :
    (execution.enter (takes condition place)).run branches.tokens =
      .ok (execution.perform (branches.performed condition place)) := by
  -- A branch that is not taken is read like any other; it only performs nothing.
  cases branches with
  | last branch =>
    have inside := branch.run_tokens (execution.enter (takes condition place))
    rw [Execution.perform_enter] at inside
    rw [Branches.tokens, Branches.performed, Execution.run_append _ _ inside]
    exact Execution.run_cons _ [] (Execution.step_endIf _ _)
  | orElse branch others =>
    have inside := branch.run_tokens (execution.enter (takes condition place))
    rw [Execution.perform_enter] at inside
    rw [Branches.tokens, Branches.performed, Execution.run_append _ _ inside,
      Execution.run_cons _ _ (Execution.step_orElse _ _), ← takes_next, others.run_tokens,
      ← Execution.perform_append]

end

/-- Whatever is open already, a script runs to its end, closes what it opened, and performs what
its tree does, or nothing where a condition around it is false. -/
theorem run_structured (scope : Scope) (program : Program α) :
    Execution.run ⟨scope, []⟩ program.tokens =
      .ok ⟨scope, if ∀ condition ∈ scope.conditions, condition = true then program.performed
        else []⟩ := by
  rw [program.run_tokens, Execution.perform]
  simp only [Scope.isTrue_iff]
  split
  next => rw [List.nil_append]
  next => rfl

/-- Of three branches the first and the third are taken, and in the latter the second of two. -/
example :
    let inner : Program Nat :=
      .conditional false (.orElse (.statement 3 .done) (.last (.statement 4 .done))) .done
    let program : Program Nat := .conditional true
      (.orElse (.statement 1 .done) (.orElse (.statement 2 .done) (.last inner))) .done
    program.performed = [1, 4] := rfl

end Script

end UtxoLedger
