import UtxoLedger.Proofs.Amount.Exact
import UtxoLedger.Proofs.InPlace
import UtxoLedger.Proofs.Script.Branching

/-!
# Unbalanced conditionals are caught

Tokens are read in place, with nothing open at first. The reading goes through and leaves nothing
open exactly where the tokens are those of a program. It fails at the first ELSE or ENDIF that no
IF before it is open for, and leaves the scope as it was. Whether an IF is open is a matter of the
tokens behind it alone: they close it as soon as they begin with the branches of a conditional.
-/
namespace UtxoLedger.Script

open InPlace

variable {α : Type}

/-- The word of a token that needs an open conditional. -/
def Token.word? : Token α → Option ScopeWord
  | .orElse => some .orElse
  | .endIf => some .endIf
  | _ => none

/-- A token read in place. An ENDIF takes the innermost condition off before it is known whether
there was one; an ELSE looks first. -/
def readToken : Token α → EStateM ScriptError (Execution α) Unit
  | .statement statement => do
    if (← get).scope.isTrue then
      modify fun execution => { execution with performed := execution.performed ++ [statement] }
  | .ifThen condition => modify fun execution => execution.enter condition
  | .orElse => do
    match (← get).scope.conditions with
    | [] => throw (.unbalanced .orElse)
    | condition :: rest =>
      modify fun execution => { execution with scope := ⟨(!condition) :: rest⟩ }
  | .endIf => do
    let innermost ← modifyGet fun execution =>
      (execution.scope.conditions.head?,
        { execution with scope := ⟨execution.scope.conditions.tail⟩ })
    if innermost.isNone then throw (.unbalanced .endIf)

def readAll (tokens : List (Token α)) : EStateM ScriptError (Execution α) Unit :=
  tokens.forM readToken

namespace Execution

/-- Nothing is open and nothing performed. -/
def start : Execution α :=
  ⟨.empty, []⟩

/-- What a token does to an execution. An ELSE or an ENDIF is read only inside a conditional. -/
inductive Steps : Execution α → Token α → Execution α → Prop
  | statement (execution : Execution α) (statement : α) :
      Steps execution (.statement statement) (execution.perform [statement])
  | ifThen (execution : Execution α) (condition : Bool) :
      Steps execution (.ifThen condition) (execution.enter condition)
  | orElse (outside : Execution α) (taken : Bool) :
      Steps (outside.enter taken) .orElse (outside.enter !taken)
  | endIf (outside : Execution α) (taken : Bool) : Steps (outside.enter taken) .endIf outside

@[simp] theorem scope_perform (execution : Execution α) (statements : List α) :
    (execution.perform statements).scope = execution.scope := by
  unfold perform
  split <;> rfl

variable {execution next final : Execution α} {token : Token α} {error : ScriptError}

theorem steps_iff : execution.step token = .ok next ↔ Steps execution token next := by
  constructor
  · intro stepped
    obtain ⟨⟨conditions⟩, performed⟩ := execution
    cases token with
    | statement statement =>
      rw [step_statement] at stepped
      cases stepped
      exact .statement _ statement
    | ifThen condition =>
      cases stepped
      exact .ifThen _ condition
    | orElse =>
      cases conditions with
      | nil => cases stepped
      | cons taken rest =>
        cases stepped
        exact .orElse ⟨⟨rest⟩, performed⟩ taken
    | endIf =>
      cases conditions with
      | nil => cases stepped
      | cons taken rest =>
        cases stepped
        exact .endIf ⟨⟨rest⟩, performed⟩ taken
  · intro steps
    cases steps with
    | statement execution statement => exact execution.step_statement statement
    | ifThen execution condition => rfl
    | orElse outside taken => rfl
    | endIf outside taken => rfl

theorem step_error_iff :
    execution.step token = .error error ↔
      ∃ word, token.word? = some word ∧ execution.scope = .empty ∧ error = .unbalanced word := by
  obtain ⟨⟨conditions⟩, performed⟩ := execution
  cases token with
  | statement statement => simp [step_statement, Token.word?]
  | ifThen condition => simp [step, Token.word?]
  | orElse =>
    cases conditions <;> simp [step, Scope.toggle, Scope.empty, Token.word?, Except.map, eq_comm]
  | endIf =>
    cases conditions <;> simp [step, Scope.pop, Scope.empty, Token.word?, Except.map, eq_comm]

theorem readToken_realizes (execution : Execution α) (token : Token α) :
    Realizes (readToken token) execution ((execution.step token).map fun next => ((), next)) := by
  unfold Realizes
  obtain ⟨⟨conditions⟩, performed⟩ := execution
  cases token with
  | statement statement =>
    rw [step]
    change EStateM.run (if Scope.isTrue ⟨conditions⟩ = true then _ else _) _ = _
    dsimp only
    by_cases running : Scope.isTrue ⟨conditions⟩ = true
    · rw [if_pos running, if_pos running]
      rfl
    · rw [if_neg running, if_neg running]
      rfl
  | ifThen condition => rfl
  | orElse => cases conditions <;> rfl
  | endIf => cases conditions <;> rfl

theorem readToken_ok_iff :
    (readToken token).run execution = .ok () next ↔ Steps execution token next := by
  rw [(readToken_realizes execution token).ok_iff, Except.map_ok_iff, ← steps_iff]
  simp

theorem readToken_error_iff {left : Execution α} :
    (readToken token).run execution = .error error left ↔
      ∃ word, token.word? = some word ∧ execution.scope = .empty ∧ error = .unbalanced word ∧
        left = execution := by
  rw [(readToken_realizes execution token).error_iff, Except.map_error_iff, step_error_iff]
  grind

end Execution

section Reading

variable {execution final : Execution α} {tokens : List (Token α)}

theorem readAll_nil_iff : (readAll []).run execution = .ok () final ↔ execution = final := by
  change EStateM.Result.ok () execution = _ ↔ _
  simp

theorem readAll_cons_iff {token : Token α} :
    (readAll (token :: tokens)).run execution = .ok () final ↔
      ∃ next, Execution.Steps execution token next ∧ (readAll tokens).run next = .ok () final := by
  simp only [readAll, forM_cons_ok_iff, Execution.readToken_ok_iff]

theorem readAll_append_iff {front : List (Token α)} :
    (readAll (front ++ tokens)).run execution = .ok () final ↔
      ∃ next, (readAll front).run execution = .ok () next ∧
        (readAll tokens).run next = .ok () final := by
  induction front generalizing execution with
  | nil => simp [readAll_nil_iff]
  | cons token rest ih =>
    simp only [List.cons_append, readAll_cons_iff, ih]
    grind

/-- A reading that goes through does what a run does. -/
theorem readAll_ok_iff :
    (readAll tokens).run execution = .ok () final ↔ execution.run tokens = .ok final := by
  induction tokens generalizing execution with
  | nil => simp [readAll_nil_iff]
  | cons token rest ih =>
    rw [readAll_cons_iff, Execution.run, List.foldlM_cons, Except.bind_ok_iff]
    simp only [ih, Execution.steps_iff]
    rfl

end Reading

/-- Tokens that close so many conditionals and no more: what is left of the innermost one up to its
ENDIF, then what is left of the one around it, and at the end a program. -/
inductive Closes : Nat → List (Token α) → Prop
  | program (program : Program α) : Closes 0 program.tokens
  | conditional {depth : Nat} {outside : List (Token α)} (branches : Branches α)
      (closes : Closes depth outside) : Closes (depth + 1) (branches.tokens ++ outside)

/-- What a program may begin with, a branch may begin with as well. -/
theorem Branches.exists_prepend (grow : Program α → Program α) {front : List (Token α)}
    (grown : ∀ program, (grow program).tokens = front ++ program.tokens) (branches : Branches α) :
    ∃ more : Branches α, more.tokens = front ++ branches.tokens := by
  cases branches with
  | last branch => exact ⟨.last (grow branch), by simp [Branches.tokens, grown]⟩
  | orElse branch others => exact ⟨.orElse (grow branch) others, by simp [Branches.tokens, grown]⟩

theorem Closes.prepend (grow : Program α → Program α) {front tokens : List (Token α)} {depth : Nat}
    (grown : ∀ program, (grow program).tokens = front ++ program.tokens)
    (closes : Closes depth tokens) : Closes depth (front ++ tokens) := by
  cases closes with
  | program program => exact grown program ▸ .program (grow program)
  | conditional branches closes =>
    obtain ⟨more, same⟩ := branches.exists_prepend grow grown
    rw [← List.append_assoc, ← same]
    exact .conditional more closes

section Structure

variable {execution final : Execution α} {tokens : List (Token α)}

/-- Tokens that end with nothing open have the structure that closes what was open before. -/
theorem closes_of_readAll (read : (readAll tokens).run execution = .ok () final)
    (closed : final.scope = .empty) : Closes execution.scope.depth tokens := by
  induction tokens generalizing execution with
  | nil =>
    rw [readAll_nil_iff.mp read, closed]
    exact .program .done
  | cons token rest ih =>
    obtain ⟨next, steps, later⟩ := readAll_cons_iff.mp read
    have closes := ih later
    -- A token in front of the structure of the others belongs to its first branch, or opens or
    -- closes a conditional.
    cases steps with
    | statement execution statement =>
      rw [Execution.scope_perform] at closes
      change Closes _ ([.statement statement] ++ rest)
      exact closes.prepend (.statement statement) fun _ => rfl
    | ifThen execution condition =>
      cases closes with
      | conditional branches closes =>
        change Closes _ ((.ifThen condition :: branches.tokens) ++ _)
        exact closes.prepend (.conditional condition branches) fun _ => rfl
    | orElse outside taken =>
      cases closes with
      | conditional branches closes => exact .conditional (.orElse .done branches) closes
    | endIf outside taken => exact .conditional (.last .done) closes

/-- Some IF is open at the end: what stands behind it does not begin with the branches of a
conditional, so none of it is the ENDIF of that IF. -/
def LeavesOpen (tokens : List (Token α)) : Prop :=
  ∃ front condition inside, tokens = front ++ .ifThen condition :: inside ∧
    ∀ branches : Branches α, ¬branches.tokens <+: inside

theorem LeavesOpen.append (front : List (Token α)) (opens : LeavesOpen tokens) :
    LeavesOpen (front ++ tokens) := by
  obtain ⟨before, condition, inside, rfl, unclosed⟩ := opens
  exact ⟨front ++ before, condition, inside, (List.append_assoc ..).symm, unclosed⟩

theorem not_empty_of_leavesOpen (read : (readAll tokens).run execution = .ok () final)
    (opens : LeavesOpen tokens) : final.scope ≠ .empty := by
  obtain ⟨front, condition, inside, rfl, unclosed⟩ := opens
  obtain ⟨reached, -, read⟩ := readAll_append_iff.mp read
  obtain ⟨next, steps, read⟩ := readAll_cons_iff.mp read
  intro closed
  have closes := closes_of_readAll read closed
  cases steps
  cases closes with
  | conditional branches outside => exact unclosed branches (List.prefix_append ..)

/-- The scope only gets deeper through an IF that stays open. -/
theorem leavesOpen_of_deeper (read : (readAll tokens).run execution = .ok () final)
    (deeper : execution.scope.depth < final.scope.depth) : LeavesOpen tokens := by
  -- The branches of a conditional are passed over at once, so the induction is on the length.
  induction size : tokens.length using Nat.strongRecOn generalizing tokens execution with
  | ind size ih =>
    subst size
    cases tokens with
    | nil =>
      rw [readAll_nil_iff.mp read] at deeper
      exact absurd deeper (Nat.lt_irrefl _)
    | cons token rest =>
      have further (front others : List (Token α)) (next : Execution α)
          (split : token :: rest = front ++ others) (some : front ≠ [])
          (read : (readAll others).run next = .ok () final)
          (deeper : next.scope.depth < final.scope.depth) : LeavesOpen (token :: rest) := by
        have shorter : others.length < (token :: rest).length := by
          rw [split, List.length_append]
          exact Nat.lt_add_of_pos_left (List.length_pos_iff.mpr some)
        rw [split]
        exact (ih others.length shorter read deeper rfl).append front
      obtain ⟨next, steps, later⟩ := readAll_cons_iff.mp read
      cases steps with
      | statement execution statement =>
        refine further [.statement statement] rest _ rfl (by simp) later ?_
        rwa [Execution.scope_perform]
      | ifThen execution condition =>
        by_cases closed : ∃ branches : Branches α, branches.tokens <+: rest
        · obtain ⟨branches, others, rfl⟩ := closed
          obtain ⟨outside, passed, later⟩ := readAll_append_iff.mp later
          have same := branches.run_tokens execution condition 0
          rw [takes_first, ← readAll_ok_iff] at same
          cases passed.symm.trans same
          refine further (.ifThen condition :: branches.tokens) others _ rfl (by simp) later ?_
          rwa [Execution.scope_perform]
        · exact ⟨[], condition, rest, rfl, fun branches begins => closed ⟨branches, begins⟩⟩
      | orElse outside taken => exact further [.orElse] rest _ rfl (by simp) later deeper
      | endIf outside taken =>
        refine further [.endIf] rest _ rfl (by simp) later (Nat.lt_trans ?_ deeper)
        exact Nat.lt_succ_self _

/-- Where nothing was open before, the scope is empty exactly if no IF is left open. -/
theorem empty_iff_of_readAll (read : (readAll tokens).run .start = .ok () final) :
    final.scope = .empty ↔ ¬LeavesOpen tokens := by
  constructor
  · intro closed opens
    exact not_empty_of_leavesOpen read opens closed
  · intro unopened
    have level : ¬0 < final.scope.depth := fun deeper => unopened (leavesOpen_of_deeper read deeper)
    have none := List.length_eq_zero_iff.mp (Nat.eq_zero_of_not_pos level)
    exact congrArg Scope.mk none

end Structure

/-- The first ELSE or ENDIF among tokens for which no IF before it is open. -/
structure FirstStray (tokens before : List (Token α)) (token : Token α) (word : ScopeWord) :
    Prop where
  placed : before ++ [token] <+: tokens
  named : token.word? = some word
  stray : ¬LeavesOpen before
  first : ∀ front earlier, front ++ [earlier] <+: before → earlier.word?.isSome → LeavesOpen front

section Stray

variable {tokens before : List (Token α)} {token : Token α} {word : ScopeWord}
  {final : Execution α}

/-- Every ELSE and ENDIF that was read had an open IF. -/
theorem leavesOpen_of_readAll (read : (readAll tokens).run .start = .ok () final)
    {front : List (Token α)} (placed : front ++ [token] <+: tokens)
    (named : token.word?.isSome) : LeavesOpen front := by
  obtain ⟨rest, rfl⟩ := placed
  obtain ⟨_, read, -⟩ := readAll_append_iff.mp read
  obtain ⟨reached, passed, last⟩ := readAll_append_iff.mp read
  obtain ⟨next, steps, -⟩ := readAll_cons_iff.mp last
  obtain ⟨word, same⟩ := Option.isSome_iff_exists.mp named
  refine Classical.not_not.mp fun unopened => ?_
  -- With nothing open the token would have been refused.
  have empty := (empty_iff_of_readAll passed).mpr unopened
  have refused := Execution.step_error_iff.mpr ⟨word, same, empty, rfl⟩
  rw [Execution.steps_iff.mpr steps] at refused
  cases refused

/-- What is in front of the first stray token is read. -/
theorem FirstStray.passes (stray : FirstStray tokens before token word) :
    ∃ reached : Execution α,
      (readAll before).run .start = .ok () reached ∧ reached.scope = .empty := by
  cases read : (readAll before).run .start with
  | ok _ reached => exact ⟨reached, rfl, (empty_iff_of_readAll read).mpr stray.stray⟩
  | error error left =>
    -- A token that was refused before would be stray, and before the first.
    obtain ⟨front, earlier, rest, reached, parts, passed, refused⟩ := forM_error_iff.mp read
    obtain ⟨_, named, empty, -⟩ := Execution.readToken_error_iff.mp refused
    have opens := stray.first front earlier ⟨rest, by simp [parts]⟩ (by simp [named])
    exact absurd opens ((empty_iff_of_readAll passed).mp empty)

theorem readAll_error_iff {error : ScriptError} {left : Execution α} :
    (readAll tokens).run .start = .error error left ↔
      ∃ before token word, FirstStray tokens before token word ∧
        (readAll before).run .start = .ok () left ∧ left.scope = .empty ∧
        (readToken token).run left = .error error left ∧ error = .unbalanced word := by
  constructor
  · intro failed
    obtain ⟨before, token, after, reached, rfl, passed, refused⟩ := forM_error_iff.mp failed
    obtain ⟨word, named, empty, same, rfl⟩ := Execution.readToken_error_iff.mp refused
    have stray : FirstStray (before ++ token :: after) before token word := {
      placed := ⟨after, by simp⟩
      named := named
      stray := (empty_iff_of_readAll passed).mp empty
      first := fun _ _ => leavesOpen_of_readAll passed }
    exact ⟨before, token, word, stray, passed, empty, refused, same⟩
  · rintro ⟨before, token, word, stray, passed, -, refused, -⟩
    obtain ⟨after, rfl⟩ := stray.placed
    exact forM_error_iff.mpr ⟨before, token, after, left, by simp, passed, refused⟩

end Stray

/-- Reading goes through with nothing left open exactly for the tokens of a program. It fails just
where some ELSE or ENDIF has no open IF before it: the tokens before the first such one are read,
and that one is refused under its name and changes nothing. -/
theorem unbalanced_caught (tokens : List (Token α)) :
    ((∃ performed, (readAll tokens).run .start = .ok () ⟨.empty, performed⟩) ↔
      ∃ program : Program α, program.tokens = tokens) ∧
    ((∃ error left, (readAll tokens).run .start = .error error left) ↔
      ∃ before token word, FirstStray tokens before token word) ∧
    ∀ error left, (readAll tokens).run .start = .error error left ↔
      ∃ before token word, FirstStray tokens before token word ∧
        (readAll before).run .start = .ok () left ∧ left.scope = .empty ∧
        (readToken token).run left = .error error left ∧ error = .unbalanced word := by
  refine ⟨⟨?_, ?_⟩, ⟨?_, ?_⟩, fun error left => readAll_error_iff⟩
  · rintro ⟨performed, read⟩
    have closes : Closes 0 tokens := closes_of_readAll read rfl
    cases closes with
    | program program => exact ⟨program, rfl⟩
  · rintro ⟨program, rfl⟩
    exact ⟨_, readAll_ok_iff.mpr (program.run_tokens .start)⟩
  · rintro ⟨error, left, failed⟩
    obtain ⟨before, token, word, stray, -⟩ := readAll_error_iff.mp failed
    exact ⟨before, token, word, stray⟩
  · rintro ⟨before, token, word, stray⟩
    obtain ⟨reached, passed, empty⟩ := stray.passes
    have refused := Execution.readToken_error_iff.mpr ⟨word, stray.named, empty, rfl, rfl⟩
    exact ⟨_, _, readAll_error_iff.mpr ⟨before, token, word, stray, passed, empty, refused, rfl⟩⟩

/-- The second ENDIF has nothing to close. What was performed before it stays performed. -/
example :
    (readAll [.ifThen false, .orElse, .statement 7, .endIf, .endIf, .orElse]).run .start =
      .error (.unbalanced .endIf) ⟨.empty, [7]⟩ := rfl

end UtxoLedger.Script
