import UtxoLedger.Script.Error

/-!
# Conditional scopes

One condition for each open IF, the innermost first. A statement runs only while
all of them hold.
-/
namespace UtxoLedger

/-- The conditions around a place in a script. -/
structure Scope where
  conditions : List Bool
  deriving DecidableEq, Repr

namespace Scope

/-- Outside of all conditionals. -/
def empty : Scope :=
  ⟨[]⟩

def isEmpty (scope : Scope) : Bool :=
  scope.conditions.isEmpty

def depth (scope : Scope) : Nat :=
  scope.conditions.length

/-- Whether a statement runs. Outside of all conditionals it does. -/
def isTrue (scope : Scope) : Bool :=
  scope.conditions.all id

/-- Enters a conditional. -/
def push (scope : Scope) (condition : Bool) : Scope :=
  ⟨condition :: scope.conditions⟩

/-- Leaves the innermost conditional. -/
def pop (scope : Scope) : Except ScriptError Scope :=
  match scope.conditions with
  | [] => .error (.unbalanced .endIf)
  | _ :: rest => .ok ⟨rest⟩

/-- Turns to the other branch of the innermost conditional. -/
def toggle (scope : Scope) : Except ScriptError Scope :=
  match scope.conditions with
  | [] => .error (.unbalanced .orElse)
  | condition :: rest => .ok ⟨(!condition) :: rest⟩

end Scope

end UtxoLedger
