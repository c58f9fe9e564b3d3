import UtxoLedger.Bytes
import UtxoLedger.Script.Error

/-!
# Operand stacks

A stack is bounded in bytes: one limit for a single item and one for all items
together. The bytes in use are counted in a word beside the items; the checks
before a push are exact, so the count never wraps.
-/
namespace UtxoLedger

/-- How many bytes an item may have, and how many all items together. -/
structure StackLimits where
  maxTotal : UInt64 := 16384
  maxItem : UInt64 := 512
  deriving DecidableEq, Repr

/-- The items on a stack, with their bytes counted. -/
structure Stack where
  limits : StackLimits
  /-- From top to bottom. -/
  items : List Bytes
  used : UInt64
  deriving DecidableEq

namespace Stack

def empty (limits : StackLimits) : Stack :=
  ⟨limits, [], 0⟩

/-- Both limits may be reached and not passed. -/
def canPush (stack : Stack) (item : Bytes) : Bool :=
  item.length ≤ stack.limits.maxItem.toNat ∧
    stack.used.toNat + item.length ≤ stack.limits.maxTotal.toNat

/-- Puts an item on top, or reports it with the limits it met. -/
def push (stack : Stack) (item : Bytes) : Except ScriptError Stack :=
  if stack.canPush item then
    .ok { stack with items := item :: stack.items, used := stack.used + UInt64.ofNat item.length }
  else
    .error (.stackOverflow item.length stack.used stack.limits.maxTotal stack.limits.maxItem)

/-- Takes the item on top, whose bytes are free again. -/
def pop (stack : Stack) : Except ScriptError (Bytes × Stack) :=
  match stack.items with
  | [] => .error .stackUnderflow
  | item :: rest =>
    .ok (item, { stack with items := rest, used := stack.used - UInt64.ofNat item.length })

def peek (stack : Stack) : Except ScriptError Bytes :=
  match stack.items with
  | [] => .error .stackUnderflow
  | item :: _ => .ok item

def count (stack : Stack) : Nat :=
  stack.items.length

def isEmpty (stack : Stack) : Bool :=
  stack.items.isEmpty

/-- From bottom to top. -/
def toList (stack : Stack) : List Bytes :=
  stack.items.reverse

end Stack

end UtxoLedger
