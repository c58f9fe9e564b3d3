import UtxoLedger.Json.Literal

/-!
# JSON documents and their layouts

What is written: natural numbers, texts, arrays and objects with their members in
order. The compact layout has no blanks; the indented one puts every item on a
line of its own, two spaces deeper than what encloses it.
-/
namespace UtxoLedger.Json

mutual

/-- A value that is written. -/
inductive Document
  | number (value : Nat)
  | string (text : List Char)
  | array (items : Documents)
  | object (members : Entries)

/-- The items of an array. -/
inductive Documents
  | empty
  | cons (first : Document) (rest : Documents)

/-- The members of an object, in the order in which they are written. -/
inductive Entries
  | empty
  | cons (key : List Char) (value : Document) (rest : Entries)

end

def Documents.ofList : List Document → Documents
  | [] => .empty
  | first :: rest => .cons first (.ofList rest)

def Entries.ofList : List (String × Document) → Entries
  | [] => .empty
  | (key, value) :: rest => .cons key.toList value (.ofList rest)

/-- How a document is spread over lines. -/
inductive Layout
  | compact
  | indented
  deriving DecidableEq, Repr

namespace Layout

/-- What stands before an item, or before a closing bracket, at a depth. -/
def gap (layout : Layout) (depth : Nat) : List Char :=
  match layout with
  | .compact => []
  | .indented => '\n' :: List.replicate (2 * depth) ' '

def colon : Layout → List Char
  | .compact => [':']
  | .indented => [':', ' ']

end Layout

variable (layout : Layout)

mutual

/-- The text of a document at a depth. What is empty stays on its line. -/
def Document.render (depth : Nat) : Document → List Char
  | .number value => Nat.toDigits 10 value
  | .string text => Literal.quote text
  | .array .empty => ['[', ']']
  | .array (.cons first rest) =>
    '[' :: layout.gap (depth + 1) ++ first.render (depth + 1) ++ rest.renderRest depth
  | .object .empty => ['{', '}']
  | .object (.cons key value rest) =>
    '{' :: layout.gap (depth + 1) ++ Literal.quote key ++ layout.colon ++
      value.render (depth + 1) ++ rest.renderRest depth

/-- What follows an item, up to the bracket of its array. -/
def Documents.renderRest (depth : Nat) : Documents → List Char
  | .empty => layout.gap depth ++ [']']
  | .cons next rest =>
    ',' :: layout.gap (depth + 1) ++ next.render (depth + 1) ++ rest.renderRest depth

/-- What follows a member, up to the brace of its object. -/
def Entries.renderRest (depth : Nat) : Entries → List Char
  | .empty => layout.gap depth ++ ['}']
  | .cons key value rest =>
    ',' :: layout.gap (depth + 1) ++ Literal.quote key ++ layout.colon ++
      value.render (depth + 1) ++ rest.renderRest depth

end

def Document.write (document : Document) : String :=
  String.ofList (document.render layout 0)

end UtxoLedger.Json
