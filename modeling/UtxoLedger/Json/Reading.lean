import UtxoLedger.Json.Numeral

/-!
# Readings of JSON texts

Reading a text never fails. Where the text goes wrong the reading holds a fault,
in the very place, and nothing behind it. So whoever walks a reading from the
front meets a fault no sooner than what stands before it in the text, and the
first problem of a text is the first one met.

A comma is taken as the promise of another item: what does not follow it is a
fault of that item.
-/
namespace UtxoLedger.Json

mutual

/-- What a text turns out to be, with its faults. -/
inductive Reading
  | null
  | bool (value : Bool)
  | number (scanned : Except Fault Numeral)
  | string (literal : Literal)
  | array (items : Items)
  | object (members : Members)
  | broken (fault : Fault)

/-- The items of an array, up to its bracket or to the fault in place of one. -/
inductive Items
  | closed
  | broken (fault : Fault)
  | item (value : Reading) (rest : Items)

/-- The members of an object; a key can have a fault of its own. -/
inductive Members
  | closed
  | broken (fault : Fault)
  | member (key : Literal) (value : Reading) (rest : Members)

end

/-- There are four blanks, and no other white space counts. -/
def isBlank (c : Char) : Bool :=
  c = ' ' ∨ c = '\t' ∨ c = '\n' ∨ c = '\r'

def dropBlanks (text : List Char) : List Char :=
  text.dropWhile isBlank

/-- The rest of a word that can be meant by its first letter. -/
def scanWord (reading : Reading) : List Char → List Char → Reading × List Char
  | [], rest => (reading, rest)
  | _ :: _, [] => (.broken .truncated, [])
  | letter :: letters, c :: rest =>
    if c = letter then scanWord reading letters rest else (.broken .malformed, [])

/-- Behind a number with a fault nothing is read. -/
def scanNumber (text : List Char) : Reading × List Char :=
  match Numeral.scan text with
  | .ok (numeral, rest) => (.number (.ok numeral), rest)
  | .error fault => (.number (.error fault), [])

mutual

/-- The first argument bounds the steps; every step but the last takes a character. -/
def readValue : Nat → List Char → Reading × List Char
  | 0, _ => (.broken .truncated, [])
  | bound + 1, text =>
    match dropBlanks text with
    | [] => (.broken .truncated, [])
    | '"' :: rest => (.string (Literal.scan rest).1, (Literal.scan rest).2)
    | '[' :: rest => (.array (readItems bound true rest).1, (readItems bound true rest).2)
    | '{' :: rest => (.object (readMembers bound true rest).1, (readMembers bound true rest).2)
    | 'n' :: rest => scanWord .null ['u', 'l', 'l'] rest
    | 't' :: rest => scanWord (.bool true) ['r', 'u', 'e'] rest
    | 'f' :: rest => scanWord (.bool false) ['a', 'l', 's', 'e'] rest
    | c :: rest =>
      if c = '-' ∨ (Decimal.digit? c).isSome then scanNumber (c :: rest)
      else (.broken .malformed, [])

/-- Up to the next item: a bracket, or a comma unless the item is the first one. -/
def readItems : Nat → Bool → List Char → Items × List Char
  | 0, _, _ => (.broken .truncated, [])
  | bound + 1, first, text =>
    match dropBlanks text with
    | [] => (.broken .truncated, [])
    | ']' :: rest => (.closed, rest)
    | c :: rest =>
      if first then readItem bound (c :: rest)
      else if c = ',' then readItem bound rest
      else (.broken .malformed, [])

/-- An item, and the rest of its array. -/
def readItem : Nat → List Char → Items × List Char
  | 0, _ => (.broken .truncated, [])
  | bound + 1, text =>
    let (value, rest) := readValue bound text
    let (others, rest) := readItems bound false rest
    (.item value others, rest)

/-- Up to the next member: a brace, or a comma unless the member is the first one. -/
def readMembers : Nat → Bool → List Char → Members × List Char
  | 0, _, _ => (.broken .truncated, [])
  | bound + 1, first, text =>
    match dropBlanks text with
    | [] => (.broken .truncated, [])
    | '}' :: rest => (.closed, rest)
    | c :: rest =>
      if first then readMember bound (c :: rest)
      else if c = ',' then readMember bound rest
      else (.broken .malformed, [])

/-- A member, and the rest of its object. A missing colon is a fault of the value. -/
def readMember : Nat → List Char → Members × List Char
  | 0, _ => (.broken .truncated, [])
  | bound + 1, text =>
    match dropBlanks text with
    | [] => (.broken .truncated, [])
    | '"' :: rest =>
      let (key, rest) := Literal.scan rest
      let (value, rest) :=
        match dropBlanks rest with
        | [] => (.broken .truncated, [])
        | ':' :: rest => readValue bound rest
        | _ => (.broken .malformed, [])
      let (others, rest) := readMembers bound false rest
      (.member key value others, rest)
    | _ => (.broken .malformed, [])

end

/-- The first value of a text, and the text behind it. -/
def Reading.ofText (text : List Char) : Reading × List Char :=
  readValue (3 * text.length + 3) text

/-- What is said of a value that is not looked at: a numeral is malformed even where the text has
ended, and neither the size of numbers nor the pairing of surrogates counts. -/
def skipLiteral (literal : Literal) : Except Fault Unit :=
  match literal.fault with
  | none => .ok ()
  | some fault => .error fault

mutual

/-- The first fault of a value that is passed over. -/
def Reading.skip : Reading → Except Fault Unit
  | .null => .ok ()
  | .bool _ => .ok ()
  | .number (.ok _) => .ok ()
  | .number (.error _) => .error .malformed
  | .string literal => skipLiteral literal
  | .array items => items.skip
  | .object members => members.skip
  | .broken fault => .error fault

def Items.skip : Items → Except Fault Unit
  | .closed => .ok ()
  | .broken fault => .error fault
  | .item value rest => do
    value.skip
    rest.skip

def Members.skip : Members → Except Fault Unit
  | .closed => .ok ()
  | .broken fault => .error fault
  | .member key value rest => do
    skipLiteral key
    value.skip
    rest.skip

end

end UtxoLedger.Json
