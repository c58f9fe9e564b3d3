import UtxoLedger.Json.Reading

/-!
# Decoding

A decoder walks a reading from the front and stops at the first problem: a fault
of the text, a value of the wrong shape, or a scalar whose content is refused.
Records are written as objects, or as arrays of their fields in order. Members
with unknown names are skipped; a known one may come once.
-/
namespace UtxoLedger.Json

/-- What is wrong with a text that was to be decoded. -/
inductive Problem (ε : Type)
  | fault (fault : Fault)
  | shape
  | content (error : ε)
  deriving DecidableEq, Repr

/-- Makes a value of a reading. -/
abbrev Decoder (ε α : Type) := Reading → Except (Problem ε) α

variable {ε α β σ : Type}

/-- Why a value of another kind was wanted. Numbers and strings are read to their ends first. -/
def Reading.mismatch : Reading → Problem ε
  | .broken fault => .fault fault
  | .number (.error fault) => .fault fault
  | .number (.ok numeral) => if numeral.overflows then .fault .malformed else .shape
  | .string literal =>
    match literal.text with
    | .error fault => .fault fault
    | .ok _ => .shape
  | _ => .shape

namespace Decoder

/-- A natural number below `limit`, written with digits alone. -/
def natural (limit : Nat) : Decoder ε Nat
  | .number (.ok numeral) =>
    if numeral.isNatural ∧ Numeral.value numeral.whole < limit then
      .ok (Numeral.value numeral.whole)
    else .error (Reading.number (.ok numeral)).mismatch
  | reading => .error reading.mismatch

/-- A text that is read further. It is complete before anyone judges its content. -/
def string (read : List Char → Except ε α) : Decoder ε α
  | .string literal =>
    match literal.text with
    | .error fault => .error (.fault fault)
    | .ok text => (read text).mapError .content
  | reading => .error reading.mismatch

/-- Checks what was decoded. -/
def refine (decoder : Decoder ε β) (check : β → Except ε α) : Decoder ε α := fun reading => do
  let value ← decoder reading
  (check value).mapError .content

/-- The items in order, up to the first problem. -/
def items (decoder : Decoder ε α) : Items → Except (Problem ε) (List α)
  | .closed => .ok []
  | .broken fault => .error (.fault fault)
  | .item value rest => do
    let first ← decoder value
    let others ← items decoder rest
    return first :: others

/-- An array whose items are all of one kind. -/
def list (decoder : Decoder ε α) : Decoder ε (List α)
  | .array values => items decoder values
  | reading => .error reading.mismatch

end Decoder

/-- A named part of a record that is being put together. -/
structure Field (ε σ : Type) where
  name : String
  isGiven : σ → Bool
  store : Reading → σ → Except (Problem ε) σ

/-- A part that a decoder reads and that is kept in an optional place. -/
def Field.of (name : String) (decoder : Decoder ε α) (get : σ → Option α) (set : σ → α → σ) :
    Field ε σ where
  name
  isGiven partly := (get partly).isSome
  store reading partly := do
    let value ← decoder reading
    return set partly value

namespace Decoder

/-- The members in the order of the text, each stored where its name belongs. -/
def members (fields : List (Field ε σ)) : Members → σ → Except (Problem ε) σ
  | .closed, partly => .ok partly
  | .broken fault, _ => .error (.fault fault)
  | .member key value rest, partly => do
    let name ← key.text.mapError .fault
    match fields.find? fun field => field.name.toList = name with
    | none =>
      -- An unknown member is passed over, but its faults are not.
      value.skip.mapError .fault
      members fields rest partly
    | some field =>
      if field.isGiven partly then .error .shape
      let more ← field.store value partly
      members fields rest more

/-- Nothing may follow the last field, not even a comma. -/
def inOrder : List (Field ε σ) → Items → σ → Except (Problem ε) σ
  | _, .closed, partly => .ok partly
  | _, .broken fault, _ => .error (.fault fault)
  | [], .item _ _, _ => .error (.fault .malformed)
  | field :: fields, .item value rest, partly => do
    let more ← field.store value partly
    inOrder fields rest more

/-- Starts from nothing given; `finish` fails when a field that is needed was left out. -/
def record (fields : List (Field ε σ)) (start : σ) (finish : σ → Option α) : Decoder ε α :=
  fun reading => do
    let partly ←
      match reading with
      | .object given => members fields given start
      | .array given => inOrder fields given start
      | _ => .error reading.mismatch
    match finish partly with
    | some value => return value
    | none => .error .shape

/-- A text holds one value and blanks around it. -/
def run (decoder : Decoder ε α) (text : List Char) : Except (Problem ε) α := do
  let (reading, rest) := Reading.ofText text
  let value ← decoder reading
  if (dropBlanks rest).isEmpty then return value
  .error (.fault .malformed)

end Decoder

end UtxoLedger.Json
