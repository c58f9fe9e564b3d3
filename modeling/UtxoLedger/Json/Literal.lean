import UtxoLedger.Text.Hex

/-!
# String literals

What stands between two quotation marks, read without judging escaped code units:
a unit of the surrogate range is kept as it is. Only the text of a literal needs
surrogates to come in pairs; a literal that is skipped does not.
-/
namespace UtxoLedger.Json

/-- Why a text is no JSON: it goes wrong somewhere, or it ends too early. -/
inductive Fault
  | malformed
  | truncated
  deriving DecidableEq, Repr

/-- A character, or an escaped code unit that is none. -/
inductive Piece
  | char (c : Char)
  | surrogate (unit : Nat)
  deriving DecidableEq, Repr

/-- The pieces of a literal as far as it goes. -/
structure Literal where
  pieces : List Piece
  /-- What stopped the literal before its closing mark. -/
  fault : Option Fault
  deriving DecidableEq, Repr

namespace Literal

def cons (piece : Piece) (scanned : Literal × List Char) : Literal × List Char :=
  ({ scanned.1 with pieces := piece :: scanned.1.pieces }, scanned.2)

/-- A fault, and nothing to read behind it. -/
def stopped (fault : Fault) : Literal × List Char :=
  (⟨[], some fault⟩, [])

/-- The code unit that four hexadecimal digits spell. -/
def unit? (a b c d : Char) : Option Nat := do
  let a ← Hex.digit? a
  let b ← Hex.digit? b
  let c ← Hex.digit? c
  let d ← Hex.digit? d
  return ((a * 16 + b) * 16 + c) * 16 + d

def pieceOfUnit (unit : Nat) : Piece :=
  if 0xd800 ≤ unit ∧ unit ≤ 0xdfff then .surrogate unit else .char (Char.ofNat unit)

/-- The characters that can be escaped by a single letter or mark. -/
def escaped? : Char → Option Char
  | '"' => some '"'
  | '\\' => some '\\'
  | '/' => some '/'
  | 'b' => some '\x08'
  | 'f' => some '\x0c'
  | 'n' => some '\n'
  | 'r' => some '\r'
  | 't' => some '\t'
  | _ => none

/-- Reads up to the closing mark. Four bytes have to follow an escape of a code unit before it
matters what they are. -/
def scan : List Char → Literal × List Char
  | [] => stopped .truncated
  | '"' :: rest => (⟨[], none⟩, rest)
  | ['\\'] => stopped .truncated
  | '\\' :: 'u' :: a :: b :: c :: d :: rest =>
    match unit? a b c d with
    | some unit => cons (pieceOfUnit unit) (scan rest)
    | none => stopped .malformed
  | '\\' :: 'u' :: rest => stopped (if Hex.byteLength rest < 4 then .truncated else .malformed)
  | '\\' :: c :: rest =>
    match escaped? c with
    | some plain => cons (.char plain) (scan rest)
    | none => stopped .malformed
  | c :: rest => if c.toNat < 0x20 then stopped .malformed else cons (.char c) (scan rest)

/-- A leading surrogate needs the trailing one right behind it. -/
def join (fault : Option Fault) : List Piece → Except Fault (List Char)
  | [] =>
    match fault with
    | none => .ok []
    | some fault => .error fault
  | .char c :: rest => (join fault rest).map (c :: ·)
  | .surrogate high :: rest =>
    if high ≥ 0xdc00 then .error .malformed
    else
      match rest with
      | [] => .error (fault.getD .malformed)
      | .surrogate low :: rest =>
        if low < 0xdc00 then .error .malformed
        else
          let code := 0x10000 + (high - 0xd800) * 0x400 + (low - 0xdc00)
          (join fault rest).map (Char.ofNat code :: ·)
      | .char _ :: _ => .error .malformed

/-- The text that the pieces make up. -/
def text (literal : Literal) : Except Fault (List Char) :=
  join literal.fault literal.pieces

/-- A character as it is written. Only quotation marks, backslashes and control characters are
escaped. -/
def escape (c : Char) : List Char :=
  if c = '"' then ['\\', '"']
  else if c = '\\' then ['\\', '\\']
  else if c = '\x08' then ['\\', 'b']
  else if c = '\x0c' then ['\\', 'f']
  else if c = '\n' then ['\\', 'n']
  else if c = '\r' then ['\\', 'r']
  else if c = '\t' then ['\\', 't']
  else if c.toNat < 0x20 then '\\' :: 'u' :: '0' :: '0' :: Hex.encode [UInt8.ofNat c.toNat]
  else [c]

/-- The literal of a text, with its marks. -/
def quote (text : List Char) : List Char :=
  '"' :: text.flatMap escape ++ ['"']

end Literal

end UtxoLedger.Json
