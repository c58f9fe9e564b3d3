import UtxoLedger.Bytes

/-!
# Hexadecimal text

Bytes are written as two lowercase digits each. Reading takes digits of either
case, and checks the length before the digits. The length counts UTF-8 bytes, so
a text of non-ASCII characters can have an even length; its first such character
is then reported by its leading byte.
-/
namespace UtxoLedger

/-- Why a text is no byte string. -/
inductive HexError
  | oddLength
  | badDigit (byte : UInt8) (position : Nat)
  deriving DecidableEq, Repr

namespace Hex

/-- The digit for a value below 16, in lowercase. -/
def digit (value : Nat) : Char :=
  if value < 10 then Char.ofNat ('0'.toNat + value) else Char.ofNat ('a'.toNat + (value - 10))

/-- The value of a digit, whatever its case. -/
def digit? (c : Char) : Option Nat :=
  if '0' ≤ c ∧ c ≤ '9' then some (c.toNat - '0'.toNat)
  else if 'a' ≤ c ∧ c ≤ 'f' then some (c.toNat - 'a'.toNat + 10)
  else if 'A' ≤ c ∧ c ≤ 'F' then some (c.toNat - 'A'.toNat + 10)
  else none

/-- For each byte the digit of its high half, then that of its low half. -/
def encode (bytes : Bytes) : List Char :=
  bytes.flatMap fun byte => [digit (byte.toNat / 16), digit (byte.toNat % 16)]

/-- The length of a text in UTF-8. -/
def byteLength (text : List Char) : Nat :=
  text.foldl (fun length c => length + c.utf8Size) 0

/-- Every character before a rejected one is an ASCII digit, so its index is its byte offset. -/
def digits (position : Nat) : List Char → Except HexError (List Nat)
  | [] => .ok []
  | c :: rest =>
    match digit? c with
    | some value => (digits (position + 1) rest).map (value :: ·)
    | none => .error (.badDigit ((String.utf8EncodeChar c).headD 0) position)

/-- Two values make a byte. A last one without a partner makes none. -/
def joinDigits : List Nat → Bytes
  | high :: low :: rest => UInt8.ofNat (high * 16 + low) :: joinDigits rest
  | _ => []

/-- Whether the length is even is decided before any digit is looked at. -/
def decode (text : List Char) : Except HexError Bytes :=
  if byteLength text % 2 = 1 then .error .oddLength else (digits 0 text).map joinDigits

/-- Drops one leading 0x. -/
def dropMark : List Char → List Char
  | '0' :: 'x' :: rest => rest
  | text => text

/-- Drops every leading 0x. -/
def dropMarks : List Char → List Char
  | '0' :: 'x' :: rest => dropMarks rest
  | text => text

def ofBytes (bytes : Bytes) : String :=
  String.ofList (encode bytes)

def toBytes (text : String) : Except HexError Bytes :=
  decode text.toList

end Hex

/-- A byte between quotes, read as a character of the Latin-1 block. -/
def HexError.quoted (byte : UInt8) : String :=
  let plain := Char.ofNat byte.toNat
  let shown :=
    if plain = '\'' then "\\'"
    else if plain = '\\' then "\\\\"
    else if plain = '\n' then "\\n"
    else if plain = '\t' then "\\t"
    else if plain = '\r' then "\\r"
    else if byte = 0 then "\\0"
    else if byte < 32 ∨ byte = 127 then
      let code := (Hex.encode [byte]).dropWhile (· = '0')
      "\\u\x7b" ++ String.ofList code ++ "\x7d"
    else String.singleton plain
  "'" ++ shown ++ "'"

def HexError.message : HexError → String
  | .oddLength => "Odd number of digits"
  | .badDigit byte position =>
    let shown := HexError.quoted byte
    s!"Invalid character {shown} at position {position}"

end UtxoLedger
