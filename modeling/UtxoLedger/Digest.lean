import UtxoLedger.Text.Hex
import UtxoLedger.Hash.Blake2b

/-!
# Digests

A digest is 64 bytes, written as 0x and 128 lowercase hexadecimal digits. Reading
drops at most one 0x and looks at the length first, then for uppercase letters,
then at the digits.
-/
namespace UtxoLedger

/-- Sixty-four bytes that identify a record. -/
structure Digest where
  bytes : Bytes
  length_eq : bytes.length = 64
  deriving DecidableEq

/-- Why a text or some bytes are no digest. -/
inductive DigestError
  | invalidLength (bytes : Nat)
  | uppercaseDigit
  | invalidHex (error : HexError)
  deriving DecidableEq, Repr

def DigestError.message : DigestError → String
  | .invalidLength bytes => s!"Invalid digest length: expected 64 bytes, got {bytes}"
  | .uppercaseDigit => "Invalid hex string: uppercase hex digit"
  | .invalidHex error => "Invalid hex string: " ++ error.message

namespace Digest

/-- The digest of an absent record. -/
def null : Digest :=
  ⟨List.replicate 64 0, List.length_replicate⟩

def isNull (digest : Digest) : Bool :=
  digest = null

/-- Takes 64 bytes and refuses any other number of them. -/
def ofBytes (bytes : Bytes) : Except DigestError Digest :=
  if h : bytes.length = 64 then .ok ⟨bytes, h⟩ else .error (.invalidLength bytes.length)

/-- The one form in which digests are written. -/
def toHex (digest : Digest) : List Char :=
  '0' :: 'x' :: Hex.encode digest.bytes

/-- Reads the digits, with or without 0x. A wrong length is reported in bytes of a digest, and two
bytes of the text make one of them. -/
def ofHex (text : List Char) : Except DigestError Digest :=
  let body := Hex.dropMark text
  if Hex.byteLength body ≠ 128 then .error (.invalidLength (Hex.byteLength body / 2))
  else if body.any fun c => 'A' ≤ c ∧ c ≤ 'Z' then .error .uppercaseDigit
  else
    match Hex.decode body with
    | .error error => .error (.invalidHex error)
    | .ok bytes => ofBytes bytes

def toString (digest : Digest) : String :=
  String.ofList digest.toHex

def ofString (text : String) : Except DigestError Digest :=
  ofHex text.toList

/-- The text that names the type as well. -/
def describe (digest : Digest) : String :=
  "Digest(" ++ digest.toString ++ ")"

/-- Byte by byte, the first difference deciding. -/
def order (left right : Digest) : Ordering :=
  compare left.bytes right.bytes

/-- The digest of any bytes. -/
def ofMessage (message : Bytes) : Digest :=
  ⟨Blake2b.hash message, Blake2b.hash_length message⟩

end Digest

end UtxoLedger
