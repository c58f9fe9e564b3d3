import UtxoLedger.Json.Decoder
import UtxoLedger.Json.Document
import UtxoLedger.Text.Decimal
import UtxoLedger.Transaction.Basic

/-!
# Scalars on the wire

Digests and byte strings travel as hexadecimal texts, amounts and heights as
decimal texts, since not every reader of JSON keeps 64-bit numbers exact. Type
codes and small counts are plain numbers.
-/
namespace UtxoLedger.Wire

open Json

/-- A scalar of the right kind whose content is refused. -/
inductive ContentError
  | digest (error : DigestError)
  | hex (error : HexError)
  | decimal (error : DecimalError)
  | lockType (error : ScriptError)
  | outputType (error : TransactionError)
  deriving DecidableEq, Repr

def ContentError.message : ContentError → String
  | .digest error => error.message
  | .hex error => error.message
  | .decimal error => error.message
  | .lockType error => error.message
  | .outputType error => error.message

/-- Problems with records and their scalars. -/
abbrev Problem := Json.Problem ContentError
/-- Decoders for records and their scalars. -/
abbrev Decoder := Json.Decoder ContentError

/-- What is said to whoever wrote the file. -/
def Problem.message : Problem → String
  | .fault .malformed => "malformed text"
  | .fault .truncated => "the text ends too early"
  | .shape => "a value of the wrong shape"
  | .content error => error.message

/-- Digits behind 0x. -/
def encodeDigest (digest : Digest) : Document :=
  .string digest.toHex

/-- The 0x may be missing. -/
def decodeDigest : Decoder Digest :=
  .string fun text => (Digest.ofHex text).mapError .digest

/-- Digits alone. -/
def encodeBytes (bytes : Bytes) : Document :=
  .string (Hex.encode bytes)

/-- One leading 0x is allowed. -/
def readBytes (text : List Char) : Except HexError Bytes :=
  Hex.decode (Hex.dropMark text)

def decodeBytes : Decoder Bytes :=
  .string fun text => (readBytes text).mapError .hex

/-- A decimal text, which no reader rounds. -/
def encodeAmount (amount : Amount) : Document :=
  .string (Decimal.write amount)

/-- A number that is no text is refused. -/
def decodeAmount : Decoder Amount :=
  .string fun text => (Decimal.read text).mapError .decimal

/-- A plain number, which is good enough for a setting. -/
def encodeWord (word : UInt64) : Document :=
  .number word.toNat

/-- Any word of 64 bits that is written with digits alone. -/
def decodeWord : Decoder UInt64 := fun reading =>
  (Json.Decoder.natural UInt64.size reading).map UInt64.ofNat

def encodeAge (age : UInt32) : Document :=
  .number age.toNat

def decodeAge : Decoder UInt32 := fun reading =>
  (Json.Decoder.natural UInt32.size reading).map UInt32.ofNat

def encodeLockType (kind : LockType) : Document :=
  .number kind.code.toNat

/-- A number that is too large for a code has the wrong shape. Any other is a code, known or
unknown. -/
def decodeLockType : Decoder LockType :=
  (Json.Decoder.natural UInt8.size).refine fun code =>
    (LockType.ofCode (UInt8.ofNat code)).mapError .lockType

def encodeOutputType (kind : OutputType) : Document :=
  .number kind.code.toNat

/-- Codes of output types have 32 bits. -/
def decodeOutputType : Decoder OutputType :=
  (Json.Decoder.natural UInt32.size).refine fun code =>
    (OutputType.ofCode (UInt32.ofNat code)).mapError .outputType

end UtxoLedger.Wire
