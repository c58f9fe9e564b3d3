import UtxoLedger.Bytes
import UtxoLedger.Hash.Sha256

/-!
# Signature schemes

What the ledger needs of a signature scheme, and nothing about how one works.
Transactions, wallets and cancellations are written for any scheme, so what they
need to be true of it can be said as a hypothesis; the scheme that runs is one
instance.
-/
namespace UtxoLedger

/-- Keys of two kinds, how they are written and read, and signatures of short messages. -/
structure SignatureScheme where
  SecretKey : Type
  PublicKey : Type
  publicKeyEq : DecidableEq PublicKey
  publicKey : SecretKey → PublicKey
  /-- Reads a secret key; none when the bytes are not one. -/
  secretOfBytes? : Bytes → Option SecretKey
  secretBytes : SecretKey → Bytes
  /-- Turns uniformly random bytes into a secret key. -/
  secretOfEntropy : Bytes → SecretKey
  publicOfBytes? : Bytes → Option PublicKey
  publicBytes : PublicKey → Bytes
  /-- Signs a 32-byte message with extra random data. -/
  sign : SecretKey → Bytes → Bytes → Bytes
  /-- Checks a signature of a 32-byte message; none when the bytes are no signature at all. -/
  verify? : PublicKey → Bytes → Bytes → Option Bool

/-- Random bytes by index: the data for the first use, the second use, and so on. -/
abbrev Entropy := Nat → Bytes

/-- Why keys, messages or signatures are not taken. -/
inductive KeyError
  | invalidPrivateKey
  | invalidPublicKey
  | invalidSignature
  /-- The scheme was given something else than 32 bytes to sign. -/
  | invalidMessage
  deriving DecidableEq, Repr

def KeyError.message : KeyError → String
  | .invalidPrivateKey => "Invalid private key"
  | .invalidPublicKey => "Invalid public key"
  | .invalidSignature => "Invalid signature"
  | .invalidMessage => "Secp256k1 error: message was not 32 bytes (do you need to hash?)"

namespace SignatureScheme

variable (S : SignatureScheme)

instance : DecidableEq S.PublicKey := S.publicKeyEq

/-- Messages of 32 bytes are signed as they are, all others by their hash. -/
def reduce (message : Bytes) : Bytes :=
  if message.length = 32 then message else Sha256.hash message

/-- What is signed in place of a message, provided that the scheme takes it. -/
def readMessage (message : Bytes) : Except KeyError Bytes :=
  let reduced := reduce message
  if reduced.length = 32 then .ok reduced else .error .invalidMessage

theorem reduce_length (message : Bytes) : (reduce message).length = 32 := by
  unfold reduce
  split
  next whole => exact whole
  next => exact Sha256.hash_length message

theorem readMessage_eq (message : Bytes) : readMessage message = .ok (reduce message) :=
  if_pos (reduce_length message)

/-- A signature that does not fit is a verdict, and one that cannot be read is an error. -/
def verify (key : S.PublicKey) (message signature : Bytes) : Except KeyError Bool := do
  let reduced ← readMessage message
  match S.verify? key reduced signature with
  | some verdict => .ok verdict
  | none => .error .invalidSignature

def readPublicKey (bytes : Bytes) : Except KeyError S.PublicKey :=
  match S.publicOfBytes? bytes with
  | some key => .ok key
  | none => .error .invalidPublicKey

end SignatureScheme

end UtxoLedger
