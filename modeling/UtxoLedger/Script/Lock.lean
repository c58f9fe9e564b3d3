import UtxoLedger.Contribution
import UtxoLedger.Key.Pair
import UtxoLedger.Script.Stack

/-!
# Locks and unlocks

A lock says who may spend an output, an unlock shows that a spender may. Only
single-key locks are decided here: their bytes are a public key, and what unlocks
them is a signature of the spending transaction's digest. The other kinds are
carried along and never open.
-/
namespace UtxoLedger

/-- How a lock says who may spend. -/
inductive LockType
  | key
  | keyHash
  | script
  | redeem
  deriving DecidableEq, Repr

namespace LockType

/-- The number of a type on the wire and in a hash. -/
def code : LockType → UInt8
  | .key => 0
  | .keyHash => 1
  | .script => 2
  | .redeem => 3

/-- Numbers from 4 on stand for no type. -/
def ofCode (code : UInt8) : Except ScriptError LockType :=
  if code = 0 then .ok .key
  else if code = 1 then .ok .keyHash
  else if code = 2 then .ok .script
  else if code = 3 then .ok .redeem
  else .error (.unknownLockType code)

def name : LockType → String
  | .key => "Key"
  | .keyHash => "KeyHash"
  | .script => "Script"
  | .redeem => "Redeem"

end LockType

/-- The bytes are read as the type says; for a single key they are its public key. -/
structure Lock where
  kind : LockType
  bytes : Bytes
  deriving DecidableEq, Repr

/-- What a spender shows. Before a transaction is signed that is nothing. -/
structure Unlock where
  bytes : Bytes := []
  deriving DecidableEq, Repr

instance : Contributes Lock :=
  ⟨fun lock => contribution lock.kind.code ++ contribution lock.bytes⟩

instance : Contributes Unlock :=
  ⟨fun unlock => contribution unlock.bytes⟩

namespace Lock

/-- The lock that whoever has the secret key opens. -/
def ofPublicKey {S : SignatureScheme} (key : S.PublicKey) : Lock :=
  ⟨.key, S.publicBytes key⟩

def isSingleKey (lock : Lock) : Bool :=
  lock.kind = .key

variable (S : SignatureScheme)

/-- The key that a single-key lock names; none if its bytes are not a key. -/
def publicKey? (lock : Lock) : Option S.PublicKey :=
  if lock.isSingleKey then S.publicOfBytes? lock.bytes else none

/-- A key or a signature that cannot be read is an error, not a refusal. -/
def verify (lock : Lock) (unlock : Unlock) (digest : Digest) : Except KeyError Bool :=
  if lock.isSingleKey then do
    let key ← S.readPublicKey lock.bytes
    S.verify key digest.bytes unlock.bytes
  else
    .ok false

variable {S} in
theorem verify_of_key {lock : Lock} {unlock : Unlock} {digest : Digest} {key : S.PublicKey}
    (single : lock.isSingleKey = true) (read : S.readPublicKey lock.bytes = .ok key) :
    lock.verify S unlock digest = S.verify key digest.bytes unlock.bytes := by
  rw [verify, if_pos single, read]
  rfl

/-- Puts the unlock on a bounded stack first, whatever the lock, so one that is too long is an
error before anything is checked. A key or a signature that cannot be read is a refusal. -/
def evaluate (lock : Lock) (unlock : Unlock) (digest : Digest) (limits : StackLimits) :
    Except ScriptError Bool := do
  -- An unlock that does not fit is an error even where the lock would refuse it.
  let stack ← (Stack.empty limits).push unlock.bytes
  if lock.isSingleKey then
    let (signature, _) ← stack.pop
    match S.readPublicKey lock.bytes with
    | .error _ => return false
    | .ok key =>
      match S.verify key digest.bytes signature with
      | .error _ => return false
      | .ok verdict => return verdict
  else
    return false

end Lock

end UtxoLedger
