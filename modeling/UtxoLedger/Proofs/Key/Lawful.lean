import UtxoLedger.Script.Lock
import UtxoLedger.Proofs.Amount.Exact

/-!
# What the ledger asks of a signature scheme

A lawful scheme accepts the signatures that it makes, reads the public keys that it writes, and
takes nothing but 64 bytes for a signature. So whoever holds a key pair opens the locks that name
its public key. Any scheme can be guarded: the guarded scheme is lawful, and it is the scheme
itself wherever that one keeps its word.
-/
namespace UtxoLedger

namespace SignatureScheme

variable {S : SignatureScheme}

/-- Laws of keys that belong together; nothing is said of other keys or other signatures. -/
structure Lawful (S : SignatureScheme) : Prop where
  compact : ∀ key message signature verdict,
    S.verify? key message signature = some verdict → signature.length = 64
  verify_sign : ∀ secret message extra, message.length = 32 →
    S.verify? (S.publicKey secret) message (S.sign secret message extra) = some true
  read_public : ∀ secret,
    S.publicOfBytes? (S.publicBytes (S.publicKey secret)) = some (S.publicKey secret)

section Lawful

variable {pair : KeyPair S} {message extra signature : Bytes}

theorem verify_ok_iff {key : S.PublicKey} {verdict : Bool} :
    S.verify key message signature = .ok verdict ↔
      S.verify? key (reduce message) signature = some verdict := by
  rw [verify, readMessage_eq, Except.bind_ok_iff]
  simp only [Except.ok.injEq, exists_eq_left']
  cases S.verify? key (reduce message) signature <;> simp

theorem Lawful.length_of_verify (lawful : S.Lawful) {key : S.PublicKey} {verdict : Bool}
    (verified : S.verify key message signature = .ok verdict) : signature.length = 64 :=
  lawful.compact _ _ _ _ (verify_ok_iff.mp verified)

theorem Lawful.verify_of_sign (lawful : S.Lawful)
    (signed : pair.sign message extra = .ok signature) :
    S.verify pair.publicKey message signature = .ok true := by
  rw [KeyPair.sign_eq] at signed
  cases signed
  -- Signing and verifying reduce the message to the same 32 bytes.
  rw [verify_ok_iff]
  exact lawful.verify_sign pair.secret _ extra (reduce_length message)

end Lawful

/-- The public key of the secret can be read back from its bytes. -/
def isReadable (S : SignatureScheme) (secret : S.SecretKey) : Bool :=
  S.publicOfBytes? (S.publicBytes (S.publicKey secret)) = some (S.publicKey secret)

/-- Stands for a signature that would not verify. -/
def mark : Bytes :=
  List.replicate 64 0

/-- The scheme kept to its word. Secrets whose public keys cannot be read back are refused, and so
are signatures of another length; one that does not verify gives way to a mark that does. -/
def guarded (S : SignatureScheme) (spare : { secret // S.isReadable secret }) : SignatureScheme where
  SecretKey := { secret // S.isReadable secret }
  PublicKey := S.PublicKey
  publicKeyEq := S.publicKeyEq
  publicKey secret := S.publicKey secret.val
  secretOfBytes? bytes := do
    let secret ← S.secretOfBytes? bytes
    if readable : S.isReadable secret then some ⟨secret, readable⟩ else none
  secretBytes secret := S.secretBytes secret.val
  secretOfEntropy random :=
    let secret := S.secretOfEntropy random
    if readable : S.isReadable secret then ⟨secret, readable⟩ else spare
  publicOfBytes? := S.publicOfBytes?
  publicBytes := S.publicBytes
  sign secret message extra :=
    let signature := S.sign secret.val message extra
    if signature.length = 64 ∧ S.verify? (S.publicKey secret.val) message signature = some true then
      signature
    else mark
  verify? key message signature :=
    if signature = mark then some true
    else if signature.length = 64 then S.verify? key message signature
    else none

theorem guarded_lawful (S : SignatureScheme) (spare : { secret // S.isReadable secret }) :
    (S.guarded spare).Lawful := by
  constructor
  · intro key message signature verdict verified
    simp only [guarded] at verified
    split at verified
    next marked => simp [marked, mark]
    next =>
      split at verified
      next compact => exact compact
      next => cases verified
  · intro secret message extra _
    simp only [guarded]
    by_cases kept : (S.sign secret.val message extra).length = 64 ∧
        S.verify? (S.publicKey secret.val) message (S.sign secret.val message extra) = some true
    · simp [kept]
    · simp [kept]
  · intro secret
    exact of_decide_eq_true secret.property

end SignatureScheme

namespace Lock

variable {S : SignatureScheme} {pair : KeyPair S} {lock : Lock}

/-- The lock names the public key of the pair. -/
structure OwnedBy (pair : KeyPair S) (lock : Lock) : Prop where
  singleKey : lock.isSingleKey = true
  bytes : pair.publicBytes = lock.bytes

theorem ownedBy_ofPublicKey (pair : KeyPair S) : OwnedBy pair (.ofPublicKey pair.publicKey) :=
  ⟨rfl, rfl⟩

theorem OwnedBy.verify_eq (owned : lock.OwnedBy pair) (lawful : S.Lawful) {digest : Digest}
    {unlock : Unlock} :
    lock.verify S unlock digest = S.verify pair.publicKey digest.bytes unlock.bytes := by
  have read : S.readPublicKey lock.bytes = .ok pair.publicKey := by
    rw [← owned.bytes, SignatureScheme.readPublicKey]
    have found : S.publicOfBytes? pair.publicBytes = some pair.publicKey :=
      lawful.read_public pair.secret
    rw [found]
  exact verify_of_key owned.singleKey read

theorem OwnedBy.verify (owned : lock.OwnedBy pair) (lawful : S.Lawful) {digest : Digest}
    {extra signature : Bytes} (signed : pair.sign digest.bytes extra = .ok signature) :
    lock.verify S ⟨signature⟩ digest = .ok true := by
  rw [owned.verify_eq lawful]
  exact lawful.verify_of_sign signed

end Lock

end UtxoLedger
