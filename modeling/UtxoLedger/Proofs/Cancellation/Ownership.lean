import UtxoLedger.Proofs.Cancellation.Rejection
import UtxoLedger.Proofs.Key.Encoding
import UtxoLedger.Proofs.Key.Lawful

/-!
# Who owns a record that is cancelled

A lock names the public key that its bytes are read as, and opens to signatures of that key. A
cancellation does not read the bytes: it compares them with the short form of the public keys at
hand. So the two agree on locks of 33 bytes, and a lock that names its key in 65 bytes belongs to
nobody as far as a cancellation is concerned, whoever holds the key.
-/
namespace UtxoLedger

namespace Lock

/-- The lock names no key, or one that none of the pairs has. -/
def Foreign {S : SignatureScheme} (keys : List (KeyPair S)) (lock : Lock) : Prop :=
  ∀ pair ∈ keys, lock.publicKey? S ≠ some pair.publicKey

section Secp256k1

variable {pair : KeyPair secp256k1} {keys : List (KeyPair secp256k1)} {lock : Lock}

theorem publicKey?_of_singleKey {S : SignatureScheme} (single : lock.isSingleKey = true) :
    lock.publicKey? S = S.publicOfBytes? lock.bytes :=
  if_pos single

/-- Owned by its bytes is named in the short form. -/
theorem ownedBy_iff (readable : secp256k1.isReadable pair.secret = true)
    (single : lock.isSingleKey = true) :
    lock.OwnedBy pair ↔
      lock.publicKey? secp256k1 = some pair.publicKey ∧ lock.bytes.length = 33 := by
  rw [publicKey?_of_singleKey single]
  constructor
  · rintro ⟨-, same⟩
    rw [← same]
    exact ⟨of_decide_eq_true readable, Curve.Point.toBytes_length _⟩
  · rintro ⟨named, short⟩
    exact ⟨single, Curve.Point.toBytes_of_ofBytes? named short⟩

/-- Nobody owns a lock of foreign bytes, and nobody owns one in the long form. -/
theorem unowned_iff (readable : ∀ pair ∈ keys, secp256k1.isReadable pair.secret = true)
    (single : lock.isSingleKey = true) :
    (∀ pair ∈ keys, pair.publicBytes ≠ lock.bytes) ↔
      lock.Foreign keys ∨ lock.bytes.length = 65 := by
  constructor
  · intro unowned
    by_contra named
    obtain ⟨known, short⟩ := not_or.mp named
    simp only [Foreign, not_forall, Decidable.not_not] at known
    obtain ⟨pair, member, named⟩ := known
    have read := named
    rw [publicKey?_of_singleKey single] at read
    have size := (Curve.Point.ofBytes?_length read).resolve_right short
    exact unowned pair member ((ownedBy_iff (readable pair member) single).mpr ⟨named, size⟩).bytes
  · rintro (foreign | long) pair member same
    · have owned : lock.OwnedBy pair := ⟨single, same⟩
      exact foreign pair member ((ownedBy_iff (readable pair member) single).mp owned).1
    · rw [← same, KeyPair.publicBytes] at long
      exact absurd (long.symm.trans (Curve.Point.toBytes_length _)) (by decide)

end Secp256k1

end Lock

namespace Cancellation

/-- A missing key pair is reported exactly where nothing else is in the way and some record that
would be spent names a key of nobody's, or names any key at all in 65 bytes. Only the latter can be
reported of records whose keys are all at hand. -/
theorem build_notFoundKey_iff (pending : Transaction) (records : List Unspent)
    (keys : List (KeyPair secp256k1)) (policy : FeePolicy) (entropy : Entropy)
    (readable : ∀ pair ∈ keys, secp256k1.isReadable pair.secret = true) :
    build pending records keys policy entropy = .error .notFoundKey ↔
      (∀ earlier ∈ Rejection.earlier .notFoundKey,
        ¬Obstacle pending records keys policy earlier) ∧
      Spends pending records fun entry =>
        entry.lock.Foreign keys ∨ entry.lock.bytes.length = 65 := by
  have explained := build_explained pending records keys policy entropy
  -- Locks of other types are found out before the key pairs are looked through.
  have unowned_iff (unlocked : ¬Obstacle pending records keys policy .unsupportedLockType) :
      Obstacle pending records keys policy .notFoundKey ↔
        Spends pending records fun entry =>
          entry.lock.Foreign keys ∨ entry.lock.bytes.length = 65 := by
    refine exists_congr fun input => and_congr_right fun spending => exists_congr fun entry =>
      and_congr_right fun first => Lock.unowned_iff readable ?_
    by_contra other
    exact unlocked ⟨input, spending, entry, first, fun single => other (decide_eq_true single)⟩
  have unlocked : .unsupportedLockType ∈ Rejection.earlier .notFoundKey := by decide
  rw [explained.error_iff]
  constructor
  · rintro ⟨stands, passed⟩
    exact ⟨passed, (unowned_iff (passed _ unlocked)).mp stands⟩
  · rintro ⟨passed, spends⟩
    exact ⟨(unowned_iff (passed _ unlocked)).mpr spends, passed⟩

/-- One coin is locked to the short form of a public key, the other to the same key in a long form
that repeats the parity. -/
theorem build_notFoundKey_iff_two_forms :
    let pair : KeyPair secp256k1 := ⟨⟨1, by decide, by decide⟩⟩
    let point := Curve.Point.generator
    let long : Lock := ⟨.key, 6 :: Bytes.bigEndian 32 point.x ++ Bytes.bigEndian 32 point.y⟩
    let coin := fun (byte : UInt8) (lock : Lock) =>
      (⟨⟨List.replicate 64 byte, List.length_replicate⟩, .payment, 0, 1000000, lock⟩ : Unspent)
    let records := [coin 1 (.ofPublicKey pair.publicKey), coin 2 long]
    let pending : Transaction := {
      inputs := records.map fun entry => { utxo := entry.utxo }
      outputs := [⟨.payment, 500000, ⟨.key, [2]⟩⟩] }
    (∀ held : KeyPair secp256k1, held ∈ [pair] → secp256k1.isReadable held.secret = true) ∧
    build pending records [pair] {} (fun _ => []) = .error .notFoundKey ∧
    (∀ earlier ∈ Rejection.earlier .notFoundKey,
      ¬Obstacle pending records [pair] {} earlier) ∧
    Spends pending records fun entry =>
      entry.lock.Foreign [pair] ∨ entry.lock.bytes.length = 65 := by
  intro pair point long coin records pending
  have readable : ∀ held : KeyPair secp256k1, held ∈ [pair] →
      secp256k1.isReadable held.secret = true := by
    intro held member
    rw [List.mem_singleton.mp member]
    decide +kernel
  have returned : build pending records [pair] {} (fun _ => []) = .error .notFoundKey := by
    decide +kernel
  exact ⟨readable, returned,
    (build_notFoundKey_iff pending records [pair] {} _ readable).mp returned⟩

/-- The only coin is locked to the public key at hand, in its uncompressed form. The lock is read as
that key, and still no key pair is said to own the coin. -/
theorem build_misses_owner :
    let pair : KeyPair secp256k1 := ⟨⟨1, by decide, by decide⟩⟩
    let point := Curve.Point.generator
    let lock : Lock := ⟨.key, 4 :: Bytes.bigEndian 32 point.x ++ Bytes.bigEndian 32 point.y⟩
    let coin : Unspent := ⟨⟨List.replicate 64 1, List.length_replicate⟩, .payment, 0, 1000000, lock⟩
    let pending : Transaction := {
      inputs := [{ utxo := coin.utxo }], outputs := [⟨.payment, 500000, ⟨.key, [2]⟩⟩] }
    lock.publicKey? secp256k1 = some pair.publicKey ∧
    build pending [coin] [pair] {} (fun _ => []) = .error .notFoundKey ∧
    ¬Spends pending [coin] fun entry => entry.lock.Foreign [pair] := by
  intro pair point lock coin pending
  have named : lock.publicKey? secp256k1 = some pair.publicKey := by decide +kernel
  refine ⟨named, by decide +kernel, ?_⟩
  rintro ⟨input, -, entry, first, foreign⟩
  rw [List.mem_singleton.mp first.member] at foreign
  exact foreign pair List.mem_cons_self named

end Cancellation

end UtxoLedger
