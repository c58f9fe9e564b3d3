import Mathlib.Data.List.Forall2
import UtxoLedger.Proofs.Key.Lawful
import UtxoLedger.Proofs.Transaction.Signing

/-!
# Signed transactions verify

What is signed is the digest of the transaction before there were any unlocks, what is checked
is the digest of the one that has them. The two are the same. So a transaction verifies as soon
as each input is signed by the owner of the lock in its place.
-/
namespace UtxoLedger.Transaction

variable {S : SignatureScheme}

/-- Every unlock has the length of a signature and opens the lock in its place. -/
structure Verified (S : SignatureScheme) (tx : Transaction) (locks : List Lock) : Prop where
  compact : ∀ input ∈ tx.inputs, input.unlock.bytes.length = 64
  verifies : tx.verifySignatures S locks = .ok true

private theorem signInputs_cons_ok_iff {digest : Digest} {entropy : Entropy} {place : Nat}
    {input : Input} {inputs proven : List Input} {signer : KeyPair S} {signers : List (KeyPair S)} :
    signInputs digest entropy place (input :: inputs) (signer :: signers) = .ok proven ↔
      ∃ signature others, signer.sign digest.bytes (entropy place) = .ok signature ∧
        signInputs digest entropy (place + 1) inputs signers = .ok others ∧
        proven = { input with unlock := ⟨signature⟩ } :: others := by
  rw [signInputs]
  simp only [Except.bind_ok_iff]
  constructor
  · rintro ⟨signature, signed, others, rest, returned⟩
    cases returned
    exact ⟨signature, others, signed, rest, rfl⟩
  · rintro ⟨signature, others, signed, rest, rfl⟩
    exact ⟨signature, signed, others, rest, rfl⟩

/-- Inputs, signers and locks go in step, whatever place the first input has. -/
private theorem verifyEach_of_signInputs (lawful : S.Lawful) {digest : Digest} {entropy : Entropy}
    {place : Nat} {inputs proven : List Input} {signers : List (KeyPair S)} {locks : List Lock}
    (owned : List.Forall₂ Lock.OwnedBy signers locks) (count : inputs.length = signers.length)
    (signed : signInputs digest entropy place inputs signers = .ok proven) :
    proven.length = locks.length ∧ (∀ input ∈ proven, input.unlock.bytes.length = 64) ∧
      verifyEach S digest (proven.zip locks) = .ok true := by
  induction owned generalizing place inputs proven with
  | nil =>
    have none : inputs = [] := List.length_eq_zero_iff.mp count
    subst none
    have nothing : proven = [] := by simpa [signInputs, eq_comm] using signed
    simp [nothing, verifyEach]
  | @cons signer lock signers locks first _ ih =>
    cases inputs with
    | nil => cases count
    | cons input inputs =>
      obtain ⟨signature, others, made, rest, rfl⟩ := signInputs_cons_ok_iff.mp signed
      obtain ⟨lengths, compact, verified⟩ := ih (Nat.succ.inj count) rest
      have opened := first.verify lawful made
      refine ⟨by simp [lengths], ?_, ?_⟩
      · intro proof member
        rcases List.mem_cons.mp member with rfl | later
        · exact lawful.length_of_verify (lawful.verify_of_sign made)
        · exact compact proof later
      · rw [List.zip_cons_cons, verifyEach, opened]
        exact verified

theorem verified_of_signed (lawful : S.Lawful) {tx proven : Transaction}
    {signers : List (KeyPair S)} {locks : List Lock} {entropy : Entropy}
    (owned : List.Forall₂ Lock.OwnedBy signers locks)
    (count : tx.inputs.length = signers.length)
    (signed : tx.signed signers entropy = .ok proven) : proven.Verified S locks := by
  have digest := digest_of_signed signed
  obtain ⟨inputs, each, returned⟩ := Except.bind_ok_iff.mp signed
  obtain ⟨lengths, compact, verified⟩ := verifyEach_of_signInputs lawful owned count each
  cases returned
  refine ⟨compact, ?_⟩
  rw [verifySignatures, if_neg (not_not_intro lengths.symm), digest, verified]
  rfl

/-- One owner signs for all inputs. -/
theorem verified_of_owner (lawful : S.Lawful) {tx proven : Transaction} {owner : KeyPair S}
    {entropy : Entropy}
    (signed : tx.signed (tx.inputs.map fun _ => owner) entropy = .ok proven) :
    proven.Verified S (proven.inputs.map fun _ => .ofPublicKey owner.publicKey) := by
  have same : proven.inputs.map (fun _ => Lock.ofPublicKey owner.publicKey) =
      tx.inputs.map fun _ => .ofPublicKey owner.publicKey :=
    map_inputs_of_bare _ (fun _ => rfl) (bare_of_signed signed)
  rw [same]
  refine verified_of_signed lawful ?_ (List.length_map _).symm signed
  simp only [List.forall₂_map_left_iff, List.forall₂_map_right_iff, List.forall₂_same]
  intro _ _
  exact Lock.ownedBy_ofPublicKey owner

end UtxoLedger.Transaction
