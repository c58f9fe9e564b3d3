import UtxoLedger.Transaction.Signing
import UtxoLedger.Proofs.Transaction.Commitment

/-!
# Signing a transaction

Signing never fails, because what is signed is a digest reduced to 32 bytes, and it changes
nothing but the unlocks. So it changes neither what a transaction spends and pays nor which
transaction it is.
-/
namespace UtxoLedger.Transaction

variable {S : SignatureScheme}

private theorem signInputs_ok (digest : Digest) (entropy : Entropy) (place : Nat)
    (inputs : List Input) (signers : List (KeyPair S)) :
    ∃ proven, signInputs digest entropy place inputs signers = .ok proven ∧
      proven.map Input.bare = inputs.map Input.bare := by
  induction inputs generalizing place signers with
  | nil => exact ⟨[], by rw [signInputs]; rintro _ _ _ _ ⟨⟩, rfl⟩
  | cons input rest ih =>
    cases signers with
    -- Inputs without a signer stay as they are.
    | nil => exact ⟨input :: rest, by rw [signInputs]; rintro _ _ _ _ _ ⟨⟩, rfl⟩
    | cons signer others =>
      obtain ⟨proven, returned, same⟩ := ih (place + 1) others
      rw [signInputs, KeyPair.sign_eq, returned]
      refine ⟨_, rfl, ?_⟩
      rw [List.map_cons, List.map_cons, same]
      rfl

theorem signed_ok (tx : Transaction) (signers : List (KeyPair S)) (entropy : Entropy) :
    ∃ proven, tx.signed signers entropy = .ok proven ∧ proven.bare = tx.bare := by
  obtain ⟨inputs, returned, same⟩ := signInputs_ok tx.digest entropy 0 tx.inputs signers
  refine ⟨{ tx with inputs }, ?_, ?_⟩
  · rw [signed, returned]
    rfl
  · rw [bare, bare, same]

theorem bare_of_signed {tx proven : Transaction} {signers : List (KeyPair S)} {entropy : Entropy}
    (signed : tx.signed signers entropy = .ok proven) : proven.bare = tx.bare := by
  obtain ⟨other, returned, same⟩ := tx.signed_ok signers entropy
  cases returned.symm.trans signed
  exact same

theorem digest_of_signed {tx proven : Transaction} {signers : List (KeyPair S)} {entropy : Entropy}
    (signed : tx.signed signers entropy = .ok proven) : proven.digest = tx.digest := by
  rw [← digest_bare, bare_of_signed signed, digest_bare]

end UtxoLedger.Transaction
