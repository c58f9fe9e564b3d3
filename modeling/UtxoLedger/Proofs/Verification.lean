import UtxoLedger.Proofs.Cancellation.Pricing
import UtxoLedger.Proofs.Transaction.Verification
import UtxoLedger.Proofs.Wallet.Outbidding

/-!
# Whatever is signed verifies

There are three ways to a signed transaction: a draft, a payment out of a wallet, and a
cancellation. The first two sign with one owner for all inputs. The last one looks for a key pair
for each record by the bytes of its lock, and signs each input with the pair found for its record.
-/
namespace UtxoLedger

variable {S : SignatureScheme}

/-- A draft is signed by its owner, whatever it spends. -/
theorem Draft.signed_of_sign {draft : Draft S} {kind : OutputType} {fees : Fees}
    {entropy : Entropy} {tx : Transaction} (returned : draft.sign kind fees entropy = .ok tx) :
    ∃ spent, (draft.unsigned kind spent).signed
      ((draft.unsigned kind spent).inputs.map fun _ => draft.owner) entropy = .ok tx := by
  unfold sign at returned
  obtain ⟨spent, -, rest⟩ := Except.bind_ok_iff.mp returned
  dsimp only at rest
  split at rest
  · cases rest
  · exact ⟨spent, Except.mapError_ok_iff.mp rest⟩

theorem Draft.verified_of_sign (lawful : S.Lawful) {draft : Draft S} {kind : OutputType}
    {fees : Fees} {entropy : Entropy} {tx : Transaction}
    (returned : draft.sign kind fees entropy = .ok tx) :
    tx.Verified S (tx.inputs.map fun _ => .ofPublicKey draft.owner.publicKey) := by
  obtain ⟨spent, signed⟩ := signed_of_sign returned
  exact Transaction.verified_of_owner lawful signed

theorem Wallet.verified_of_send (lawful : S.Lawful) {wallet : Wallet S} {set left : WorkingSet}
    {payment : Payment} {policy : FeePolicy} {entropy : Entropy} {tx : Transaction}
    (returned : wallet.send set payment policy entropy = .ok (tx, left)) :
    tx.Verified S (tx.inputs.map fun _ => wallet.lock) := by
  obtain ⟨-, _, _, _, _, -, -, -, prepared, -, signed⟩ := send_ok_iff.mp returned
  -- The draft of a payment belongs to the wallet.
  obtain ⟨-, _, -, -, rfl⟩ := prepare_ok_iff.mp prepared
  exact Draft.verified_of_sign lawful signed

namespace Cancellation

/-- A signer is found by the bytes of a lock, so it owns the lock if that names a key at all. -/
theorem ownedBy_of_signer? {keys : List (KeyPair S)} {entry : Unspent} {pair : KeyPair S}
    (singleKey : entry.lock.isSingleKey = true) (found : signer? keys entry = some pair) :
    entry.lock.OwnedBy pair := by
  have named := List.find?_some found
  exact ⟨singleKey, of_decide_eq_true named⟩

theorem Approved.owners {tx : Transaction} {records : List Unspent} {keys : List (KeyPair S)}
    {policy : FeePolicy} {spent : List Unspent} {signers : List (KeyPair S)} {fee : Amount}
    (approved : Approved tx records keys policy spent signers fee) :
    List.Forall₂ Lock.OwnedBy signers (spent.map Unspent.lock) := by
  rw [List.forall₂_map_right_iff]
  have found := approved.owned
  have singleKey := approved.singleKey
  clear approved
  induction found with
  | nil => exact .nil
  | @cons entry pair _ _ first _ ih =>
    refine .cons ?_ (ih fun other member => singleKey other (List.mem_cons_of_mem _ member))
    exact ownedBy_of_signer? (singleKey entry List.mem_cons_self) first

theorem verified_of_build (lawful : S.Lawful) {pending : Transaction} {records : List Unspent}
    {keys : List (KeyPair S)} {policy : FeePolicy} {entropy : Entropy} {built : Cancellation}
    (returned : build pending records keys policy entropy = .ok built) :
    ∃ spent, List.Forall₂ (FirstRecord records) pending.inputs spent ∧
      built.tx.Verified S (spent.map Unspent.lock) := by
  obtain ⟨spent, signers, approved, signed, -⟩ := build_ok_iff.mp returned
  refine ⟨spent, approved.recorded, Transaction.verified_of_signed lawful approved.owners ?_ signed⟩
  have count := approved.owned.length_eq
  simpa [unsigned] using count

end Cancellation

/-- What a draft, a wallet or a cancellation signs verifies under the locks that it spends. -/
theorem signed_transactions_verify (S : SignatureScheme) (lawful : S.Lawful) (entropy : Entropy) :
    (∀ (draft : Draft S) (kind : OutputType) (fees : Fees) (tx : Transaction),
      draft.sign kind fees entropy = .ok tx →
      tx.Verified S (tx.inputs.map fun _ => .ofPublicKey draft.owner.publicKey)) ∧
    (∀ (draft : Draft S) (kind : OutputType) (policy : FeePolicy) (tx : Transaction),
      draft.signWithPolicy kind policy entropy = .ok tx →
      tx.Verified S (tx.inputs.map fun _ => .ofPublicKey draft.owner.publicKey)) ∧
    (∀ (wallet : Wallet S) (set left : WorkingSet) (payment : Payment) (policy : FeePolicy)
      (tx : Transaction), wallet.send set payment policy entropy = .ok (tx, left) →
      tx.Verified S (tx.inputs.map fun _ => wallet.lock)) ∧
    (∀ (pending : Transaction) (records : List Unspent) (keys : List (KeyPair S))
      (policy : FeePolicy) (built : Cancellation),
      Cancellation.build pending records keys policy entropy = .ok built →
      ∃ spent, List.Forall₂ (Cancellation.FirstRecord records) pending.inputs spent ∧
        built.tx.Verified S (spent.map Unspent.lock)) := by
  refine ⟨?_, ?_, ?_, ?_⟩
  · intro draft kind fees tx returned
    exact Draft.verified_of_sign lawful returned
  · intro draft kind policy tx returned
    obtain ⟨fees, -, signed⟩ := Except.bind_ok_iff.mp returned
    exact Draft.verified_of_sign lawful signed
  · intro wallet set left payment policy tx returned
    exact Wallet.verified_of_send lawful returned
  · intro pending records keys policy built returned
    exact Cancellation.verified_of_build lawful returned

/-- Guarded secp256k1 in all four ways, of which a draft and a payment come to the same transaction.
The two coins that are cancelled have different owners, whose key pairs come in the other order. No
signature is the mark of the guard, and without the guard they verify as well. -/
theorem signed_transactions_verify_guarded :
    let S := secp256k1.guarded ⟨⟨1, by decide, by decide⟩, by decide +kernel⟩
    let alice : KeyPair S := ⟨⟨⟨1, by decide, by decide⟩, by decide +kernel⟩⟩
    let bob : KeyPair S := ⟨⟨⟨2, by decide, by decide⟩, by decide +kernel⟩⟩
    let coin := fun (byte : UInt8) (owner : KeyPair S) => (⟨⟨List.replicate 64 byte,
      List.length_replicate⟩, .payment, 0, 1000000, .ofPublicKey owner.publicKey⟩ : Unspent)
    let records := [coin 1 alice, coin 2 bob]
    let draft := Draft.ofHistory alice
      [.addInput (coin 1 alice).utxo 1000000, .addOutput (coin 2 bob).lock 500000]
    let wallet : Wallet S := ⟨alice⟩
    let payment : Payment := { destination := (coin 2 bob).lock, amount := 500000 }
    let pending : Transaction := {
      inputs := records.map fun entry => { utxo := entry.utxo }
      outputs := [⟨.payment, 1800000, (coin 2 bob).lock⟩] }
    let entropy : Entropy := fun _ => []
    let spend := fun (entry : Unspent) (r s : Nat) =>
      ({ utxo := entry.utxo, unlock := ⟨Curve.Signature.toBytes ⟨r, s⟩⟩ } : Input)
    let paid : Transaction := {
      inputs := [spend (coin 1 alice)
        0x95ba1127aba20e2ef836654d377e5f9dbf5f0dadb745d989151eae650415c3c9
        0x6c3fe9d24fdd0fb2bef37ba5ffcc1ded950a5ac2c5bde00b567c03d0122ef4ac]
      outputs := [⟨.payment, 400000, wallet.lock⟩, ⟨.payment, 500000, (coin 2 bob).lock⟩] }
    let refunded : Transaction := {
      inputs := [
        spend (coin 1 alice)
          0x1c67ab41bbb3c20e3c73719c4343cb4d2c50906df698509461cebc25f4482fcb
          0x22c3366f522c3188f22e4b9bf7d05a6d4a73c3edf46ff3548f02cc432be6fae6,
        spend (coin 2 bob)
          0xaebbd5e38572515a84e76b232261e8223baf40396ed7a4e5573862987703bee1
          0x132e971e7cb6ee67ea925416cc8a49c29f44da904bf9eff8f8a1493935eb1861]
      outputs := [⟨.payment, 939992, (coin 1 alice).lock⟩, ⟨.payment, 939993, (coin 2 bob).lock⟩] }
    S.Lawful ∧
    (draft.sign .payment ⟨100000, 0⟩ entropy = .ok paid ∧
      paid.Verified S (paid.inputs.map fun _ => .ofPublicKey alice.publicKey)) ∧
    (draft.signWithPolicy .payment {} entropy = .ok paid ∧
      paid.Verified S (paid.inputs.map fun _ => .ofPublicKey alice.publicKey)) ∧
    (∃ left, wallet.send (.ofList [coin 1 alice]) payment {} entropy = .ok (paid, left) ∧
      paid.Verified S (paid.inputs.map fun _ => wallet.lock)) ∧
    (Cancellation.build pending records [bob, alice] {} entropy = .ok ⟨refunded, 120015, 60007⟩ ∧
      ∃ spent, List.Forall₂ (Cancellation.FirstRecord records) pending.inputs spent ∧
        refunded.Verified S (spent.map Unspent.lock)) ∧
    (∀ input ∈ paid.inputs ++ refunded.inputs, input.unlock.bytes ≠ SignatureScheme.mark) ∧
    paid.verifySignatures secp256k1 [wallet.lock] = .ok true ∧
    refunded.verifySignatures secp256k1 (records.map Unspent.lock) = .ok true := by
  intro S alice bob coin records draft wallet payment pending entropy spend paid refunded
  have lawful : S.Lawful := SignatureScheme.guarded_lawful _ _
  obtain ⟨byFees, byPolicy, bySend, byBuild⟩ := signed_transactions_verify S lawful entropy
  have owner : draft.owner = alice := (Draft.records_foldl (.ofOwner alice) _).owner
  -- The nonces are drawn and the signatures made in the kernel.
  have signed : draft.sign .payment ⟨100000, 0⟩ entropy = .ok paid := by decide +kernel
  have built : Cancellation.build pending records [bob, alice] {} entropy =
      .ok ⟨refunded, 120015, 60007⟩ := by decide +kernel
  have estimated : draft.estimateFees {} = .ok ⟨100000, 0⟩ := by decide +kernel
  have priced : draft.signWithPolicy .payment {} entropy = .ok paid :=
    Except.bind_ok_iff.mpr ⟨_, estimated, signed⟩
  -- The payment prepares the same draft.
  let funded : Draft S := { Draft.ofOwner alice with
    inputs := [({ utxo := (coin 1 alice).utxo }, 1000000)]
    totalInputs := 1000000 }
  have spending : (Draft.ofOwner alice).addInput (coin 1 alice).utxo 1000000 = .ok funded :=
    Draft.addInput_ok_iff.mpr ⟨1000000, by decide, rfl⟩
  have filling : funded.addOutput (coin 2 bob).lock 500000 =
      .ok (wallet.paying payment [coin 1 alice] 1000000) :=
    Draft.addOutput_ok_iff.mpr ⟨by decide, 500000, by decide, by decide, rfl⟩
  have same : draft = wallet.paying payment [coin 1 alice] 1000000 := by
    simp only [draft, Draft.ofHistory, List.foldl_cons, List.foldl_nil, Draft.edited, Draft.edit,
      spending, filling]
  have prepared : wallet.prepare payment [coin 1 alice] = .ok draft :=
    Wallet.prepare_ok_iff.mpr ⟨by decide, 1000000, by decide, by decide, same⟩
  have chosen : (WorkingSet.ofList [coin 1 alice]).selectWith payment.height (payment.need {} 0) =
      .ok ([coin 1 alice], ⟨[], []⟩) := by decide +kernel
  have sent : wallet.send (.ofList [coin 1 alice]) payment {} entropy = .ok (paid, ⟨[], []⟩) :=
    Wallet.send_ok_iff.mpr ⟨by decide, 0, _, draft, 100000, Payload.feeFor_of_short (by decide),
      chosen, List.cons_ne_nil _ _, prepared, by decide +kernel, signed⟩
  exact ⟨lawful, ⟨signed, owner ▸ byFees draft _ _ paid signed⟩,
    ⟨priced, owner ▸ byPolicy draft _ _ paid priced⟩,
    ⟨_, sent, bySend wallet _ _ payment {} paid sent⟩,
    ⟨built, byBuild pending records _ {} _ built⟩,
    by decide +kernel, by decide +kernel, by decide +kernel⟩

end UtxoLedger
