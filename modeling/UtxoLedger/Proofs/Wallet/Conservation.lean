import UtxoLedger.Key.Secp256k1
import UtxoLedger.Proofs.Fee.Policy
import UtxoLedger.Proofs.WorkingSet.Reachable

/-!
# A payment accounts for every unit

A payment spends the shortest run of coins that covers it, together with the fee for so many
inputs. What it does not pay it gives back or leaves as exactly that fee, which is never less
than the fee for the transaction that comes out.
-/
namespace UtxoLedger.Wallet

variable {S : SignatureScheme}

/-- What a payment spends, pays and leaves when its coins are the first `count` ones. -/
structure Accounts (wallet : Wallet S) (set : WorkingSet) (payment : Payment) (policy : FeePolicy)
    (tx : Transaction) (left : WorkingSet) (count : Nat) (payloadFee fee : Amount) : Prop where
  pricedPayload : Payload.feeFor payment.payload = .ok payloadFee
  priced : policy.standardFee (estimatedSize count 2 payment.payload.length) = .ok fee
  positive : 0 < count
  inside : count ≤ (set.coins payment.height).length
  covered : payment.amount.toNat + payloadFee.toNat + fee.toNat ≤
    WorkingSet.worth (set.coins payment.height) count
  shortest : ∀ fewer, 0 < fewer → fewer < count → ∃ lesser,
    policy.standardFee (estimatedSize fewer 2 payment.payload.length) = .ok lesser ∧
    WorkingSet.worth (set.coins payment.height) fewer <
      payment.amount.toNat + payloadFee.toNat + lesser.toNat
  inputs : tx.inputs.map (fun input => (input.utxo, input.unlockAge)) =
    ((set.coins payment.height).take count).map fun entry => (entry.utxo, 0)
  distinct : (tx.inputs.map Input.utxo).Nodup
  remaining : left.entries = set.entries.filter fun entry => entry.utxo ∉ tx.inputs.map Input.utxo
  held : ∀ key, left.contains key = true ↔ ∃ entry ∈ left.entries, entry.utxo = key
  outputs : ∃ change,
    Draft.IsChange wallet.lock (WorkingSet.worth (set.coins payment.height) count -
      (payment.amount.toNat + payloadFee.toNat + fee.toNat)) change ∧
    tx.outputs = change ++ [⟨.payment, payment.amount, payment.destination⟩]
  payload : tx.payload = payment.payload
  conserved : WorkingSet.worth (set.coins payment.height) count =
    Amount.total (tx.outputs.map Output.value) + payloadFee.toNat + fee.toNat
  sufficient : ∃ own,
    policy.standardFee
      (estimatedSize tx.inputs.length tx.outputs.length tx.payload.length) = .ok own ∧
    own.toNat ≤ fee.toNat

theorem send_accounts (wallet : Wallet S) (set left : WorkingSet) (payment : Payment)
    (policy : FeePolicy) (entropy : Entropy) (tx : Transaction) (reachable : set.Reachable)
    (returned : wallet.send set payment policy entropy = .ok (tx, left)) :
    ∃ count payloadFee fee,
      wallet.Accounts set payment policy tx left count payloadFee fee := by
  obtain ⟨count, payloadFee, fee, total, sent⟩ := sent_of_send reachable.coherent returned
  have shortest : ∀ fewer, 0 < fewer → fewer < count → ∃ lesser,
      policy.standardFee (estimatedSize fewer 2 payment.payload.length) = .ok lesser ∧
      WorkingSet.worth (set.coins payment.height) fewer <
        payment.amount.toNat + payloadFee.toNat + lesser.toNat := by
    intro fewer past before
    obtain ⟨goal, aimed, short⟩ := sent.reaches.short fewer past before
    obtain ⟨lesser, charged, exact⟩ := Payment.need_ok_iff.mp aimed
    exact ⟨lesser, charged, exact ▸ short⟩
  have sufficient : ∃ own,
      policy.standardFee
        (estimatedSize tx.inputs.length tx.outputs.length tx.payload.length) = .ok own ∧
      own.toNat ≤ fee.toNat := by
    -- The fee was priced for two outputs, and there may be one.
    refine FeePolicy.standardFee_of_le ?_ sent.charged
    rw [sent.inputCount, sent.settled.payload]
    exact estimatedSize_mono (Nat.le_refl _) sent.outputCount_le (Nat.le_refl _)
  refine ⟨count, payloadFee, fee, sent.priced, sent.charged, sent.reaches.past, sent.reaches.inside,
    ?_, shortest, sent.inputs, ?_, ?_, ?_, ?_, sent.settled.payload, ?_, sufficient⟩
  · exact sent.sum ▸ sent.covered
  · exact sent.keys ▸ sent.leaves.distinct
  · rw [sent.keys]
    exact sent.leaves.entries
  · exact fun key => sent.leaves.coherent.contains_iff
  · exact sent.sum ▸ sent.outputs
  · exact sent.sum ▸ sent.conserved

/-- One coin falls short, the next two entries are passed over, and the coin after them covers. Of
the 1200000 units 858000 are due, and the rest goes back to the wallet. -/
theorem send_accounts_two_coins :
    let wallet : Wallet secp256k1 := ⟨⟨⟨1, by decide, by decide⟩⟩⟩
    let coin := fun (byte : UInt8) (kind : OutputType) (unlockHeight : UInt64) (amount : Amount) =>
      (⟨⟨List.replicate 64 byte, List.length_replicate⟩, kind, unlockHeight, amount,
        wallet.lock⟩ : Unspent)
    let small := coin 1 .payment 0 300000
    let stake := coin 2 .freeze 0 5000000
    let later := coin 3 .payment 10 700000
    let large := coin 4 .payment 6 900000
    let set := WorkingSet.ofList [small, stake, later, large]
    let payment : Payment := { destination := ⟨.key, [2]⟩, amount := 500000, height := some 5 }
    let policy : FeePolicy := { feePerByte := 1000 }
    set.Reachable ∧ ∃ tx left, wallet.send set payment policy (fun _ => []) = .ok (tx, left) ∧
      tx.inputs.map (fun input => (input.utxo, input.unlockAge)) =
        [(small.utxo, 0), (large.utxo, 0)] ∧
      left.entries = [stake, later] ∧
      tx.outputs = [⟨.payment, 342000, wallet.lock⟩, ⟨.payment, 500000, ⟨.key, [2]⟩⟩] ∧
      wallet.Accounts set payment policy tx left 2 0 358000 := by
  intro wallet coin small stake later large set payment policy
  have reachable : set.Reachable := .add .empty _
  have coins : set.coins payment.height = [small, large] := by decide +kernel
  have chosen : set.selectWith payment.height (payment.need policy 0) =
      .ok ([small, large], ⟨[stake, later], [later.utxo, stake.utxo]⟩) := by decide +kernel
  have aimed : payment.need policy 0 2 = .ok 858000 := by decide +kernel
  have free : Payload.feeFor payment.payload = .ok 0 := by decide +kernel
  have one : policy.standardFee (estimatedSize 1 2 0) = .ok 226000 := by decide +kernel
  have two : policy.standardFee (estimatedSize 2 2 0) = .ok 358000 := by decide +kernel
  obtain ⟨tx, returned⟩ := wallet.send_of_selected (fun _ => []) (by decide) free chosen
    (List.cons_ne_nil _ _) aimed (by decide) (by decide)
  obtain ⟨count, payloadFee, fee, accounts⟩ :=
    send_accounts wallet set _ payment policy _ tx reachable returned
  cases accounts.pricedPayload.symm.trans free
  have positive := accounts.positive
  have inside := accounts.inside
  have covered := accounts.covered
  rw [coins] at inside covered
  obtain rfl | rfl : count = 1 ∨ count = 2 := by
    change count ≤ 2 at inside
    omega
  · -- One coin is worth 300000, and 726000 would be due.
    cases accounts.priced.symm.trans one
    exact absurd covered (by decide)
  · cases accounts.priced.symm.trans two
    have inputs := accounts.inputs
    obtain ⟨change, given, outputs⟩ := accounts.outputs
    rw [coins] at inputs given
    refine ⟨reachable, tx, _, returned, inputs, rfl, ?_, accounts⟩
    obtain ⟨nothing, -⟩ | ⟨-, value, rest, same⟩ := given
    · exact absurd nothing (by decide)
    · have exact : value = 342000 := UInt64.toNat_inj.mp (rest.trans (by decide))
      rw [outputs, same, exact]
      rfl

end UtxoLedger.Wallet
