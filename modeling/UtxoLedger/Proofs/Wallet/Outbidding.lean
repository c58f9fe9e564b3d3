import UtxoLedger.Proofs.Cancellation.Pricing
import UtxoLedger.Proofs.Draft.Estimation
import UtxoLedger.Proofs.WorkingSet.Reachable

/-!
# Cancelling a payment

A cancellation outbids the rate at which the policy prices the payment. What the payment really
pays can be more: it is priced for a change output that it may not have, and it pays for its
payload besides. So the cancellation is certain to pay more for a payment with change and a free
payload, and otherwise where the premium makes up for what it does not carry over.
-/
namespace UtxoLedger.Wallet

variable {S : SignatureScheme} {wallet : Wallet S} {set left : WorkingSet} {payment : Payment}
  {policy : FeePolicy} {tx : Transaction} {count : Nat} {payloadFee fee total : Amount}

theorem send_of_first_coin (wallet : Wallet S) (coherent : set.Coherent) (entropy : Entropy)
    {coin : Unspent} {others : List Unspent} (first : set.coins payment.height = coin :: others)
    (nonzero : payment.amount ≠ 0) (priced : Payload.feeFor payment.payload = .ok payloadFee)
    (charged : payment.transactionFee policy 1 = .ok fee)
    (covered : payment.amount.toNat + payloadFee.toNat + fee.toNat ≤ coin.amount.toNat) :
    ∃ tx left, wallet.send set payment policy entropy = .ok (tx, left) ∧
      wallet.Sent set payment policy tx left 1 payloadFee fee coin.amount := by
  have within := coin.amount.toNat_lt_size
  have goal := UInt64.toNat_ofNat_of_lt' (Nat.lt_of_le_of_lt covered within)
  have aimed := Payment.need_ok_iff.mpr ⟨fee, charged, goal⟩
  rw [← goal] at covered
  obtain ⟨left, chosen⟩ := coherent.selectWith_first first aimed covered
  have alone : Amount.total ([coin].map Unspent.amount) = coin.amount.toNat := by simp
  obtain ⟨tx, returned⟩ := wallet.send_of_selected entropy nonzero priced chosen
    (List.cons_ne_nil _ _) aimed (alone ▸ within) (alone ▸ covered)
  -- Number, fees and total of a payment are determined, so they are those of the one coin.
  obtain ⟨count, payloadFee', fee', total, sent⟩ := sent_of_send coherent returned
  cases sent.priced.symm.trans priced
  have reaches := sent.reaches
  rw [first] at reaches
  cases reaches.eq_one aimed covered
  cases sent.charged.symm.trans charged
  have sum := sent.sum
  rw [WorkingSet.worth, first, List.take_succ_cons, List.take_zero, alone] at sum
  cases UInt64.toNat_inj.mp sum
  exact ⟨tx, left, returned, sent⟩

namespace Sent

theorem outputCount (sent : wallet.Sent set payment policy tx left count payloadFee fee total) :
    tx.outputs.length = 1 +
      if payment.amount.toNat + payloadFee.toNat + fee.toNat < total.toNat then 1 else 0 :=
  sent.settled.outputCount

theorem payload (sent : wallet.Sent set payment policy tx left count payloadFee fee total) :
    tx.payload = payment.payload :=
  sent.settled.payload

/-- The wallet can cancel its payment as long as the fee is less than each coin. -/
theorem cancellable (sent : wallet.Sent set payment policy tx left count payloadFee fee total)
    (owned : ∀ entry ∈ (set.coins payment.height).take count, entry.lock = wallet.lock)
    {charge : Amount} (priced : Cancellation.totalFee policy tx = .ok charge)
    (covered : ∀ entry ∈ (set.coins payment.height).take count,
      charge.toNat < entry.amount.toNat) (entropy : Entropy) :
    ∃ built, Cancellation.build tx ((set.coins payment.height).take count) [wallet.keyPair] policy
      entropy = .ok built ∧ built.fee = charge := by
  -- What can be spent is never frozen stake.
  have paid : ∀ entry ∈ (set.coins payment.height).take count, entry.kind = .payment := by
    intro entry member
    have can := (List.mem_filter.mp (List.mem_of_mem_take member)).2
    have both : entry.kind = .payment ∧ entry.isMature payment.height = true := by
      simpa [Unspent.isSpendable] using can
    exact both.1
  exact Cancellation.build_of_owner wallet.keyPair _ entropy sent.keys sent.leaves.distinct paid owned
    priced covered

/-- The size that a payment is priced for. A cancellation of it leaves out the payload, and the 43
bytes of a change output that the payment does not have. -/
theorem pricedSize (sent : wallet.Sent set payment policy tx left count payloadFee fee total) :
    estimatedSize count 2 payment.payload.length =
      tx.sizeWithoutPayload + (tx.payload.length + 43 * (2 - tx.outputs.length)) := by
  have outputs := sent.outputCount_le
  unfold Transaction.sizeWithoutPayload estimatedSize
  rw [sent.inputCount, sent.payload]
  omega

/-- The fee of a payment, at the rate that the policy asks for the size it came out with. -/
theorem paid_le (sent : wallet.Sent set payment policy tx left count payloadFee fee total)
    {offered rate raised : Amount} (rates : policy.Rates tx.size offered rate raised) :
    fee.toNat ≤ rate.toNat * tx.sizeWithoutPayload +
      rate.toNat * (tx.payload.length + 43 * (2 - tx.outputs.length)) := by
  have charged : policy.standardFee (estimatedSize count 2 payment.payload.length) = .ok fee :=
    sent.charged
  have larger : tx.size ≤ estimatedSize count 2 payment.payload.length := by
    rw [sent.pricedSize, Transaction.size_eq]
    omega
  rw [← Nat.mul_add, ← sent.pricedSize]
  exact rates.fee_le_rate_mul (estimatedSize_pos _ _ _) larger charged

theorem sizeWithoutPayload_of_change
    (sent : wallet.Sent set payment policy tx left count payloadFee fee total)
    (change : tx.outputs.length = 2) : 226 ≤ tx.sizeWithoutPayload := by
  have some := sent.reaches.past
  unfold Transaction.sizeWithoutPayload estimatedSize
  rw [sent.inputCount, change]
  omega

end Sent

/-- A payment out of one coin and its cancellation, where the coin covers either of them. -/
private theorem cancel_of_only_coin (wallet : Wallet S) (coherent : set.Coherent)
    (entropy : Entropy) (charge : Amount) {coin : Unspent} (only : set.coins payment.height = [coin])
    (owned : coin.lock = wallet.lock) (nonzero : payment.amount ≠ 0)
    (pricedPayload : Payload.feeFor payment.payload = .ok payloadFee)
    (charged : payment.transactionFee policy 1 = .ok fee)
    (covered : payment.amount.toNat + payloadFee.toNat + fee.toNat ≤ coin.amount.toNat)
    {outputs : Nat} {raised : Amount}
    (counted : outputs = 1 +
      if payment.amount.toNat + payloadFee.toNat + fee.toNat < coin.amount.toNat then 1 else 0)
    (rated : policy.cancelFeeRate (estimatedSize 1 outputs payment.payload.length) = .ok raised)
    (priced : charge.toNat = raised.toNat * estimatedSize 1 outputs 0)
    (affordable : charge.toNat < coin.amount.toNat) :
    ∃ tx left, wallet.send set payment policy entropy = .ok (tx, left) ∧
      wallet.Sent set payment policy tx left 1 payloadFee fee coin.amount ∧
      ∃ built, Cancellation.build tx [coin] [wallet.keyPair] policy entropy = .ok built ∧
        built.fee = charge := by
  obtain ⟨tx, left, returned, sent⟩ := wallet.send_of_first_coin coherent entropy only nonzero
    pricedPayload charged covered
  have total : Cancellation.totalFee policy tx = .ok charge := by
    refine Cancellation.totalFee_ok_iff.mpr ⟨raised, ?_, ?_⟩
    · rw [Transaction.size, sent.inputCount, sent.outputCount, sent.payload, ← counted]
      exact rated
    · rw [Transaction.sizeWithoutPayload, sent.inputCount, sent.outputCount, ← counted]
      exact priced
  have cancelled := sent.cancellable (by simpa [only] using owned) total
    (by simpa [only] using affordable) entropy
  rw [only] at cancelled
  exact ⟨tx, left, returned, sent, cancelled⟩

/-- What a cancellation pays against its payment, which leaves `payloadFee` and `fee` besides its
outputs. The policy prices a byte of the payment at `rate`, and one of the cancellation at
`raised`. -/
structure Outbids (set : WorkingSet) (payment : Payment) (policy : FeePolicy) (tx : Transaction)
    (built : Cancellation) (count : Nat) (payloadFee fee offered rate raised : Amount) : Prop where
  spends : tx.inputs.map Input.utxo =
    ((set.coins payment.height).take count).map Unspent.utxo
  pays : WorkingSet.worth (set.coins payment.height) count =
    Amount.total (tx.outputs.map Output.value) + (payloadFee.toNat + fee.toNat)
  pricedPayload : Payload.feeFor payment.payload = .ok payloadFee
  priced : policy.standardFee (estimatedSize count 2 payment.payload.length) = .ok fee
  rates : policy.Rates tx.size offered rate raised
  charged : built.fee.toNat = raised.toNat * tx.sizeWithoutPayload
  byRate : rate.toNat < raised.toNat →
    offered.toNat * tx.sizeWithoutPayload < built.fee.toNat * tx.size
  withChange : rate.toNat < raised.toNat → tx.outputs.length = 2 → tx.payload.length ≤ 1 →
    payloadFee.toNat + fee.toNat < built.fee.toNat
  withPremium : payloadFee.toNat + rate.toNat * (tx.payload.length + 43 * (2 - tx.outputs.length)) <
      (raised.toNat - rate.toNat) * tx.sizeWithoutPayload →
    payloadFee.toNat + fee.toNat < built.fee.toNat

theorem build_outbids (wallet : Wallet S) (set left : WorkingSet) (payment : Payment)
    (policy : FeePolicy) (entropy : Entropy) (tx : Transaction) (reachable : set.Reachable)
    (returned : wallet.send set payment policy entropy = .ok (tx, left))
    (records : List Unspent) (keys : List (KeyPair S)) (later : Entropy) (built : Cancellation)
    (cancelled : Cancellation.build tx records keys policy later = .ok built) :
    ∃ count payloadFee fee offered rate raised,
      Outbids set payment policy tx built count payloadFee fee offered rate raised := by
  obtain ⟨count, payloadFee, fee, total, sent⟩ := sent_of_send reachable.coherent returned
  obtain ⟨spent, signers, approved, -, -⟩ := Cancellation.build_ok_iff.mp cancelled
  obtain ⟨offered, rate, raised, rates, charged⟩ := Cancellation.rates_of_totalFee approved.priced
  -- What is paid is bounded at the lower rate, so the premium only has to cover what is left out.
  have paid := sent.paid_le rates
  have premium := Nat.sub_mul raised.toNat rate.toNat tx.sizeWithoutPayload
  have withPremium : payloadFee.toNat +
        rate.toNat * (tx.payload.length + 43 * (2 - tx.outputs.length)) <
      (raised.toNat - rate.toNat) * tx.sizeWithoutPayload →
      payloadFee.toNat + fee.toNat < built.fee.toNat := by
    intro enough
    omega
  refine ⟨count, payloadFee, fee, offered, rate, raised, sent.keys, ?_, sent.priced, sent.charged,
    rates, charged, ?_, ?_, withPremium⟩
  · rw [← sent.sum, sent.conserved, Nat.add_assoc]
  · intro higher
    have covers := rates.fee_mul_le (estimatedSize_pos _ _ _) tx.sizeWithoutPayload
    have raises : rate.toNat * tx.sizeWithoutPayload < built.fee.toNat := by
      rw [charged]
      exact Nat.mul_lt_mul_of_pos_right higher (estimatedSize_pos _ _ _)
    exact Nat.lt_of_le_of_lt covers (Nat.mul_lt_mul_of_pos_right raises (estimatedSize_pos _ _ _))
  · intro higher change short
    have unpaid : payloadFee.toNat = 0 := by
      cases (Payload.feeFor_of_short (sent.payload ▸ short)).symm.trans sent.priced
      rfl
    -- One byte of payload costs less than the premium for the 226 bytes of the smallest payment.
    have byte : rate.toNat * tx.payload.length ≤ rate.toNat * 1 := Nat.mul_le_mul_left _ short
    have large := Nat.mul_le_mul_left (raised.toNat - rate.toNat)
      (sent.sizeWithoutPayload_of_change change)
    have small := rates.rate_lt_premium higher
    apply withPremium
    rw [unpaid, change, Nat.sub_self, Nat.mul_zero, Nat.add_zero, Nat.zero_add]
    omega

/-- A payment of 100000 units that gives change is cancelled for 531 units a byte. -/
theorem build_outbids_with_change :
    let wallet : Wallet secp256k1 := ⟨⟨⟨1, by decide, by decide⟩⟩⟩
    let coin : Unspent := ⟨⟨List.replicate 64 1, List.length_replicate⟩, .payment, 0, 1000000,
      wallet.lock⟩
    let set := WorkingSet.ofList [coin]
    let payment : Payment := { destination := ⟨.key, [2]⟩, amount := 500000 }
    set.Reachable ∧ ∃ tx left, wallet.send set payment {} (fun _ => []) = .ok (tx, left) ∧
      ∃ built, Cancellation.build tx [coin] [wallet.keyPair] {} (fun _ => []) = .ok built ∧
        built.fee = 120006 ∧ ∃ count payloadFee fee offered rate raised,
          Outbids set payment {} tx built count payloadFee fee offered rate raised := by
  intro wallet coin set payment
  have reachable : set.Reachable := .add .empty _
  have free : Payload.feeFor payment.payload = .ok 0 := Payload.feeFor_of_short (by decide)
  have charged : payment.transactionFee {} 1 = .ok 100000 := by decide +kernel
  have rated : FeePolicy.cancelFeeRate {} (estimatedSize 1 2 0) = .ok 531 := by decide +kernel
  obtain ⟨tx, left, returned, -, built, cancelled, fee⟩ :=
    wallet.cancel_of_only_coin reachable.coherent (fun _ => []) 120006 rfl rfl (by decide) free
      charged (by decide) (by decide) rated (by decide) (by decide)
  exact ⟨reachable, tx, left, returned, built, cancelled, fee, build_outbids wallet set left payment
    {} _ tx reachable returned [coin] [wallet.keyPair] _ built cancelled⟩

/-- A payload of 10 bytes is paid for and then dropped, and a payment without change is priced for
an output more than it has. -/
theorem build_below_payment :
    let wallet : Wallet secp256k1 := ⟨⟨⟨1, by decide, by decide⟩⟩⟩
    let coin := fun amount : Amount => (⟨⟨List.replicate 64 1, List.length_replicate⟩, .payment, 0,
      amount, wallet.lock⟩ : Unspent)
    let loaded : Payment := {
      destination := ⟨.key, [2]⟩, amount := 500000, payload := List.replicate 10 7 }
    let exact : Payment := { destination := ⟨.key, [2]⟩, amount := 500000 }
    let dear : FeePolicy := { feePerByte := 1000 }
    (∃ tx left, wallet.send (.ofList [coin 2000000]) loaded {} (fun _ => []) = .ok (tx, left) ∧
      Amount.total (tx.outputs.map Output.value) + 600000 = (coin 2000000).amount.toNat ∧
      ∃ built, Cancellation.build tx [coin 2000000] [wallet.keyPair] {} (fun _ => []) = .ok built ∧
        built.fee = 114808) ∧
    ∃ tx left, wallet.send (.ofList [coin 726000]) exact dear (fun _ => []) = .ok (tx, left) ∧
      Amount.total (tx.outputs.map Output.value) + 226000 = (coin 726000).amount.toNat ∧
      ∃ built, Cancellation.build tx [coin 726000] [wallet.keyPair] dear (fun _ => []) = .ok built ∧
        built.fee = 219600 := by
  intro wallet coin loaded exact dear
  constructor
  · have reachable : (WorkingSet.ofList [coin 2000000]).Reachable := .add .empty _
    have pricedPayload : Payload.feeFor loaded.payload = .ok 500000 := by decide +kernel
    have charged : loaded.transactionFee {} 1 = .ok 100000 := by decide +kernel
    have rated : FeePolicy.cancelFeeRate {} (estimatedSize 1 2 10) = .ok 508 := by decide +kernel
    obtain ⟨tx, left, returned, sent, built, cancelled, fee⟩ :=
      wallet.cancel_of_only_coin reachable.coherent (fun _ => []) 114808 rfl rfl (by decide)
        pricedPayload charged (by decide) (by decide) rated (by decide) (by decide)
    have paid : (coin 2000000).amount.toNat =
        Amount.total (tx.outputs.map Output.value) + 500000 + 100000 := sent.conserved
    exact ⟨tx, left, returned, by omega, built, cancelled, fee⟩
  · have reachable : (WorkingSet.ofList [coin 726000]).Reachable := .add .empty _
    have free : Payload.feeFor exact.payload = .ok 0 := Payload.feeFor_of_short (by decide)
    have charged : exact.transactionFee dear 1 = .ok 226000 := by decide +kernel
    have rated : dear.cancelFeeRate (estimatedSize 1 1 0) = .ok 1200 := by decide +kernel
    obtain ⟨tx, left, returned, sent, built, cancelled, fee⟩ :=
      wallet.cancel_of_only_coin reachable.coherent (fun _ => []) 219600 rfl rfl (by decide)
        free charged (by decide) (by decide) rated (by decide) (by decide)
    have paid : (coin 726000).amount.toNat =
        Amount.total (tx.outputs.map Output.value) + 0 + 226000 := sent.conserved
    exact ⟨tx, left, returned, by omega, built, cancelled, fee⟩

end UtxoLedger.Wallet
