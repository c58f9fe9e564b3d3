import UtxoLedger.Proofs.Cancellation.Conservation
import UtxoLedger.Proofs.Fee.Rate

/-!
# What a cancellation is priced at

The rate of a cancellation is taken where the pending transaction is, with its payload and its
number of outputs, and paid for the size without the payload. So a cancellation offers no less
for a byte than the policy asks of the pending transaction, and more by the percentage. It is
not measured at its own size. It can fall short of its own standard fee where it refunds more
coins than the pending transaction has outputs, or where it drops a payload that spread the
minimum over more bytes. It covers its standard fee where it is no larger than the pending
transaction and the premium makes up for the bytes of the payload.
-/
namespace UtxoLedger

namespace Transaction

def sizeWithoutPayload (tx : Transaction) : Nat :=
  estimatedSize tx.inputs.length tx.outputs.length 0

def size (tx : Transaction) : Nat :=
  estimatedSize tx.inputs.length tx.outputs.length tx.payload.length

theorem size_eq (tx : Transaction) : tx.size = tx.sizeWithoutPayload + tx.payload.length := rfl

end Transaction

namespace Cancellation

variable {S : SignatureScheme}

theorem totalFee_ok_iff {policy : FeePolicy} {tx : Transaction} {fee : Amount} :
    totalFee policy tx = .ok fee ↔
      ∃ raised, policy.cancelFeeRate tx.size = .ok raised ∧
        fee.toNat = raised.toNat * tx.sizeWithoutPayload := by
  rw [totalFee, Except.bind_ok_iff]
  exact exists_congr fun _ => and_congr_right fun _ => Amount.checked_ok_iff

theorem rates_of_totalFee {policy : FeePolicy} {tx : Transaction} {fee : Amount}
    (priced : totalFee policy tx = .ok fee) :
    ∃ offered rate raised, policy.Rates tx.size offered rate raised ∧
      fee.toNat = raised.toNat * tx.sizeWithoutPayload := by
  obtain ⟨raised, rated, exact⟩ := totalFee_ok_iff.mp priced
  obtain ⟨offered, rate, rates⟩ := FeePolicy.rates_of_cancelFeeRate rated
  exact ⟨offered, rate, raised, rates, exact⟩

section Owner

/-- Where no key is recorded twice, the first record of an input is the one in its place. The
records that were passed already are `before`. -/
private theorem firstRecord_of_nodup (before : List Unspent) {spent : List Unspent}
    {inputs : List Input}
    (distinct : ((before ++ spent).map Unspent.utxo).Nodup)
    (same : inputs.map Input.utxo = spent.map Unspent.utxo) :
    List.Forall₂ (FirstRecord (before ++ spent)) inputs spent := by
  induction spent generalizing before inputs with
  | nil =>
    rw [List.map_eq_nil_iff.mp same]
    exact .nil
  | cons entry rest ih =>
    cases inputs with
    | nil => cases same
    | cons input inputs =>
      obtain ⟨key, keys⟩ := List.cons.inj same
      have others : ∀ other ∈ before, other.utxo ≠ input.utxo := by
        intro other member equal
        rw [List.map_append, List.nodup_append] at distinct
        exact distinct.2.2 _ (List.mem_map_of_mem member) _ List.mem_cons_self (equal.trans key)
      -- For the next input this record is one of those in front.
      rw [List.append_cons] at distinct
      refine .cons ⟨before, rest, rfl, key.symm, others⟩ ?_
      rw [List.append_cons]
      exact ih (before ++ [entry]) distinct keys

theorem approved_of_owner (pair : KeyPair S) {records spent : List Unspent} {tx : Transaction}
    {policy : FeePolicy} {fee : Amount}
    (recorded : List.Forall₂ (FirstRecord records) tx.inputs spent)
    (paid : ∀ entry ∈ spent, entry.kind = .payment)
    (owned : ∀ entry ∈ spent, entry.lock = .ofPublicKey pair.publicKey)
    (priced : totalFee policy tx = .ok fee)
    (covered : ∀ entry ∈ spent, fee.toNat < entry.amount.toNat) :
    Approved tx records [pair] policy spent (spent.map fun _ => pair) fee where
  recorded := recorded
  paid := paid
  singleKey := by
    intro entry member
    rw [owned entry member]
    rfl
  owned := by
    rw [List.forall₂_map_right_iff, List.forall₂_same]
    intro entry member
    rw [signer?, owned entry member]
    exact List.find?_cons_of_pos (decide_eq_true rfl)
  priced := priced
  covered := by
    intro share member
    obtain ⟨place, inside, rfl⟩ := List.getElem_of_mem member
    have bound : place < spent.length ∧ place < (charges fee spent.length).length := by
      simpa [Nat.lt_min] using inside
    rw [List.getElem_zip, charges_getElem fee bound.2]
    exact Nat.lt_of_le_of_lt (charge_le _ (by omega) _) (covered _ (List.getElem_mem bound.1))

/-- The owner of the spent coins can cancel as long as the fee is less than each of them. -/
theorem build_of_owner (pair : KeyPair S) (spent : List Unspent) {tx : Transaction}
    {policy : FeePolicy} {fee : Amount} (entropy : Entropy)
    (same : tx.inputs.map Input.utxo = spent.map Unspent.utxo)
    (distinct : (spent.map Unspent.utxo).Nodup)
    (paid : ∀ entry ∈ spent, entry.kind = .payment)
    (owned : ∀ entry ∈ spent, entry.lock = .ofPublicKey pair.publicKey)
    (priced : totalFee policy tx = .ok fee)
    (covered : ∀ entry ∈ spent, fee.toNat < entry.amount.toNat) :
    ∃ built, build tx spent [pair] policy entropy = .ok built ∧ built.fee = fee :=
  (approved_of_owner pair (firstRecord_of_nodup [] distinct same) paid owned priced covered).build
    entropy

end Owner

/-- A cancellation has an input and an output for each input of the pending transaction. -/
theorem counts_of_build {pending : Transaction} {records : List Unspent} {keys : List (KeyPair S)}
    {policy : FeePolicy} {entropy : Entropy} {built : Cancellation}
    (returned : build pending records keys policy entropy = .ok built) :
    built.tx.inputs.length = pending.inputs.length ∧
    built.tx.outputs.length = pending.inputs.length := by
  obtain ⟨spent, signers, approved, signed, -⟩ := build_ok_iff.mp returned
  have count := approved.recorded.length_eq
  have same := Transaction.bare_of_signed signed
  have inputs := congrArg List.length
    (Transaction.map_inputs_of_bare Input.utxo (fun _ => rfl) same)
  obtain ⟨-, outputs, -, -⟩ := Transaction.bare_eq_iff.mp same
  simp only [unsigned, List.length_map] at inputs outputs
  constructor
  · rw [inputs, count]
  · rw [outputs, List.length_zipWith, charges_length, Nat.min_self, count]

/-- The policy's price of a byte, raised by the percentage, for the size without the payload. -/
def raisedPrice (policy : FeePolicy) (pending : Transaction) : Nat :=
  policy.feePerByte.toNat * (100 + policy.doubleSpentThresholdPct.toNat) / 100 *
    pending.sizeWithoutPayload

section Fee

variable {policy : FeePolicy} {pending : Transaction} {fee offered rate raised : Amount}

theorem raisedPrice_le_fee (rates : policy.Rates pending.size offered rate raised)
    (charged : fee.toNat = raised.toNat * pending.sizeWithoutPayload) :
    raisedPrice policy pending ≤ fee.toNat := by
  rw [charged]
  exact Nat.mul_le_mul_right _ (rates.raisedFeePerByte_le_raised (estimatedSize_pos _ _ _))

/-- Where the minimum does not matter, the price is all that is paid. -/
theorem fee_eq_raisedPrice (rates : policy.Rates pending.size offered rate raised)
    (charged : fee.toNat = raised.toNat * pending.sizeWithoutPayload)
    (above : policy.minimumFee.toNat ≤ pending.size * policy.feePerByte.toNat) :
    fee.toNat = raisedPrice policy pending := by
  have same := rates.rate_eq_feePerByte (estimatedSize_pos _ _ _) above
  rw [charged, rates.raised, same]
  rfl

/-- For its size without the payload the cancellation pays no less than the standard fee takes
for the whole size. -/
theorem fee_proportional (rates : policy.Rates pending.size offered rate raised)
    (charged : fee.toNat = raised.toNat * pending.sizeWithoutPayload) :
    offered.toNat * pending.sizeWithoutPayload ≤ fee.toNat * pending.size := by
  have covers := rates.fee_mul_le (estimatedSize_pos _ _ _) pending.sizeWithoutPayload
  have raises : rate.toNat * pending.sizeWithoutPayload ≤ fee.toNat := by
    rw [charged]
    exact Nat.mul_le_mul_right _ rates.rate_le_raised
  exact Nat.le_trans covers (Nat.mul_le_mul_right _ raises)

/-- Where the premium makes up for the bytes of the payload, the fee covers the standard fee of the
pending transaction with its payload. -/
theorem offered_le_fee (rates : policy.Rates pending.size offered rate raised)
    (charged : fee.toNat = raised.toNat * pending.sizeWithoutPayload)
    (premium : rate.toNat * pending.size ≤ raised.toNat * pending.sizeWithoutPayload) :
    offered.toNat ≤ fee.toNat := by
  rw [charged]
  exact Nat.le_trans (rates.fee_le (estimatedSize_pos _ _ _)) premium

end Fee

/-- A cancellation offers no less than the policy takes for a transaction of its size. -/
def Acceptable (policy : FeePolicy) (built : Cancellation) : Prop :=
  ∃ own, policy.standardFee built.tx.sizeWithoutPayload = .ok own ∧ own.toNat ≤ built.fee.toNat

/-- What the fee of a cancellation comes to, against the policy that it was priced with. The policy
takes `offered` for the pending transaction, which makes `rate` for a byte, and `raised` is the
rate that replaces it. -/
structure Priced (pending : Transaction) (policy : FeePolicy) (built : Cancellation)
    (offered rate raised : Amount) : Prop where
  rates : policy.Rates pending.size offered rate raised
  charged : built.fee.toNat = raised.toNat * pending.sizeWithoutPayload
  sized : built.tx.sizeWithoutPayload =
    estimatedSize pending.inputs.length pending.inputs.length 0
  acceptable_iff : Acceptable policy built ↔
    max (estimatedSize pending.inputs.length pending.inputs.length 0 * policy.feePerByte.toNat)
      policy.minimumFee.toNat ≤ raised.toNat * pending.sizeWithoutPayload
  acceptable : built.tx.sizeWithoutPayload ≤ pending.size →
    rate.toNat * pending.size ≤ raised.toNat * pending.sizeWithoutPayload →
    Acceptable policy built
  lower : raisedPrice policy pending ≤ built.fee.toNat
  level : policy.minimumFee.toNat ≤ pending.size * policy.feePerByte.toNat →
    built.fee.toNat = raisedPrice policy pending
  proportional : offered.toNat * pending.sizeWithoutPayload ≤ built.fee.toNat * pending.size
  minimum : rate.toNat * pending.size ≤ raised.toNat * pending.sizeWithoutPayload →
    policy.minimumFee.toNat ≤ built.fee.toNat
  price : pending.inputs.length ≤ pending.outputs.length →
    built.tx.sizeWithoutPayload * policy.feePerByte.toNat ≤ built.fee.toNat

theorem build_priced (pending : Transaction) (records : List Unspent) (keys : List (KeyPair S))
    (policy : FeePolicy) (entropy : Entropy) (built : Cancellation)
    (returned : build pending records keys policy entropy = .ok built) :
    ∃ offered rate raised, Priced pending policy built offered rate raised := by
  obtain ⟨spent, signers, approved, -, -⟩ := build_ok_iff.mp returned
  obtain ⟨inputCount, outputCount⟩ := counts_of_build returned
  obtain ⟨offered, rate, raised, rates, charged⟩ := rates_of_totalFee approved.priced
  have sized : built.tx.sizeWithoutPayload =
      estimatedSize pending.inputs.length pending.inputs.length 0 := by
    rw [Transaction.sizeWithoutPayload, inputCount, outputCount]
  have lower := raisedPrice_le_fee rates charged
  refine ⟨offered, rate, raised, rates, charged, sized, ?_, ?_, lower,
    fee_eq_raisedPrice rates charged, fee_proportional rates charged, ?_, ?_⟩
  · rw [← sized, ← charged]
    exact FeePolicy.exists_standardFee_le_iff
  · intro smaller premium
    -- What is no larger costs no more, and the premium covers what the larger one costs.
    obtain ⟨own, taken, less⟩ := FeePolicy.standardFee_of_le smaller rates.charged
    exact ⟨own, taken, Nat.le_trans less (offered_le_fee rates charged premium)⟩
  · intro premium
    have least := (FeePolicy.standardFee_ok_iff.mp rates.charged).2
    have covered := offered_le_fee rates charged premium
    omega
  · intro fewer
    -- There is an output for each input, and the size that is paid for has no fewer.
    have smaller : built.tx.sizeWithoutPayload ≤ pending.sizeWithoutPayload := by
      rw [sized]
      exact estimatedSize_mono (Nat.le_refl _) fewer (Nat.le_refl _)
    have price := Nat.mul_le_mul (policy.le_raised policy.feePerByte.toNat) smaller
    rw [Nat.mul_comm] at price
    exact Nat.le_trans price lower

/-- A payload of 45 bytes is dropped from a payment that is charged the minimum: 370 units for each
of 271 bytes become 444 for each of 226, and with one byte more that would be below the minimum. -/
theorem build_priced_within_premium :
    let pair : KeyPair secp256k1 := ⟨⟨1, by decide, by decide⟩⟩
    let coin : Unspent := ⟨⟨List.replicate 64 1, List.length_replicate⟩, .payment, 0, 1000000,
      .ofPublicKey pair.publicKey⟩
    let pending : Transaction := {
      inputs := [{ utxo := coin.utxo }]
      outputs := [⟨.payment, 300000, ⟨.key, [2]⟩⟩, ⟨.payment, 500000, coin.lock⟩]
      payload := List.replicate 45 7 }
    ∃ built, build pending [coin] [pair] {} (fun _ => []) = .ok built ∧ built.fee = 100344 ∧
      Priced pending {} built 100000 370 444 ∧ Acceptable {} built := by
  intro pair coin pending
  have total : totalFee {} pending = .ok 100344 := by decide +kernel
  have charged : FeePolicy.standardFee {} pending.size = .ok 100000 := by decide +kernel
  have adjusted : FeePolicy.adjustedFeeRate {} pending.size = .ok 370 := by decide +kernel
  have replacing : FeePolicy.cancelFeeRate {} pending.size = .ok 444 := by decide +kernel
  obtain ⟨built, returned, fee⟩ := build_of_owner pair [coin] (fun _ => []) rfl (by decide)
    (by simp [coin]) (by simp [coin]) total (by simp [coin])
  obtain ⟨offered, rate, raised, priced⟩ :=
    build_priced pending [coin] [pair] {} _ built returned
  cases priced.rates.charged.symm.trans charged
  cases priced.rates.adjusted.symm.trans adjusted
  cases priced.rates.replacing.symm.trans replacing
  have smaller : built.tx.sizeWithoutPayload ≤ pending.size := by
    rw [priced.sized]
    decide
  exact ⟨built, returned, fee, priced, priced.acceptable smaller (by decide)⟩

/-- Four coins merged into one output are refunded as four, which takes 141600 units. And a payload
of 100 bytes is dropped together with its part of the minimum, which is 100000. -/
theorem build_below_standardFee :
    let pair : KeyPair secp256k1 := ⟨⟨1, by decide, by decide⟩⟩
    let coin := fun byte : UInt8 => (⟨⟨List.replicate 64 byte, List.length_replicate⟩, .payment, 0,
      1000000, .ofPublicKey pair.publicKey⟩ : Unspent)
    let policy : FeePolicy := {}
    let four := [coin 1, coin 2, coin 3, coin 4]
    let merging : Transaction := {
      inputs := four.map fun entry => { utxo := entry.utxo }
      outputs := [⟨.payment, 3800000, ⟨.key, [2]⟩⟩] }
    let loaded : Transaction := {
      inputs := [{ utxo := (coin 1).utxo }]
      outputs := [⟨.payment, 300000, ⟨.key, [2]⟩⟩]
      payload := List.replicate 100 7 }
    (∃ built, build merging four [pair] policy (fun _ => []) = .ok built ∧ built.fee = 138960 ∧
      policy.standardFee built.tx.sizeWithoutPayload = .ok 141600) ∧
    ∃ built, build loaded [coin 1] [pair] policy (fun _ => []) = .ok built ∧ built.fee = 77592 ∧
      policy.minimumFee = 100000 := by
  intro pair coin policy four merging loaded
  have merged : totalFee policy merging = .ok 138960 := by decide +kernel
  have dropped : totalFee policy loaded = .ok 77592 := by decide +kernel
  constructor
  · obtain ⟨built, returned, fee⟩ := build_of_owner pair four (fun _ => []) rfl (by decide)
      (by simp [four, coin]) (by simp [four, coin]) merged (by simp [four, coin])
    obtain ⟨inputCount, outputCount⟩ := counts_of_build returned
    refine ⟨built, returned, fee, ?_⟩
    rw [Transaction.sizeWithoutPayload, inputCount, outputCount]
    decide +kernel
  · obtain ⟨built, returned, fee⟩ := build_of_owner pair [coin 1] (fun _ => []) rfl (by decide)
      (by simp [coin]) (by simp [coin]) dropped (by simp [coin])
    exact ⟨built, returned, fee, rfl⟩

end Cancellation

end UtxoLedger
