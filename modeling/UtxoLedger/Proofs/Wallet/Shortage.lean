import UtxoLedger.Key.Secp256k1
import UtxoLedger.Proofs.Wallet.Outcome
import UtxoLedger.Proofs.WorkingSet.Balance
import UtxoLedger.Proofs.WorkingSet.Reachable

/-!
# What a shortage says

A payment that finds too few coins reports what has to be covered, and it reports that for one
input. The coins were measured by what so many inputs have to cover, which is more. So a report
tells the truth as long as no coins are worth what one input has to cover; where several of them
are, it names no more than they come to, though it misses what they need by less than the price of
the further inputs.
-/
namespace UtxoLedger

open WorkingSet (ofList value worth)

namespace Payment

variable {payment : Payment} {policy : FeePolicy} {payloadFee : Amount} {coins : List Unspent}

/-- Any number of the coins, taken in order, is worth less than so many inputs have to cover. -/
def OutOfReach (payment : Payment) (policy : FeePolicy) (payloadFee : Amount)
    (coins : List Unspent) : Prop :=
  ∀ count, 0 < count → count ≤ coins.length →
    payment.due policy payloadFee count < UInt64.size ∧
    worth coins count < payment.due policy payloadFee count

theorem deciding?_eq_none_iff :
    payment.deciding? policy payloadFee coins = none ↔
      payment.OutOfReach policy payloadFee coins := by
  rw [deciding?, List.find?_eq_none]
  constructor
  · intro undecided count past inside
    have short := undecided count (List.mem_range'_1.mpr ⟨past, by omega⟩)
    simp only [decide_eq_true_eq, not_or, Nat.not_le] at short
    -- The worth needs no bound of its own: it is below an amount.
    exact short.2
  · intro short count member
    have bounds := List.mem_range'_1.mp member
    obtain ⟨fits, less⟩ := short count (by omega) (by omega)
    simp only [decide_eq_true_eq]
    omega

/-- Further inputs add the price of their bytes at most. -/
theorem due_add_le (payment : Payment) (policy : FeePolicy) (payloadFee : Amount)
    (inputs further : Nat) :
    payment.due policy payloadFee (inputs + further) ≤
      payment.due policy payloadFee inputs +
        further * (64 + 64 + 4) * policy.feePerByte.toNat := by
  have size : estimatedSize (inputs + further) 2 payment.payload.length =
      estimatedSize inputs 2 payment.payload.length + further * (64 + 64 + 4) := by
    unfold estimatedSize
    omega
  unfold due
  rw [size, Nat.add_assoc _ (policy.exactFee _)]
  exact Nat.add_le_add_left (policy.exactFee_add_le _ _) _

/-- As long as the minimum is charged, the number of inputs does not matter. -/
theorem due_le_due_of_minimum {inputs : Nat} (other : Nat)
    (cheap : estimatedSize inputs 2 payment.payload.length * policy.feePerByte.toNat ≤
      policy.minimumFee.toNat) :
    payment.due policy payloadFee inputs ≤ payment.due policy payloadFee other := by
  unfold due FeePolicy.exactFee
  rw [Nat.max_eq_right cheap]
  exact Nat.add_le_add_left (Nat.le_max_right _ _) _

/-- All coins are short of what they need, and no coins are short of what one needs. -/
theorem OutOfReach.value_lt (short : payment.OutOfReach policy payloadFee coins)
    (nonzero : payment.amount ≠ 0) :
    value coins < payment.due policy payloadFee (1 + (coins.length - 1)) := by
  by_cases none : coins = []
  · have positive := Amount.toNat_pos_iff.mpr nonzero
    subst none
    simp only [WorkingSet.value_nil, due]
    omega
  · have some := List.length_pos_iff.mpr none
    have less := (short coins.length some (Nat.le_refl _)).2
    rw [worth, List.take_length] at less
    rw [Nat.add_sub_cancel' some]
    exact less

/-- What one input has to cover is there just where several coins, taken in order, are worth it. -/
theorem OutOfReach.due_le_value_iff (short : payment.OutOfReach policy payloadFee coins)
    (nonzero : payment.amount ≠ 0) :
    payment.due policy payloadFee 1 ≤ value coins ↔
      ∃ count, 1 < count ∧ count ≤ coins.length ∧
        payment.due policy payloadFee 1 ≤ worth coins count := by
  constructor
  · intro enough
    refine ⟨coins.length, ?_, Nat.le_refl _, by rwa [worth, List.take_length]⟩
    -- One coin alone is short of it, and so is none.
    by_contra few
    have less := short.value_lt nonzero
    rw [Nat.sub_eq_zero_of_le (Nat.not_lt.mp few), Nat.add_zero] at less
    omega
  · rintro ⟨count, -, -, enough⟩
    exact Nat.le_trans enough (WorkingSet.worth_le_value coins count)

theorem OutOfReach.due_lt_size (short : payment.OutOfReach policy payloadFee coins)
    (one : payment.due policy payloadFee 1 < UInt64.size) :
    payment.due policy payloadFee (1 + (coins.length - 1)) < UInt64.size := by
  by_cases few : coins.length ≤ 1
  · rwa [Nat.sub_eq_zero_of_le few, Nat.add_zero]
  · rw [Nat.add_sub_cancel' (by omega)]
    exact (short coins.length (by omega) (Nat.le_refl _)).1

/-- Where a shortage is the end of a payment, all numbers of coins are short, and the need of one
input is reported. -/
theorem verdict_short_iff {need : Amount} :
    payment.verdict policy coins = .error (.insufficientFunds need) ↔
      payment.amount ≠ 0 ∧ ∃ payloadFee, Payload.feeFor payment.payload = .ok payloadFee ∧
        need.toNat = payment.due policy payloadFee 1 ∧
        payment.OutOfReach policy payloadFee coins := by
  unfold verdict
  by_cases zero : payment.amount = 0
  · simp [zero]
  rw [if_neg zero]
  cases priced : Payload.feeFor payment.payload with
  | error error =>
    obtain ⟨large, rfl⟩ := Payload.feeFor_error_iff.mp priced
    simp [large]
  | ok payloadFee =>
    rw [if_neg (Payload.within_of_feeFor priced)]
    simp only [ne_eq, zero, not_false_eq_true, true_and, Except.ok.injEq, exists_eq_left',
      ← deciding?_eq_none_iff, ← Amount.checked_ok_iff]
    cases decided : payment.deciding? policy payloadFee coins with
    | some count =>
      -- Some number of coins decides, and that is no shortage.
      simp only [Except.mapError, bind, Except.bind, decided]
      split <;> simp
    | none =>
      simp only [Except.mapError, bind, Except.bind, decided, and_true]
      cases Amount.checked (payment.due policy payloadFee 1) <;> simp

end Payment

namespace Wallet

variable {S : SignatureScheme} {wallet : Wallet S} {set : WorkingSet} {payment : Payment}
  {policy : FeePolicy} {entropy : Entropy}

theorem send_error_iff {error : WalletError} :
    wallet.send set payment policy entropy = .error error ↔
      payment.verdict policy (set.coins payment.height) = .error error := by
  rw [← send_verdict wallet set payment policy entropy, Except.map_error_iff]

/-- A shortage is reported where any number of the coins is worth too little, and what is reported
is the need of one input. The coins come to less than that if there is one of them at most or the
minimum is charged for all of them. They do not come to less just where several of them, taken in
order, are worth what one input has to cover. -/
theorem send_shortage (wallet : Wallet S) (set : WorkingSet) (payment : Payment)
    (policy : FeePolicy) (entropy : Entropy) (need : Amount)
    (returned : wallet.send set payment policy entropy = .error (.insufficientFunds need)) :
    let coins := set.coins payment.height
    ∃ payloadFee total : Amount, Payload.feeFor payment.payload = .ok payloadFee ∧
      total.toNat = value coins ∧
      need.toNat = payment.due policy payloadFee 1 ∧
      payment.OutOfReach policy payloadFee coins ∧
      total.toNat < need.toNat + (coins.length - 1) * (64 + 64 + 4) * policy.feePerByte.toNat ∧
      (coins.length ≤ 1 ∨
          estimatedSize coins.length 2 payment.payload.length * policy.feePerByte.toNat ≤
            policy.minimumFee.toNat →
        total < need) ∧
      (need ≤ total ↔ ∃ count, 1 < count ∧ count ≤ coins.length ∧
        payment.amount.toNat + payloadFee.toNat +
          max (estimatedSize 1 2 payment.payload.length * policy.feePerByte.toNat)
            policy.minimumFee.toNat ≤ worth coins count) := by
  intro coins
  obtain ⟨nonzero, payloadFee, priced, exact, short⟩ :=
    Payment.verdict_short_iff.mp (send_error_iff.mp returned)
  have needed := need.toNat_lt_size
  rw [exact] at needed
  have less : value coins < payment.due policy payloadFee (1 + (coins.length - 1)) :=
    short.value_lt nonzero
  have sum : (UInt64.ofNat (value coins)).toNat = value coins :=
    UInt64.toNat_ofNat_of_lt' (Nat.lt_trans less (short.due_lt_size needed))
  have bounded := Nat.lt_of_lt_of_le less (payment.due_add_le policy payloadFee 1 _)
  refine ⟨payloadFee, _, priced, sum, exact, short, ?_, fun small => ?_, ?_⟩
  · rw [sum, exact]
    exact bounded
  · rw [UInt64.lt_iff_toNat_lt, sum, exact]
    by_cases few : coins.length ≤ 1
    · rwa [Nat.sub_eq_zero_of_le few, Nat.add_zero] at less
    · have cheap := small.resolve_left few
      rw [Nat.add_sub_cancel' (by omega)] at less
      exact Nat.lt_of_lt_of_le less (Payment.due_le_due_of_minimum 1 cheap)
  · rw [UInt64.le_iff_toNat_le, sum, exact]
    exact short.due_le_value_iff nonzero

/-- Three coins, beside stake and a coin that is not mature. The minimum pays for all three. -/
theorem send_shortage_minimum :
    let wallet : Wallet secp256k1 := ⟨⟨⟨1, by decide, by decide⟩⟩⟩
    let coin := fun (byte : UInt8) (kind : OutputType) (unlockHeight : UInt64) (amount : Amount) =>
      (⟨⟨List.replicate 64 byte, List.length_replicate⟩, kind, unlockHeight, amount,
        wallet.lock⟩ : Unspent)
    let set := ofList [coin 1 .payment 0 30000, coin 2 .freeze 0 1000000,
      coin 3 .payment 6 30000, coin 4 .payment 9 1000000, coin 5 .payment 0 30000]
    let payment : Payment := ⟨⟨.key, [2]⟩, 1000, some 5, [7]⟩
    set.Reachable ∧
    wallet.send set payment {} (fun _ => []) = .error (.insufficientFunds 101000) ∧
    value (set.coins payment.height) = 90000 ∧
    value (set.coins payment.height) < (101000 : Amount).toNat := by
  intro wallet coin set payment
  have returned : wallet.send set payment {} (fun _ => []) = .error (.insufficientFunds 101000) :=
    send_error_iff.mpr (by decide +kernel)
  obtain ⟨_, total, -, sum, -, -, -, small, -⟩ :=
    send_shortage wallet set payment {} _ 101000 returned
  have less : total < 101000 := small (.inr (by decide +kernel))
  exact ⟨.add .empty _, returned, by decide +kernel, sum ▸ UInt64.lt_iff_toNat_lt.mp less⟩

/-- Four coins come to 120000. They would have to cover 125400, and 101000 is reported. -/
theorem send_understates_need :
    let wallet : Wallet secp256k1 := ⟨⟨⟨1, by decide, by decide⟩⟩⟩
    let coin := fun byte : UInt8 => (⟨⟨List.replicate 64 byte, List.length_replicate⟩, .payment, 0,
      30000, wallet.lock⟩ : Unspent)
    let set := ofList [coin 1, coin 2, coin 3, coin 4]
    let payment : Payment := { destination := ⟨.key, [2]⟩, amount := 1000 }
    set.Reachable ∧
    wallet.send set payment {} (fun _ => []) = .error (.insufficientFunds 101000) ∧
    value (set.coins payment.height) = 120000 ∧
    payment.need {} 0 4 = .ok 125400 ∧
    ¬value (set.coins payment.height) < (101000 : Amount).toNat := by
  intro wallet coin set payment
  refine ⟨.add .empty _, send_error_iff.mpr (by decide +kernel), ?_⟩
  decide +kernel

end Wallet

end UtxoLedger
