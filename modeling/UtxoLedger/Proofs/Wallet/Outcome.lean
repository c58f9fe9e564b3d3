import UtxoLedger.Key.Secp256k1
import UtxoLedger.Proofs.Fee.Exact
import UtxoLedger.Proofs.Fee.Payload
import UtxoLedger.Proofs.InPlace
import UtxoLedger.Proofs.Wallet.Sending

/-!
# How a payment ends

The end of a payment can be read off exact numbers: what the first coins are worth, and what so
many coins have to cover. One coin, two coins and so on are looked at until a number of them
decides. Once coins are selected the payment goes through, and a payment that does not go
through leaves the set of its wallet as it was.
-/
namespace UtxoLedger

namespace Payment

variable {payment : Payment} {policy : FeePolicy} {payloadFee : Amount} {coins : List Unspent}

/-- What so many inputs have to cover where numbers have no bound. -/
def due (payment : Payment) (policy : FeePolicy) (payloadFee : Amount) (inputs : Nat) : Nat :=
  payment.amount.toNat + payloadFee.toNat +
    policy.exactFee (estimatedSize inputs 2 payment.payload.length)

theorem need_eq (payment : Payment) (policy : FeePolicy) (payloadFee : Amount) (inputs : Nat) :
    payment.need policy payloadFee inputs =
      Amount.checked (payment.due policy payloadFee inputs) := by
  unfold need transactionFee due
  rw [FeePolicy.standardFee_eq]
  cases added : Amount.checkedAdd payment.amount payloadFee with
  | error error =>
    obtain ⟨large, rfl⟩ := Amount.checkedAdd_error_iff.mp added
    exact (Amount.checked_error_iff.mpr ⟨Nat.le_add_right_of_le large, rfl⟩).symm
  | ok charged =>
    rw [← Amount.checkedAdd_ok_iff.mp added]
    exact Amount.checked_bind (Nat.le_add_left _ charged.toNat)

/-- The first number of coins whose worth or need is no amount, or that is worth what it needs. -/
def deciding? (payment : Payment) (policy : FeePolicy) (payloadFee : Amount)
    (coins : List Unspent) : Option Nat :=
  (List.range' 1 coins.length).find? fun count =>
    UInt64.size ≤ WorkingSet.worth coins count ∨
    UInt64.size ≤ payment.due policy payloadFee count ∨
    payment.due policy payloadFee count ≤ WorkingSet.worth coins count

/-- The end of a payment out of the coins that can be spent. -/
def verdict (payment : Payment) (policy : FeePolicy) (coins : List Unspent) :
    Except WalletError Unit :=
  if payment.amount = 0 then .error (.draft (.invalidAmount 0))
  else if maximumPayload < payment.payload.length then .error (.fee .sizeAboveMaximum)
  else do
    let payloadFee ← (Payload.feeFor payment.payload).mapError .fee
    match payment.deciding? policy payloadFee coins with
    | some count =>
      -- An overflow comes first, whether or not the coins are worth what they need.
      if UInt64.size ≤ WorkingSet.worth coins count ∨
          UInt64.size ≤ payment.due policy payloadFee count then .error (.amount .overflow)
      else .ok ()
    | none =>
      let least ← (Amount.checked (payment.due policy payloadFee 1)).mapError .amount
      .error (.insufficientFunds least)

theorem short_iff {count : Nat} :
    WorkingSet.Short (payment.need policy payloadFee) coins count ↔
      payment.due policy payloadFee count < UInt64.size ∧
      WorkingSet.worth coins count < payment.due policy payloadFee count := by
  simp only [WorkingSet.Short, need_eq, Amount.checked_ok_iff]
  constructor
  · rintro ⟨goal, exact, less⟩
    rw [exact] at less
    exact ⟨exact ▸ goal.toNat_lt_size, less⟩
  · rintro ⟨fits, less⟩
    have exact := UInt64.toNat_ofNat_of_lt' fits
    exact ⟨_, exact, exact.symm ▸ less⟩

theorem deciding?_of_reaches {count : Nat}
    (reaches : WorkingSet.Reaches (payment.need policy payloadFee) coins 0 count)
    (decides : ¬WorkingSet.Short (payment.need policy payloadFee) coins count) :
    payment.deciding? policy payloadFee coins = some count := by
  have past := reaches.past
  have inside := reaches.inside
  rw [short_iff] at decides
  rw [deciding?, List.find?_range'_eq_some]
  refine ⟨by simp; omega, by simp; omega, fun fewer from_one before => ?_⟩
  obtain ⟨fits, less⟩ := short_iff.mp (reaches.short fewer from_one before)
  simp
  omega

theorem deciding?_of_short
    (short : ∀ count, 0 < count → count ≤ coins.length →
      WorkingSet.Short (payment.need policy payloadFee) coins count) :
    payment.deciding? policy payloadFee coins = none := by
  rw [deciding?, List.find?_eq_none]
  intro count member
  have bounds := List.mem_range'_1.mp member
  obtain ⟨fits, less⟩ := short_iff.mp (short count (by omega) (by omega))
  simp
  omega

theorem overflows_of_decides {count : Nat} {error : AmountError}
    (decides : WorkingSet.Decides (payment.need policy payloadFee) coins count (.error error)) :
    error = .overflow ∧ (UInt64.size ≤ WorkingSet.worth coins count ∨
      UInt64.size ≤ payment.due policy payloadFee count) := by
  cases decides with
  | overflow large => exact ⟨rfl, .inl large⟩
  | refused _ failed =>
    rw [need_eq, Amount.checked_error_iff] at failed
    exact ⟨failed.2, .inr failed.1⟩

end Payment

namespace Wallet

open InPlace (Realizes realizes_bind)

variable {S : SignatureScheme}

/-- The payment out of a set that is kept in place: coins are taken out of a copy, and the copy
takes the place of the set once the transaction is signed. -/
def sendInPlace (wallet : Wallet S) (payment : Payment) (policy : FeePolicy) (entropy : Entropy) :
    EStateM WalletError WorkingSet Transaction := do
  if payment.amount = 0 then throw (.draft (.invalidAmount 0))
  let payloadFee ← MonadExcept.ofExcept ((Payload.feeFor payment.payload).mapError .fee)
  let need := payment.need policy payloadFee
  let copy ← get
  let (selected, left) ← MonadExcept.ofExcept
    ((copy.selectWith payment.height need).mapError .amount)
  if selected.isEmpty then
    let least ← MonadExcept.ofExcept ((need 1).mapError .amount)
    throw (.insufficientFunds least)
  let draft ← MonadExcept.ofExcept ((wallet.prepare payment selected).mapError .draft)
  let fee ← MonadExcept.ofExcept
    ((payment.transactionFee policy selected.length).mapError .amount)
  let tx ← MonadExcept.ofExcept
    ((draft.sign .payment ⟨fee, payloadFee⟩ entropy).mapError .draft)
  set left
  return tx

theorem sendInPlace_realizes (wallet : Wallet S) (set : WorkingSet) (payment : Payment)
    (policy : FeePolicy) (entropy : Entropy) :
    Realizes (wallet.sendInPlace payment policy entropy) set
      (wallet.send set payment policy entropy) := by
  unfold sendInPlace send
  split
  · rfl
  refine realizes_bind fun payloadFee => ?_
  -- The copy is the set itself, which no step has changed so far.
  change Realizes (MonadExcept.ofExcept _ >>= _) set (_ >>= _)
  refine realizes_bind fun (selected, left) => ?_
  dsimp only
  split
  · refine realizes_bind fun least => ?_
    rfl
  refine realizes_bind fun draft => realizes_bind fun fee => realizes_bind fun tx => ?_
  rfl

section Ends

variable {wallet : Wallet S} {set : WorkingSet} {payment : Payment} {policy : FeePolicy}
  {payloadFee : Amount} {entropy : Entropy} (nonzero : payment.amount ≠ 0)
  (priced : Payload.feeFor payment.payload = .ok payloadFee)
include nonzero priced

private theorem send_of_failure {error : AmountError}
    (failed : set.selectWith payment.height (payment.need policy payloadFee) = .error error) :
    wallet.send set payment policy entropy = .error (.amount error) := by
  rw [send, if_neg nonzero, priced]
  change ((set.selectWith _ _).mapError _ >>= _) = _
  rw [failed]
  rfl

private theorem send_of_nothing
    (nothing : set.selectWith payment.height (payment.need policy payloadFee) = .ok ([], set)) :
    (wallet.send set payment policy entropy).map (fun _ => ()) =
      (do
        let least ← (payment.need policy payloadFee 1).mapError .amount
        .error (.insufficientFunds least)) := by
  rw [send, if_neg nonzero, priced]
  change (((set.selectWith _ _).mapError _ >>= _).map _) = _
  rw [nothing]
  change ((((payment.need policy payloadFee 1).mapError WalletError.amount) >>= _).map _) = _
  cases payment.need policy payloadFee 1 <;> rfl

/-- Selected coins cover what has to be covered, so nothing is in the way after the selection. -/
private theorem send_of_some {selected : List Unspent} {left : WorkingSet} (some : selected ≠ [])
    (chosen : set.selectWith payment.height (payment.need policy payloadFee) =
      .ok (selected, left)) :
    ∃ tx, wallet.send set payment policy entropy = .ok (tx, left) := by
  rcases set.selectWith_cases payment.height (payment.need policy payloadFee) with
    ⟨_, _, -, -, failed⟩ | ⟨-, nothing⟩ | ⟨count, _, _, reaches, decides, done, -⟩
  · cases failed.symm.trans chosen
  · cases nothing.symm.trans chosen
    exact absurd rfl some
  · cases done.symm.trans chosen
    cases decides with
    | covered fits aimed enough =>
      rw [← List.length_take_of_le reaches.inside] at aimed
      exact wallet.send_of_selected entropy nonzero priced chosen some aimed fits enough

end Ends

/-- The payment ends as the exact numbers say. -/
theorem send_verdict (wallet : Wallet S) (set : WorkingSet) (payment : Payment)
    (policy : FeePolicy) (entropy : Entropy) :
    (wallet.send set payment policy entropy).map (fun _ => ()) =
      payment.verdict policy (set.coins payment.height) := by
  unfold Payment.verdict
  by_cases zero : payment.amount = 0
  · rw [if_pos zero, send, if_pos zero]
    rfl
  rw [if_neg zero]
  cases priced : Payload.feeFor payment.payload with
  | error error =>
    obtain ⟨large, rfl⟩ := Payload.feeFor_error_iff.mp priced
    rw [if_pos large, send, if_neg zero, priced]
    rfl
  | ok payloadFee =>
    rw [if_neg (Payload.within_of_feeFor priced)]
    change _ = (match payment.deciding? policy payloadFee (set.coins payment.height) with
      | some _ => _
      | none => _)
    rcases set.selectWith_cases payment.height (payment.need policy payloadFee) with
      ⟨count, error, reaches, decides, failed⟩ | ⟨short, nothing⟩ |
      ⟨count, selected, left, reaches, decides, done, -⟩
    · obtain ⟨rfl, overflows⟩ := Payment.overflows_of_decides decides
      have decided : ¬WorkingSet.Short (payment.need policy payloadFee)
          (set.coins payment.height) count := by
        rw [Payment.short_iff]
        omega
      rw [Payment.deciding?_of_reaches reaches decided, send_of_failure zero priced failed]
      exact (if_pos overflows).symm
    · rw [Payment.deciding?_of_short short, send_of_nothing zero priced nothing, Payment.need_eq]
    · cases decides with
      | covered fits aimed enough =>
        have exact := aimed
        rw [Payment.need_eq, Amount.checked_ok_iff] at exact
        rw [exact] at enough
        have decided : ¬WorkingSet.Short (payment.need policy payloadFee)
            (set.coins payment.height) count := by
          rw [Payment.short_iff]
          omega
        have some : (set.coins payment.height).take count ≠ [] := by
          have past := reaches.past
          have inside := reaches.inside
          rw [← List.length_pos_iff, List.length_take]
          omega
        obtain ⟨tx, returned⟩ : ∃ tx, wallet.send set payment policy entropy = .ok (tx, _) :=
          send_of_some zero priced some done
        rw [Payment.deciding?_of_reaches reaches decided, returned]
        exact (if_neg (by omega)).symm

/-- The first number of coins that decides gives the end of a payment; as soon as coins are
selected it succeeds, and where it fails it changes nothing. -/
theorem send_outcome (wallet : Wallet S) (set : WorkingSet) (payment : Payment)
    (policy : FeePolicy) (entropy : Entropy) :
    (wallet.send set payment policy entropy).map (fun _ => ()) =
      payment.verdict policy (set.coins payment.height) ∧
    (∀ left, (∃ tx, wallet.send set payment policy entropy = .ok (tx, left)) ↔
      payment.amount ≠ 0 ∧ ∃ payloadFee selected,
        Payload.feeFor payment.payload = .ok payloadFee ∧
        set.selectWith payment.height (payment.need policy payloadFee) = .ok (selected, left) ∧
        selected ≠ []) ∧
    Realizes (wallet.sendInPlace payment policy entropy) set
      (wallet.send set payment policy entropy) := by
  refine ⟨send_verdict wallet set payment policy entropy, fun left => ?_,
    sendInPlace_realizes wallet set payment policy entropy⟩
  constructor
  · rintro ⟨tx, returned⟩
    obtain ⟨nonzero, payloadFee, selected, -, -, priced, chosen, some, -⟩ :=
      send_ok_iff.mp returned
    exact ⟨nonzero, payloadFee, selected, priced, chosen, some⟩
  · rintro ⟨nonzero, payloadFee, selected, priced, chosen, some⟩
    exact send_of_some nonzero priced some chosen

/-- Stake does not pay, and a coin from height 7 on does not pay before height 6. Until then the set
stays as it was, and afterwards only the stake is left of it. -/
theorem send_outcome_at_maturity :
    let wallet : Wallet secp256k1 := ⟨⟨⟨1, by decide, by decide⟩⟩⟩
    let entry := fun (byte : UInt8) (kind : OutputType) (unlockHeight : UInt64) =>
      (⟨⟨List.replicate 64 byte, List.length_replicate⟩, kind, unlockHeight, 700000,
        wallet.lock⟩ : Unspent)
    let stake := entry 1 .freeze 0
    let coin := entry 2 .payment 7
    let set := WorkingSet.ofList [stake, coin]
    let payment := fun height : UInt64 =>
      ({ destination := ⟨.key, [2]⟩, amount := 500000, height := some height } : Payment)
    (wallet.sendInPlace (payment 5) {} fun _ => []).run set =
      .error (.insufficientFunds 600000) set ∧
    ∃ tx left, (wallet.sendInPlace (payment 6) {} fun _ => []).run set = .ok tx left ∧
      left.entries = [stake] := by
  intro wallet entry stake coin set payment
  constructor
  · obtain ⟨ends, -, realizes⟩ := send_outcome wallet set (payment 5) {} fun _ => []
    have short : (payment 5).verdict {} (set.coins (some 5)) = .error (.insufficientFunds 600000) := by
      decide +kernel
    refine realizes.error_iff.mpr ⟨?_, rfl⟩
    rw [← Except.map_error_iff, ends]
    exact short
  · obtain ⟨-, succeeds, realizes⟩ := send_outcome wallet set (payment 6) {} fun _ => []
    have chosen : set.selectWith (some 6) ((payment 6).need {} 0) =
        .ok ([coin], ⟨[stake], [stake.utxo]⟩) := by decide +kernel
    have free : Payload.feeFor (payment 6).payload = .ok 0 := Payload.feeFor_of_short (by decide)
    obtain ⟨tx, returned⟩ := (succeeds _).mpr
      ⟨by decide, 0, [coin], free, chosen, List.cons_ne_nil _ _⟩
    exact ⟨tx, _, realizes.ok_iff.mpr returned, rfl⟩

end Wallet

end UtxoLedger
