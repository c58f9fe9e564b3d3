import UtxoLedger.Proofs.Draft.Conservation
import UtxoLedger.Proofs.WorkingSet.Coherence
import UtxoLedger.Wallet

/-!
# Sending a payment

A payment goes through a selection, a draft and a signature. Once coins are selected nothing
can go wrong any more: they cover what the draft pays and what the fees take.
-/
namespace UtxoLedger

theorem Payment.need_ok_iff {payment : Payment} {policy : FeePolicy}
    {payloadFee goal : Amount} {inputs : Nat} :
    payment.need policy payloadFee inputs = .ok goal ↔
      ∃ fee, payment.transactionFee policy inputs = .ok fee ∧
        goal.toNat = payment.amount.toNat + payloadFee.toNat + fee.toNat := by
  simp only [Payment.need, Except.bind_ok_iff, Amount.checkedAdd_ok_iff]
  constructor
  · rintro ⟨sum, exact, fee, charged, all⟩
    exact ⟨fee, charged, exact ▸ all⟩
  · rintro ⟨fee, charged, all⟩
    have within := goal.toNat_lt_size
    have exact : (UInt64.ofNat (payment.amount.toNat + payloadFee.toNat)).toNat =
        payment.amount.toNat + payloadFee.toNat := UInt64.toNat_ofNat_of_lt' (by omega)
    exact ⟨_, exact, fee, charged, by rw [all, exact]⟩

namespace Wallet

variable {S : SignatureScheme} {wallet : Wallet S}

/-- The draft of a payment out of entries that come to `total`. -/
def paying (wallet : Wallet S) (payment : Payment) (selected : List Unspent) (total : Amount) :
    Draft S where
  owner := wallet.keyPair
  inputs := selected.map fun entry => ({ utxo := entry.utxo }, entry.amount)
  outputs := [⟨.payment, payment.amount, payment.destination⟩]
  payload := payment.payload
  lockHeight := 0
  totalInputs := total
  totalOutputs := payment.amount

private theorem spend_ok_iff {draft next : Draft S} {selected : List Unspent} :
    selected.foldlM (fun (draft : Draft S) entry => draft.addInput entry.utxo entry.amount) draft =
        .ok next ↔
      ∃ total : Amount,
        total.toNat = draft.totalInputs.toNat + Amount.total (selected.map Unspent.amount) ∧
        next = { draft with
          inputs := draft.inputs ++ selected.map fun entry => ({ utxo := entry.utxo }, entry.amount)
          totalInputs := total } := by
  induction selected generalizing draft with
  | nil =>
    constructor
    · intro returned
      have same : draft = next := Except.ok.inj returned
      exact ⟨draft.totalInputs, rfl, by simp [← same]⟩
    · rintro ⟨total, exact, rfl⟩
      have same : total = draft.totalInputs := UInt64.toNat_inj.mp exact
      simp [same, pure, Except.pure]
  | cons entry rest ih =>
    rw [List.foldlM_cons, Except.bind_ok_iff]
    constructor
    · rintro ⟨first, added, returned⟩
      obtain ⟨sum, exact, rfl⟩ := Draft.addInput_ok_iff.mp added
      obtain ⟨total, all, rfl⟩ := ih.mp returned
      refine ⟨total, ?_, by simp⟩
      rw [all, exact, List.map_cons, Amount.total_cons, Nat.add_assoc]
    · rintro ⟨total, all, rfl⟩
      rw [List.map_cons, Amount.total_cons, ← Nat.add_assoc] at all
      have within := total.toNat_lt_size
      have exact : (UInt64.ofNat (draft.totalInputs.toNat + entry.amount.toNat)).toNat =
          draft.totalInputs.toNat + entry.amount.toNat := UInt64.toNat_ofNat_of_lt' (by omega)
      refine ⟨_, Draft.addInput_ok_iff.mpr ⟨_, exact, rfl⟩, ih.mpr ⟨total, ?_, by simp⟩⟩
      rw [all, exact]

theorem prepare_ok_iff {payment : Payment} {selected : List Unspent} {draft : Draft S} :
    wallet.prepare payment selected = .ok draft ↔
      0 < payment.amount.toNat ∧ ∃ total : Amount,
        total.toNat = Amount.total (selected.map Unspent.amount) ∧
        payment.amount.toNat ≤ total.toNat ∧ draft = wallet.paying payment selected total := by
  simp only [prepare, Except.bind_ok_iff, spend_ok_iff, Draft.addOutput_ok_iff]
  constructor
  · rintro ⟨spent, ⟨total, all, rfl⟩, paid, ⟨positive, sum, exact, within, rfl⟩, returned⟩
    have same : sum = payment.amount := UInt64.toNat_inj.mp (by simpa [Draft.ofOwner] using exact)
    subst same
    cases returned
    exact ⟨positive, total, by simpa [Draft.ofOwner] using all, within, rfl⟩
  · rintro ⟨positive, total, all, within, rfl⟩
    refine ⟨_, ⟨total, ?_, rfl⟩, _, ⟨positive, payment.amount, ?_, within, rfl⟩, rfl⟩
    · simpa [Draft.ofOwner] using all
    · simp [Draft.ofOwner]

/-- What the selection covers is enough for the signature. -/
theorem paying_signs (wallet : Wallet S) (payment : Payment) (selected : List Unspent)
    {total : Amount} (fee payloadFee : Amount) (entropy : Entropy)
    (covered : payment.amount.toNat + payloadFee.toNat + fee.toNat ≤ total.toNat) :
    ∃ tx, (wallet.paying payment selected total).sign .payment ⟨fee, payloadFee⟩ entropy = .ok tx ∧
      (wallet.paying payment selected total).Settles .payment
        (payment.amount.toNat + payloadFee.toNat + fee.toNat) tx := by
  have fits := total.toNat_lt_size
  have spent : (wallet.paying payment selected total).spending ⟨fee, payloadFee⟩ =
      payment.amount.toNat + payloadFee.toNat + fee.toNat := Nat.add_right_comm _ _ _
  rw [← spent] at covered ⊢
  exact Draft.sign_settles _ _ entropy (by omega) (.inl (List.cons_ne_nil _ _))

theorem send_ok_iff {set left : WorkingSet} {payment : Payment} {policy : FeePolicy}
    {entropy : Entropy} {tx : Transaction} :
    wallet.send set payment policy entropy = .ok (tx, left) ↔
      payment.amount ≠ 0 ∧ ∃ payloadFee selected draft fee,
        Payload.feeFor payment.payload = .ok payloadFee ∧
        set.selectWith payment.height (payment.need policy payloadFee) = .ok (selected, left) ∧
        selected ≠ [] ∧
        wallet.prepare payment selected = .ok draft ∧
        payment.transactionFee policy selected.length = .ok fee ∧
        draft.sign .payment ⟨fee, payloadFee⟩ entropy = .ok tx := by
  unfold send
  split
  next zero =>
    simp [zero, bind, Except.bind]
  next nonzero =>
    simp only [Except.bind_ok_iff, Except.mapError_ok_iff]
    constructor
    · rintro ⟨payloadFee, priced, ⟨selected, after⟩, chosen, rest⟩
      split at rest
      next empty =>
        -- Without coins there is an error, whatever it reports.
        simp [Except.bind_ok_iff] at rest
      next some =>
        obtain ⟨draft, prepared, fee, charged, signed, settled, returned⟩ := by
          simpa only [Except.bind_ok_iff, Except.mapError_ok_iff] using rest
        cases returned
        exact ⟨nonzero, payloadFee, selected, draft, fee, priced, chosen, by simpa using some,
          prepared, charged, settled⟩
    · rintro ⟨-, payloadFee, selected, draft, fee, priced, chosen, some, prepared, charged, settled⟩
      refine ⟨payloadFee, priced, (selected, left), chosen, ?_⟩
      rw [if_neg (by simpa using some), prepared, charged]
      simp only [Except.bind_ok_iff, Except.mapError_ok_iff]
      exact ⟨draft, rfl, fee, rfl, tx, settled, rfl⟩

/-- Once what has to be covered is selected, the payment succeeds. -/
theorem send_of_selected (wallet : Wallet S) {set left : WorkingSet} {payment : Payment}
    {policy : FeePolicy} {payloadFee goal : Amount} {selected : List Unspent} (entropy : Entropy)
    (nonzero : payment.amount ≠ 0) (priced : Payload.feeFor payment.payload = .ok payloadFee)
    (chosen : set.selectWith payment.height (payment.need policy payloadFee) = .ok (selected, left))
    (some : selected ≠ [])
    (aimed : payment.need policy payloadFee selected.length = .ok goal)
    (fits : Amount.total (selected.map Unspent.amount) < UInt64.size)
    (covered : goal.toNat ≤ Amount.total (selected.map Unspent.amount)) :
    ∃ tx, wallet.send set payment policy entropy = .ok (tx, left) := by
  obtain ⟨fee, charged, exact⟩ := Payment.need_ok_iff.mp aimed
  have positive := Amount.toNat_pos_iff.mpr nonzero
  have sum := UInt64.toNat_ofNat_of_lt' fits
  have covers : payment.amount.toNat + payloadFee.toNat + fee.toNat ≤
      (UInt64.ofNat (Amount.total (selected.map Unspent.amount))).toNat := by
    rw [sum, ← exact]
    exact covered
  obtain ⟨tx, signed, -⟩ := wallet.paying_signs payment selected fee payloadFee entropy covers
  have prepared : wallet.prepare payment selected = .ok (wallet.paying payment selected _) :=
    prepare_ok_iff.mpr ⟨positive, _, sum, by omega, rfl⟩
  exact ⟨tx, send_ok_iff.mpr ⟨nonzero, payloadFee, selected, _, fee, priced, chosen, some,
    prepared, charged, signed⟩⟩

/-- What is known of a payment that succeeded with its first `count` coins. -/
structure Sent (wallet : Wallet S) (set : WorkingSet) (payment : Payment) (policy : FeePolicy)
    (tx : Transaction) (left : WorkingSet) (count : Nat) (payloadFee fee total : Amount) :
    Prop where
  priced : Payload.feeFor payment.payload = .ok payloadFee
  charged : payment.transactionFee policy count = .ok fee
  reaches : WorkingSet.Reaches (payment.need policy payloadFee) (set.coins payment.height) 0 count
  positive : 0 < payment.amount.toNat
  sum : total.toNat = WorkingSet.worth (set.coins payment.height) count
  covered : payment.amount.toNat + payloadFee.toNat + fee.toNat ≤ total.toNat
  settled : (wallet.paying payment ((set.coins payment.height).take count) total).Settles .payment
    (payment.amount.toNat + payloadFee.toNat + fee.toNat) tx
  leaves : set.Leaves ((set.coins payment.height).take count) left

theorem sent_of_send {set left : WorkingSet} (coherent : set.Coherent) {payment : Payment}
    {policy : FeePolicy} {entropy : Entropy} {tx : Transaction}
    (returned : wallet.send set payment policy entropy = .ok (tx, left)) :
    ∃ count payloadFee fee total,
      wallet.Sent set payment policy tx left count payloadFee fee total := by
  obtain ⟨-, payloadFee, selected, draft, fee, priced, chosen, some, prepared, charged, signed⟩ :=
    send_ok_iff.mp returned
  rcases coherent.selectWith_cases payment.height (payment.need policy payloadFee) with
    ⟨_, _, -, -, failed⟩ | ⟨-, nothing⟩ | ⟨count, _, _, reaches, decides, done, leaves⟩
  · cases failed.symm.trans chosen
  · cases nothing.symm.trans chosen
    exact absurd rfl some
  · cases done.symm.trans chosen
    cases decides with
    | covered _ aimed enough =>
      rw [List.length_take_of_le reaches.inside] at charged
      obtain ⟨_, same, goal⟩ := Payment.need_ok_iff.mp aimed
      cases same.symm.trans charged
      obtain ⟨positive, total, sum, within, rfl⟩ := prepare_ok_iff.mp prepared
      change total.toNat = WorkingSet.worth (set.coins payment.height) count at sum
      rw [goal, ← sum] at enough
      obtain ⟨_, drawn, settled⟩ := wallet.paying_signs payment
        ((set.coins payment.height).take count) fee payloadFee entropy enough
      cases drawn.symm.trans signed
      exact ⟨count, payloadFee, fee, total, priced, charged, reaches, positive, sum, enough,
        settled, leaves⟩

namespace Sent

variable {set left : WorkingSet} {payment : Payment} {policy : FeePolicy} {tx : Transaction}
  {count : Nat} {payloadFee fee total : Amount}

theorem inputs (sent : wallet.Sent set payment policy tx left count payloadFee fee total) :
    tx.inputs.map (fun input => (input.utxo, input.unlockAge)) =
      ((set.coins payment.height).take count).map fun entry => (entry.utxo, 0) := by
  rw [sent.settled.inputs, paying, List.map_map]
  rfl

theorem keys (sent : wallet.Sent set payment policy tx left count payloadFee fee total) :
    tx.inputs.map Input.utxo = ((set.coins payment.height).take count).map Unspent.utxo := by
  have pairs := congrArg (List.map Prod.fst) sent.inputs
  rw [List.map_map, List.map_map] at pairs
  exact pairs

theorem inputCount (sent : wallet.Sent set payment policy tx left count payloadFee fee total) :
    tx.inputs.length = count := by
  have lengths := congrArg List.length sent.keys
  rw [List.length_map, List.length_map] at lengths
  exact lengths.trans (List.length_take_of_le sent.reaches.inside)

theorem outputs (sent : wallet.Sent set payment policy tx left count payloadFee fee total) :
    ∃ change, Draft.IsChange wallet.lock
        (total.toNat - (payment.amount.toNat + payloadFee.toNat + fee.toNat)) change ∧
      tx.outputs = change ++ [⟨.payment, payment.amount, payment.destination⟩] :=
  sent.settled.outputs

/-- The coins pay for the outputs and the fees, and for nothing else. -/
theorem conserved (sent : wallet.Sent set payment policy tx left count payloadFee fee total) :
    total.toNat = Amount.total (tx.outputs.map Output.value) + payloadFee.toNat + fee.toNat := by
  obtain ⟨change, given, outputs⟩ := sent.outputs
  have covered := sent.covered
  rw [outputs, List.map_append, Amount.total_append, given.total, List.map_singleton,
    Amount.total_cons, Amount.total_nil]
  dsimp only
  omega

/-- There is at most one output more than what is paid. -/
theorem outputCount_le (sent : wallet.Sent set payment policy tx left count payloadFee fee total) :
    tx.outputs.length ≤ 2 := by
  obtain ⟨change, given, outputs⟩ := sent.outputs
  rw [outputs, List.length_append, List.length_singleton]
  rcases given with ⟨-, rfl⟩ | ⟨-, _, -, rfl⟩ <;> simp

end Sent

end Wallet

end UtxoLedger
