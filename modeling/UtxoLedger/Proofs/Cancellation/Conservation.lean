import UtxoLedger.Key.Secp256k1
import UtxoLedger.Proofs.Amount.Exact
import UtxoLedger.Proofs.Cancellation.Building

/-!
# A cancellation conserves value

The charges of a cancellation are as equal as whole units allow and sum to the fee, for any
fee and any number of outputs. Each one is taken from the record in its place and leaves
something of it, so what the cancellation spends is what it pays back and the fee.
-/
namespace UtxoLedger.Cancellation

/-- The exact charge of the output in a place: an equal share, and one of the units left over. -/
def charge (fee count place : Nat) : Nat :=
  fee / count + if place < fee % count then 1 else 0

/-- The charges of the first places: their shares, and as many units as are left or fit. -/
private theorem sum_charge_range (fee count places : Nat) :
    ((List.range places).map (charge fee count)).sum =
      places * (fee / count) + min places (fee % count) := by
  induction places with
  | zero => simp
  | succ places ih =>
    rw [List.range_succ, List.map_append, List.sum_append_nat, ih, Nat.succ_mul]
    simp only [List.map_cons, List.map_nil, List.sum_cons, List.sum_nil, charge]
    split <;> omega

theorem sum_charge (fee : Nat) {count : Nat} (some : 0 < count) :
    ((List.range count).map (charge fee count)).sum = fee := by
  have remainder := Nat.mod_lt fee some
  have division := Nat.div_add_mod fee count
  rw [sum_charge_range, Nat.min_eq_right (by omega)]
  exact division

theorem charge_le (fee : Nat) {count : Nat} (some : 0 < count) (place : Nat) :
    charge fee count place ≤ fee := by
  have division := Nat.div_add_mod fee count
  have share : fee / count ≤ count * (fee / count) := Nat.le_mul_of_pos_left _ some
  unfold charge
  split <;> omega

theorem charges_length (fee : Amount) (count : Nat) : (charges fee count).length = count := by
  simp [charges]

theorem charges_getElem (fee : Amount) {count place : Nat}
    (inside : place < (charges fee count).length) :
    (charges fee count)[place].toNat = charge fee.toNat count place := by
  have bound : place < count := by simpa [charges_length] using inside
  have some : 0 < count := by omega
  have fits := fee.toNat_lt_size
  have below := charge_le fee.toNat some place
  have shared : (share fee count).toNat = fee.toNat / count := by
    rw [share, Nat.max_eq_left some]
    exact UInt64.toNat_ofNat_of_lt' (Nat.lt_of_le_of_lt (Nat.div_le_self _ _) fits)
  unfold charge at below ⊢
  simp only [charges, List.getElem_map, List.getElem_range, Nat.max_eq_left some]
  split
  next extra =>
    -- The share with one more unit is not above the fee, so it does not wrap.
    rw [if_pos extra] at below
    rw [UInt64.toNat_add, shared]
    exact Nat.mod_eq_of_lt (Nat.lt_of_le_of_lt below fits)
  next => exact shared

theorem total_charges (fee : Amount) {count : Nat} (some : 0 < count) :
    Amount.total (charges fee count) = fee.toNat := by
  have same : (charges fee count).map UInt64.toNat =
      (List.range count).map (charge fee.toNat count) := by
    refine List.ext_getElem (by simp [charges_length]) fun place inside _ => ?_
    rw [List.getElem_map, charges_getElem, List.getElem_map, List.getElem_range]
  rw [Amount.total, same, sum_charge _ some]

/-- What is left of a record is exact, because its charge is less than its amount. -/
private theorem refund_toNat {entry : Unspent} {charged : Amount}
    (covered : charged.toNat < entry.amount.toNat) :
    (refund entry charged).value.toNat = entry.amount.toNat - charged.toNat :=
  UInt64.toNat_sub_of_le _ _ (UInt64.le_iff_toNat_le.mpr (Nat.le_of_lt covered))

theorem total_refunds {spent : List Unspent} {charged : List Amount}
    (paired : spent.length = charged.length)
    (covered : ∀ share ∈ spent.zip charged, share.2.toNat < share.1.amount.toNat) :
    Amount.total (spent.map Unspent.amount) =
      Amount.total ((List.zipWith refund spent charged).map Output.value) +
        Amount.total charged := by
  induction spent generalizing charged with
  | nil =>
    cases charged with
    | nil => rfl
    | cons => cases paired
  | cons entry spent ih =>
    cases charged with
    | nil => cases paired
    | cons taken charged =>
      have first : taken.toNat < entry.amount.toNat := covered (entry, taken) List.mem_cons_self
      have rest := ih (Nat.succ.inj paired) fun share member =>
        covered share (List.mem_cons_of_mem _ member)
      have left := refund_toNat first
      rw [List.zipWith_cons_cons, List.map_cons, List.map_cons, Amount.total_cons,
        Amount.total_cons, Amount.total_cons, rest, left]
      omega

/-- Every record goes back to where it came from, less its charge, and the charges are the fee. -/
structure Conserves (pending : Transaction) (records : List Unspent) (policy : FeePolicy)
    (built : Cancellation) (spent : List Unspent) : Prop where
  recorded : List.Forall₂ (FirstRecord records) pending.inputs spent
  inputCount : built.tx.inputs.length = pending.inputs.length
  outputCount : built.tx.outputs.length = pending.inputs.length
  spends : built.tx.inputs.map (fun input => (input.utxo, input.unlockAge)) =
    spent.map fun entry => (entry.utxo, 0)
  refunds : ∀ place entry, spent[place]? = some entry →
    charge built.fee.toNat pending.inputs.length place < entry.amount.toNat ∧
    ∃ value : Amount, 0 < value.toNat ∧
      value.toNat = entry.amount.toNat - charge built.fee.toNat pending.inputs.length place ∧
      built.tx.outputs[place]? = some ⟨.payment, value, entry.lock⟩
  total : Amount.total (spent.map Unspent.amount) =
    Amount.total (built.tx.outputs.map Output.value) + built.fee.toNat
  fee : ∃ rate,
    policy.cancelFeeRate (estimatedSize pending.inputs.length pending.outputs.length
      pending.payload.length) = .ok rate ∧
    built.fee.toNat = rate.toNat * estimatedSize pending.inputs.length pending.outputs.length 0

theorem build_conserves {S : SignatureScheme} (pending : Transaction) (records : List Unspent)
    (keys : List (KeyPair S)) (policy : FeePolicy) (entropy : Entropy) (built : Cancellation)
    (spending : pending.inputs ≠ [])
    (returned : build pending records keys policy entropy = .ok built) :
    ∃ spent, Conserves pending records policy built spent := by
  obtain ⟨spent, signers, approved, signed, -⟩ := build_ok_iff.mp returned
  have count : pending.inputs.length = spent.length := approved.recorded.length_eq
  have some : 0 < spent.length := count ▸ List.length_pos_iff.mpr spending
  have same := Transaction.bare_of_signed signed
  have inputs := Transaction.map_inputs_of_bare (fun input => (input.utxo, input.unlockAge))
    (fun _ => rfl) same
  obtain ⟨-, outputs, -, -⟩ := Transaction.bare_eq_iff.mp same
  have paired : spent.length = (charges built.fee spent.length).length :=
    (charges_length _ _).symm
  simp only [unsigned] at inputs outputs
  rw [List.map_map] at inputs
  -- Records, charges and outputs line up place by place.
  refine ⟨spent, approved.recorded, ?_, ?_, inputs, fun place entry placed => ?_, ?_, ?_⟩
  · have lengths := congrArg List.length inputs
    rw [List.length_map, List.length_map] at lengths
    exact lengths.trans count.symm
  · rw [outputs, List.length_zipWith, ← paired, Nat.min_self, count]
  · obtain ⟨inside, rfl⟩ := List.getElem?_eq_some_iff.mp placed
    have exact := charges_getElem built.fee (paired ▸ inside)
    have member : (spent[place], (charges built.fee spent.length)[place]) ∈
        spent.zip (charges built.fee spent.length) :=
      List.mem_of_getElem? (List.getElem?_zip_eq_some.mpr
        ⟨placed, List.getElem?_eq_getElem (paired ▸ inside)⟩)
    have covered : (charges built.fee spent.length)[place].toNat < spent[place].amount.toNat :=
      approved.covered _ member
    have left := refund_toNat covered
    rw [exact] at covered left
    rw [count]
    refine ⟨covered, _, ?_, left, ?_⟩
    · rw [left]
      exact Nat.sub_pos_of_lt covered
    · rw [outputs, List.getElem?_zipWith, placed, List.getElem?_eq_getElem (paired ▸ inside)]
      rfl
  · rw [outputs, total_refunds paired approved.covered, total_charges _ some]
  · obtain ⟨rate, rated, product⟩ := Except.bind_ok_iff.mp approved.priced
    exact ⟨rate, rated, Amount.checked_ok_iff.mp product⟩

/-- Three coins of one owner, whose fee leaves two units over: 121520 = 3 * 40506 + 2. -/
theorem build_conserves_three_coins :
    let pair : KeyPair secp256k1 := ⟨⟨1, by decide, by decide⟩⟩
    let coin := fun byte : UInt8 => (⟨⟨List.replicate 64 byte, List.length_replicate⟩, .payment, 0,
      1000000, .ofPublicKey pair.publicKey⟩ : Unspent)
    let records := [coin 1, coin 2, coin 3]
    let pending : Transaction := {
      inputs := records.map fun entry => { utxo := entry.utxo }
      outputs := [⟨.payment, 900000, ⟨.key, [2]⟩⟩, ⟨.payment, 1900000, ⟨.key, [3]⟩⟩] }
    let policy : FeePolicy := { doubleSpentThresholdPct := 21 }
    pending.inputs ≠ [] ∧
    ∃ built, build pending records [pair] policy (fun _ => []) = .ok built ∧ built.fee = 121520 ∧
      ∃ spent, Conserves pending records policy built spent := by
  intro pair coin records pending policy
  have spending : pending.inputs ≠ [] := List.cons_ne_nil _ _
  have owned (byte : UInt8) : signer? [pair] (coin byte) = some pair :=
    List.find?_cons_of_pos (decide_eq_true rfl)
  have approved : Approved pending records [pair] policy records [pair, pair, pair] 121520 := {
    recorded := by
      refine .cons ⟨[], _, rfl, rfl, ?_⟩ (.cons ⟨[coin 1], _, rfl, rfl, ?_⟩
        (.cons ⟨[coin 1, coin 2], _, rfl, rfl, ?_⟩ .nil)) <;> decide
    paid := by simp [records, coin]
    singleKey := by simp [records, coin, Lock.isSingleKey, Lock.ofPublicKey]
    owned := .cons (owned 1) (.cons (owned 2) (.cons (owned 3) .nil))
    priced := by decide +kernel
    covered := by
      have charged : charges 121520 records.length = [40507, 40507, 40506] := by decide +kernel
      rw [charged]
      simp only [records, List.zip_cons_cons, List.zip_nil_right, List.forall_mem_cons]
      refine ⟨?_, ?_, ?_, List.forall_mem_nil _⟩ <;> decide }
  obtain ⟨built, returned, fee⟩ := approved.build fun _ => []
  exact ⟨spending, built, returned, fee, build_conserves pending records [pair] policy _ built
    spending returned⟩

end UtxoLedger.Cancellation
