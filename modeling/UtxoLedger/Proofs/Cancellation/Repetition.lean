import Mathlib.Data.List.Dedup
import UtxoLedger.Proofs.Cancellation.Rejection

/-!
# Cancellations of what spends nothing or spends twice

The inputs of a pending transaction are taken as they come. One without inputs is cancelled by a
transaction that moves nothing and reports a fee all the same, and a coin that is spent twice is
paid back twice. In every other case the coins, each counted once, are what is paid back and the
fee.
-/
namespace UtxoLedger.Cancellation

/-- What coins are worth when none is counted twice. -/
def worthOnce (spent : List Unspent) : Nat :=
  Amount.total (spent.dedup.map Unspent.amount)

theorem worthOnce_of_nodup {spent : List Unspent} (distinct : spent.Nodup) :
    worthOnce spent = Amount.total (spent.map Unspent.amount) := by
  rw [worthOnce, List.Nodup.dedup distinct]

theorem worthOnce_le (spent : List Unspent) :
    worthOnce spent ≤ Amount.total (spent.map Unspent.amount) := by
  induction spent with
  | nil => exact Nat.le_refl _
  | cons entry rest ih =>
    unfold worthOnce at ih ⊢
    rw [List.map_cons, Amount.total_cons]
    by_cases again : entry ∈ rest
    · rw [List.dedup_cons_of_mem again]
      omega
    · rw [List.dedup_cons_of_notMem again, List.map_cons, Amount.total_cons]
      omega

/-- A coin that comes twice counts for more than it is worth, because no coin is worth nothing. -/
theorem worthOnce_lt {spent : List Unspent} (repeated : ¬spent.Nodup)
    (worth : ∀ entry ∈ spent, 0 < entry.amount.toNat) :
    worthOnce spent < Amount.total (spent.map Unspent.amount) := by
  induction spent with
  | nil => exact absurd List.nodup_nil repeated
  | cons entry rest ih =>
    rw [List.map_cons, Amount.total_cons]
    by_cases again : entry ∈ rest
    · -- The rest counts this coin already.
      have first := worth entry List.mem_cons_self
      have others := worthOnce_le rest
      rw [worthOnce, List.dedup_cons_of_mem again, ← worthOnce]
      omega
    · have others := ih (fun distinct => repeated (List.nodup_cons.mpr ⟨again, distinct⟩))
        fun other member => worth other (List.mem_cons_of_mem _ member)
      rw [worthOnce, List.dedup_cons_of_notMem again, List.map_cons, Amount.total_cons,
        ← worthOnce]
      omega

section Records

variable {records spent : List Unspent} {inputs : List Input}

theorem FirstRecord.key {input : Input} {entry : Unspent}
    (first : FirstRecord records input entry) : entry.utxo = input.utxo := by
  obtain ⟨_, _, -, same, -⟩ := first
  exact same

/-- There is one first record for a key. -/
theorem FirstRecord.unique {input other : Input} {entry another : Unspent}
    (first : FirstRecord records input entry) (second : FirstRecord records other another)
    (same : input.utxo = other.utxo) : entry = another := by
  rw [← record?_eq_some_iff, record?] at first second
  rw [same, second] at first
  exact (Option.some.inj first).symm

theorem keys_of_recorded (recorded : List.Forall₂ (FirstRecord records) inputs spent) :
    spent.map Unspent.utxo = inputs.map Input.utxo := by
  induction recorded with
  | nil => rfl
  | cons first _ ih => rw [List.map_cons, List.map_cons, first.key, ih]

/-- A coin comes twice just where its key does. -/
theorem nodup_spent_iff (recorded : List.Forall₂ (FirstRecord records) inputs spent) :
    spent.Nodup ↔ (inputs.map Input.utxo).Nodup := by
  rw [← keys_of_recorded recorded]
  refine ⟨fun distinct => distinct.map_on ?_, List.Nodup.of_map _⟩
  intro entry member another alike same
  obtain ⟨input, -, first⟩ := (mem_spent_iff recorded).mp member
  obtain ⟨other, -, second⟩ := (mem_spent_iff recorded).mp alike
  exact first.unique second (first.key.symm.trans (same.trans second.key))

end Records

section Built

variable {S : SignatureScheme} {pending : Transaction} {records spent : List Unspent}
  {keys : List (KeyPair S)} {signers : List (KeyPair S)} {policy : FeePolicy} {entropy : Entropy}
  {fee : Amount} {tx : Transaction}

/-- A cancellation spends the keys of the pending transaction, as often as they come there. -/
theorem Approved.keys_eq (approved : Approved pending records keys policy spent signers fee)
    (signed : (unsigned spent (charges fee spent.length)).signed signers entropy = .ok tx) :
    tx.inputs.map Input.utxo = pending.inputs.map Input.utxo := by
  have same := Transaction.map_inputs_of_bare Input.utxo (fun _ => rfl)
    (Transaction.bare_of_signed signed)
  rw [same, ← keys_of_recorded approved.recorded, unsigned, List.map_map]
  rfl

private theorem outputs_of_signed
    (signed : (unsigned spent (charges fee spent.length)).signed signers entropy = .ok tx) :
    tx.outputs = List.zipWith refund spent (charges fee spent.length) := by
  obtain ⟨-, outputs, -, -⟩ := Transaction.bare_eq_iff.mp (Transaction.bare_of_signed signed)
  exact outputs

/-- Every coin is paid back less its charge, once for each input that spends it. -/
theorem Approved.total (approved : Approved pending records keys policy spent signers fee)
    (signed : (unsigned spent (charges fee spent.length)).signed signers entropy = .ok tx)
    (some : spent ≠ []) :
    Amount.total (spent.map Unspent.amount) =
      Amount.total (tx.outputs.map Output.value) + fee.toNat := by
  rw [outputs_of_signed signed,
    total_refunds (charges_length fee spent.length).symm approved.covered,
    total_charges fee (List.length_pos_iff.mpr some)]

/-- A charge leaves something of every coin, so none is worth nothing. -/
theorem Approved.worth (approved : Approved pending records keys policy spent signers fee) :
    ∀ entry ∈ spent, 0 < entry.amount.toNat := by
  intro entry member
  obtain ⟨place, inside, rfl⟩ := List.getElem_of_mem member
  have charged : place < (charges fee spent.length).length := by
    rw [charges_length]
    exact inside
  have among : (spent[place], (charges fee spent.length)[place]) ∈
      spent.zip (charges fee spent.length) :=
    List.mem_of_getElem? (List.getElem?_zip_eq_some.mpr
      ⟨List.getElem?_eq_getElem inside, List.getElem?_eq_getElem charged⟩)
  exact Nat.lt_of_le_of_lt (Nat.zero_le _) (approved.covered _ among)

end Built

/-- What a cancellation should say of the coins that it spends. -/
structure Truthful (built : Cancellation) (spent : List Unspent) : Prop where
  spends : built.tx.inputs ≠ []
  distinct : (built.tx.inputs.map Input.utxo).Nodup
  balanced : worthOnce spent =
    Amount.total (built.tx.outputs.map Output.value) + built.fee.toNat

/-- A cancellation is truthful just where the pending transaction spends something and nothing
twice. Without inputs it moves nothing, whatever fee it reports; with a coin that is spent twice it
pays back more than there is. -/
theorem build_truthful_iff {S : SignatureScheme} (pending : Transaction) (records : List Unspent)
    (keys : List (KeyPair S)) (policy : FeePolicy) (entropy : Entropy) (built : Cancellation)
    (returned : build pending records keys policy entropy = .ok built) :
    ∃ spent, List.Forall₂ (FirstRecord records) pending.inputs spent ∧
      (built.Truthful spent ↔
        pending.inputs ≠ [] ∧ (pending.inputs.map Input.utxo).Nodup) ∧
      (pending.inputs = [] → built.tx.inputs = [] ∧ built.tx.outputs = []) ∧
      (pending.inputs ≠ [] → Amount.total (spent.map Unspent.amount) =
        Amount.total (built.tx.outputs.map Output.value) + built.fee.toNat) ∧
      (¬(pending.inputs.map Input.utxo).Nodup → worthOnce spent <
        Amount.total (built.tx.outputs.map Output.value) + built.fee.toNat) := by
  obtain ⟨spent, signers, approved, signed, -⟩ := build_ok_iff.mp returned
  have same := approved.keys_eq signed
  have count := approved.recorded.length_eq
  have distinct_iff := nodup_spent_iff approved.recorded
  have total (spending : pending.inputs ≠ []) := approved.total signed (by
    rw [← List.length_pos_iff, ← count]
    exact List.length_pos_iff.mpr spending)
  have nothing_iff : built.tx.inputs = [] ↔ pending.inputs = [] := by
    rw [← List.map_eq_nil_iff (f := Input.utxo), same, List.map_eq_nil_iff]
  refine ⟨spent, approved.recorded, ⟨?_, ?_⟩, ?_, total, ?_⟩
  · rintro ⟨spends, distinct, -⟩
    exact ⟨mt nothing_iff.mpr spends, same ▸ distinct⟩
  · rintro ⟨spending, distinct⟩
    refine ⟨mt nothing_iff.mp spending, same ▸ distinct, ?_⟩
    rw [worthOnce_of_nodup (distinct_iff.mpr distinct), total spending]
  · intro nothing
    have none : spent = [] := by
      rw [← List.length_eq_zero_iff, ← count, nothing]
      rfl
    refine ⟨nothing_iff.mpr nothing, ?_⟩
    rw [outputs_of_signed signed, none]
    rfl
  · intro repeated
    have spending : pending.inputs ≠ [] := by
      rintro nothing
      exact repeated (nothing ▸ List.nodup_nil)
    rw [← total spending]
    exact worthOnce_lt (mt distinct_iff.mp repeated) approved.worth

/-- Two coins of one owner, the first of which is spent twice. -/
theorem build_truthful_iff_repeated :
    let pair : KeyPair secp256k1 := ⟨⟨1, by decide, by decide⟩⟩
    let coin := fun byte : UInt8 => (⟨⟨List.replicate 64 byte, List.length_replicate⟩, .payment, 0,
      1000000, .ofPublicKey pair.publicKey⟩ : Unspent)
    let records := [coin 1, coin 2]
    let pending : Transaction := {
      inputs := [coin 1, coin 2, coin 1].map fun entry => { utxo := entry.utxo }
      outputs := [⟨.payment, 1900000, ⟨.key, [2]⟩⟩] }
    ∃ built, build pending records [pair] {} (fun _ => []) = .ok built ∧
      ¬(pending.inputs.map Input.utxo).Nodup ∧
      ∃ spent, List.Forall₂ (FirstRecord records) pending.inputs spent ∧ ¬built.Truthful spent ∧
        worthOnce spent < Amount.total (built.tx.outputs.map Output.value) + built.fee.toNat := by
  intro pair coin records pending
  have first : FirstRecord records { utxo := (coin 1).utxo } (coin 1) :=
    ⟨[], [coin 2], rfl, rfl, List.forall_mem_nil _⟩
  have second : FirstRecord records { utxo := (coin 2).utxo } (coin 2) :=
    ⟨[coin 1], [], rfl, rfl, by decide⟩
  have approved : Approved pending records [pair] {} [coin 1, coin 2, coin 1] _ 119796 :=
    approved_of_owner pair (.cons first (.cons second (.cons first .nil)))
      (by simp [coin]) (by simp [coin]) (by decide +kernel) (by decide +kernel)
  have repeated : ¬(pending.inputs.map Input.utxo).Nodup := by decide
  obtain ⟨built, returned, -⟩ := approved.build fun _ => []
  obtain ⟨spent, recorded, truthful_iff, -, -, more⟩ :=
    build_truthful_iff pending records [pair] {} _ built returned
  exact ⟨built, returned, repeated, spent, recorded, fun truthful =>
    repeated (truthful_iff.mp truthful).2, more repeated⟩

/-- A coin of 1000000 that is spent twice comes back as 2000000 with the fee; where nothing is
spent, a fee of 120000 is reported and nobody pays it. -/
theorem build_invents_value :
    let pair : KeyPair secp256k1 := ⟨⟨1, by decide, by decide⟩⟩
    let coin : Unspent := ⟨⟨List.replicate 64 1, List.length_replicate⟩, .payment, 0, 1000000,
      .ofPublicKey pair.publicKey⟩
    let pending : Transaction := {
      inputs := [coin, coin].map fun entry => { utxo := entry.utxo }
      outputs := [⟨.payment, 500000, ⟨.key, [2]⟩⟩] }
    (∃ built, build pending [coin] [pair] {} (fun _ => []) = .ok built ∧
      built.tx.inputs.map Input.utxo = [coin.utxo, coin.utxo] ∧
      worthOnce [coin, coin] = 1000000 ∧
      Amount.total (built.tx.outputs.map Output.value) + built.fee.toNat = 2000000) ∧
    ∃ built, build ⟨[], [], [], 0⟩ [coin] [pair] {} (fun _ => []) = .ok built ∧
      built.tx.inputs = [] ∧ built.tx.outputs = [] ∧ built.fee = 120000 := by
  intro pair coin pending
  constructor
  · have first : FirstRecord [coin] { utxo := coin.utxo } coin :=
      ⟨[], [], rfl, rfl, List.forall_mem_nil _⟩
    have approved : Approved pending [coin] [pair] {} [coin, coin] _ 120015 :=
      approved_of_owner pair (.cons first (.cons first .nil)) (by simp [coin]) (by simp [coin])
        (by decide +kernel) (by decide +kernel)
    obtain ⟨proven, signed, returned⟩ := approved.builds fun _ => []
    refine ⟨_, returned, approved.keys_eq signed, by decide +kernel, ?_⟩
    exact (approved.total signed (List.cons_ne_nil _ _)).symm.trans (by decide +kernel)
  · have approved : Approved ⟨[], [], [], 0⟩ [coin] [pair] {} [] _ 120000 :=
      approved_of_owner pair .nil (List.forall_mem_nil _) (List.forall_mem_nil _)
        (by decide +kernel) (List.forall_mem_nil _)
    obtain ⟨proven, signed, returned⟩ := approved.builds fun _ => []
    refine ⟨_, returned, ?_, outputs_of_signed signed, rfl⟩
    exact List.map_eq_nil_iff.mp (approved.keys_eq signed)

end UtxoLedger.Cancellation
