import Mathlib.Data.Set.Card
import UtxoLedger.Command.Report
import UtxoLedger.Key.Secp256k1
import UtxoLedger.Proofs.Cancellation.Building
import UtxoLedger.Proofs.Script.Evaluation
import UtxoLedger.Proofs.Transaction.Sequence
import UtxoLedger.Proofs.Wire.Record
import UtxoLedger.Proofs.WorkingSet.Merging

/-!
# Three ways to verify a transaction

A transaction can be verified as a whole against given locks, input by input, and by the command
that looks up the locks in a file of records. The command evaluates on a bounded stack, counts the
inputs that hold and goes on after those that do not. It counts all inputs just where the whole
transaction verifies, as long as every input has a record and every unlock fits on the stack.
-/
namespace UtxoLedger

/-- A list holds an element in as many places as it counts it. -/
theorem count_eq_ncard {α : Type} [DecidableEq α] (element : α) (list : List α) :
    list.count element = {place : Nat | list[place]? = some element}.ncard := by
  induction list with
  | nil => simp
  | cons first rest ih =>
    -- All other places are those of the rest, one further on.
    have later : {place : Nat | (first :: rest)[place]? = some element} \ {0} =
        Nat.succ '' {place | rest[place]? = some element} := by
      ext place
      cases place <;> simp
    rw [List.count_cons, ih, ← Set.ncard_image_of_injective _ Nat.succ_injective, ← later]
    by_cases same : first = element
    · have finite : {place : Nat | (first :: rest)[place]? = some element}.Finite :=
        (Set.finite_lt_nat _).subset fun place found => (List.getElem?_eq_some_iff.mp found).1
      rw [if_pos (beq_iff_eq.mpr same)]
      exact Set.ncard_sdiff_singleton_add_one (congrArg some same) finite
    · have missing : 0 ∉ {place : Nat | (first :: rest)[place]? = some element} :=
        fun found => same (Option.some.inj found)
      rw [if_neg (mt beq_iff_eq.mp same), Nat.add_zero, Set.sdiff_singleton_eq_self missing]

namespace Transaction

variable {S : SignatureScheme} {tx : Transaction} {limits : StackLimits} {records : List Unspent}
  {place : Nat}

theorem evaluateInput_true_iff {lock : Lock} :
    tx.evaluateInput S place lock limits = .ok true ↔
      ∃ input, tx.inputs[place]? = some input ∧ limits.Admits input.unlock.bytes.length ∧
        tx.verifyInput S place lock = .ok true := by
  unfold evaluateInput verifyInput
  cases tx.inputs[place]? with
  | none => simp
  | some input => simp [Except.mapError_ok_iff, Lock.evaluate_true_iff]

/-- The input in a place has a record, and an unlock that fits and opens the lock of the first
one. -/
def Proves (S : SignatureScheme) (tx : Transaction) (limits : StackLimits)
    (records : List Unspent) (place : Nat) : Prop :=
  ∃ input entry, tx.inputs[place]? = some input ∧ Cancellation.FirstRecord records input entry ∧
    limits.Admits input.unlock.bytes.length ∧ tx.verifyInput S place entry.lock = .ok true

/-- Where every input has a record and every unlock fits, the records give the locks that decide. -/
theorem proves_iff {spent : List Unspent}
    (recorded : List.Forall₂ (Cancellation.FirstRecord records) tx.inputs spent)
    (fits : ∀ input ∈ tx.inputs, limits.Admits input.unlock.bytes.length) :
    tx.Proves S limits records place ↔
      (tx.eachVerdict S (spent.map Unspent.lock))[place]? = some (.ok true) := by
  rw [eachVerdict, List.getElem?_mapIdx, List.getElem?_map, Option.map_map,
    Option.map_eq_some_iff]
  simp only [Cancellation.getElem?_spent_iff recorded]
  constructor
  · rintro ⟨input, entry, found, first, -, verified⟩
    exact ⟨entry, ⟨input, found, first⟩, verified⟩
  · rintro ⟨entry, ⟨input, found, first⟩, verified⟩
    exact ⟨input, entry, found, first, fits input (List.mem_of_getElem? found), verified⟩

/-- All inputs are proved just where the whole transaction verifies. -/
theorem ncard_proves_iff {spent : List Unspent}
    (recorded : List.Forall₂ (Cancellation.FirstRecord records) tx.inputs spent)
    (fits : ∀ input ∈ tx.inputs, limits.Admits input.unlock.bytes.length) :
    {place | tx.Proves S limits records place}.ncard = tx.inputs.length ↔
      tx.verifySignatures S (spent.map Unspent.lock) = .ok true := by
  classical
  have count : (spent.map Unspent.lock).length = tx.inputs.length := by
    rw [List.length_map, recorded.length_eq]
  have verdicts : (tx.eachVerdict S (spent.map Unspent.lock)).length = tx.inputs.length := by
    rw [eachVerdict, List.length_mapIdx, count]
  -- Places that are proved are verdicts that are true, so all of them are counted or none differs.
  simp only [proves_iff recorded fits, ← count_eq_ncard]
  rw [← verdicts, List.count_eq_length, verifySignatures_iff count, FirstRefusal]
  simp [eq_comm]

end Transaction

namespace Command

variable {S : SignatureScheme} {tx : Transaction} {limits : StackLimits} {records : List Unspent}

theorem loadFile_of_written {α : Type} {decoder : Wire.Decoder α} {encode : α → Json.Document}
    (reads : Json.Reads decoder encode) {files : Files} {name : String} {value : α}
    {layout : Json.Layout} (written : files name = some ((encode value).write layout)) :
    loadFile files decoder name = .ok value := by
  rw [loadFile, written]
  dsimp only
  rw [reads.run layout value]
  rfl

theorem inputVerdict_valid_iff {place : Nat} {input : Input} :
    inputVerdict S limits tx (.ofList records) place input = .valid ↔
      ∃ entry, Cancellation.FirstRecord records input entry ∧
        tx.evaluateInput S place entry.lock limits = .ok true := by
  simp only [← Cancellation.record?_eq_some_iff]
  rw [inputVerdict, WorkingSet.find?_ofList, ← Cancellation.record?]
  cases Cancellation.record? records input with
  | none => simp
  | some entry =>
    dsimp only
    split <;> simp_all

theorem verdicts_valid_iff {place : Nat} :
    (verdicts S limits tx (.ofList records))[place]? = some .valid ↔
      tx.Proves S limits records place := by
  rw [verdicts, List.getElem?_mapIdx, Option.map_eq_some_iff]
  constructor
  · rintro ⟨input, found, valid⟩
    obtain ⟨entry, first, holds⟩ := inputVerdict_valid_iff.mp valid
    obtain ⟨_, same, fits, verified⟩ := Transaction.evaluateInput_true_iff.mp holds
    cases found.symm.trans same
    exact ⟨input, entry, found, first, fits, verified⟩
  · rintro ⟨input, entry, found, first, fits, verified⟩
    have holds := Transaction.evaluateInput_true_iff.mpr ⟨input, found, fits, verified⟩
    exact ⟨input, found, inputVerdict_valid_iff.mpr ⟨entry, first, holds⟩⟩

theorem reportVerify_result {config : Config} {files : Files} {txName recordsName : String}
    (loadedTx : loadFile files Wire.decodeTransaction txName = .ok tx)
    (loadedRecords : loadFile files Wire.decodeUnspentList recordsName = .ok records) :
    (reportVerify S config files txName recordsName).result =
      .ok {place | tx.Proves S config.stack records place}.ncard := by
  have counted : (reportVerify S config files txName recordsName).result =
      .ok ((verdicts S config.stack tx (.ofList records)).count .valid) := by
    rw [reportVerify, loadedTx, loadedRecords]
    rfl
  simp only [counted, count_eq_ncard, verdicts_valid_iff]

/-- Verifying a transaction as a whole, input by input and by the command that looks up its locks
comes to the same. Keys may repeat among the records; the first record with a key is the one that
counts. -/
theorem verification_agrees (S : SignatureScheme) (tx : Transaction) (records : List Unspent) :
    (∀ locks expected actual,
      tx.verifySignatures S locks = .error (.lockCountMismatch expected actual) ↔
        locks.length ≠ tx.inputs.length ∧ expected = tx.inputs.length ∧ actual = locks.length) ∧
    (∀ locks verdict, locks.length = tx.inputs.length →
      (tx.verifySignatures S locks = verdict ↔ FirstRefusal (tx.eachVerdict S locks) verdict)) ∧
    ∀ config files txName recordsName,
      loadFile files Wire.decodeTransaction txName = .ok tx →
      loadFile files Wire.decodeUnspentList recordsName = .ok records →
      (reportVerify S config files txName recordsName).result =
        .ok {place | tx.Proves S config.stack records place}.ncard ∧
      ∀ spent, List.Forall₂ (Cancellation.FirstRecord records) tx.inputs spent →
        (∀ input ∈ tx.inputs, config.stack.Admits input.unlock.bytes.length) →
        ((reportVerify S config files txName recordsName).result = .ok tx.inputs.length ↔
          tx.verifySignatures S (spent.map Unspent.lock) = .ok true) := by
  refine ⟨?_, ?_, ?_⟩
  · intro locks expected actual
    exact Transaction.verifySignatures_mismatch_iff
  · intro locks verdict count
    exact Transaction.verifySignatures_iff count
  · intro config files txName recordsName loadedTx loadedRecords
    have counted : (reportVerify S config files txName recordsName).result = _ :=
      reportVerify_result loadedTx loadedRecords
    refine ⟨counted, ?_⟩
    intro spent recorded fits
    rw [counted, Except.ok.injEq]
    exact Transaction.ncard_proves_iff recorded fits

/-- Two coins of one owner, who signs the same digest for either. The record of the second one is
missing from the shorter file. -/
theorem verification_agrees_two_coins :
    let alice : KeyPair secp256k1 := ⟨⟨3, by decide, by decide⟩⟩
    let signature : Curve.Signature := {
      r := 0xc6ef445c419402785fe3857b49a44a253f4ecb36d086d74783abda087d12a7f0
      s := 0x30c00571aac55e767103a945bd4cf93e13631dbd2d20f2bde1a9572d340d0d6f }
    let coin := fun byte : UInt8 => (⟨⟨List.replicate 64 byte, List.length_replicate⟩, .payment, 0,
      1000000, .ofPublicKey alice.publicKey⟩ : Unspent)
    let records := [coin 1, coin 2]
    let tx : Transaction := {
      inputs := records.map fun entry => { utxo := entry.utxo, unlock := ⟨signature.toBytes⟩ }
      outputs := [⟨.payment, 1900000, (coin 1).lock⟩] }
    let files : Files := fun name =>
      if name = "tx.json" then some ((Wire.encodeTransaction tx).write .indented)
      else if name = "utxos.json" then some ((Wire.encodeUnspentList records).write .indented)
      else some ((Wire.encodeUnspentList [coin 1]).write .compact)
    tx.verifySignatures secp256k1 [] = .error (.lockCountMismatch 2 0) ∧
    tx.verifySignatures secp256k1 (records.map Unspent.lock) = .ok true ∧
    (reportVerify secp256k1 {} files "tx.json" "utxos.json").result = .ok 2 ∧
    (reportVerify secp256k1 {} files "tx.json" "first.json").result = .ok 1 := by
  intro alice signature coin records tx files
  have loadedTx : loadFile files Wire.decodeTransaction "tx.json" = .ok tx :=
    loadFile_of_written Wire.reads_transaction (if_pos rfl)
  have loadedAll : loadFile files Wire.decodeUnspentList "utxos.json" = .ok records :=
    loadFile_of_written Wire.reads_unspentList ((if_neg (by decide)).trans (if_pos rfl))
  have loadedFirst : loadFile files Wire.decodeUnspentList "first.json" = .ok [coin 1] :=
    loadFile_of_written Wire.reads_unspentList
      ((if_neg (by decide)).trans (if_neg (by decide)))
  obtain ⟨mismatch, whole, counted⟩ := verification_agrees secp256k1 tx records
  obtain ⟨-, -, missed⟩ := verification_agrees secp256k1 tx [coin 1]
  -- Both coins have the same lock, so the signature is checked once.
  have opens : (coin 1).lock.verify secp256k1 ⟨signature.toBytes⟩ tx.digest = .ok true := by
    decide +kernel
  have first : tx.verifyInput secp256k1 0 (coin 1).lock = .ok true :=
    congrArg (Except.mapError TransactionError.key) opens
  have second : tx.verifyInput secp256k1 1 (coin 2).lock = .ok true :=
    congrArg (Except.mapError TransactionError.key) opens
  have verified : tx.verifySignatures secp256k1 (records.map Unspent.lock) = .ok true := by
    refine (whole _ _ rfl).mpr (.inl ⟨rfl, ?_⟩)
    change ∀ each ∈ [tx.verifyInput secp256k1 0 (coin 1).lock,
      tx.verifyInput secp256k1 1 (coin 2).lock], each = .ok true
    simp [first, second]
  have recorded : List.Forall₂ (Cancellation.FirstRecord records) tx.inputs records := by
    refine .cons ⟨[], _, rfl, rfl, ?_⟩ (.cons ⟨[coin 1], _, rfl, rfl, ?_⟩ .nil) <;> decide
  refine ⟨?_, verified, ?_, ?_⟩
  · exact (mismatch [] 2 0).mpr ⟨by decide, rfl, rfl⟩
  · obtain ⟨-, all⟩ := counted {} files _ _ loadedTx loadedAll
    exact (all records recorded (by decide)).mpr verified
  · obtain ⟨found, -⟩ := missed {} files _ _ loadedTx loadedFirst
    have only : {place | tx.Proves secp256k1 {} [coin 1] place} = {0} := by
      ext place
      constructor
      · rintro ⟨input, entry, found, recorded, -, -⟩
        match place with
        | 0 => rfl
        | 1 =>
          cases found
          have missing : Cancellation.record? [coin 1] { utxo := (coin 2).utxo } = none := by decide
          cases missing.symm.trans (Cancellation.record?_eq_some_iff.mpr recorded)
        | _ + 2 => cases found
      · rintro rfl
        exact ⟨_, coin 1, rfl, ⟨[], [], rfl, rfl, nofun⟩, by decide, first⟩
    rw [found, only, Set.ncard_singleton]

end Command

end UtxoLedger
