import Mathlib.Data.List.Nodup
import UtxoLedger.Proofs.Cancellation.Repetition

/-!
# Cancellations and the order of lists

Records and key pairs are only ever looked up, by key and by public key. Where no key is recorded
twice it does not matter in which order the records come or what else is recorded, and it never
matters in which order or how often the key pairs are given. All that another listing can change
are the unlocks, which are random anyway.
-/
namespace UtxoLedger.Cancellation

variable {S : SignatureScheme}

/-- The same rejection, or two cancellations that differ in nothing but their unlocks. -/
inductive Alike : Except Rejection Cancellation → Except Rejection Cancellation → Prop
  | rejected (rejection : Rejection) : Alike (.error rejection) (.error rejection)
  | built {left right : Cancellation} (fee : left.fee = right.fee)
      (feePerOutput : left.feePerOutput = right.feePerOutput)
      (bare : left.tx.bare = right.tx.bare) (digest : left.tx.digest = right.tx.digest) :
      Alike (.ok left) (.ok right)

section Lookup

variable {records relisted unrelated : List Unspent} {input : Input} {entry : Unspent}

/-- At most one record has the key of the input. -/
def RecordedOnce (records : List Unspent) (input : Input) : Prop :=
  ∀ entry ∈ records, ∀ other ∈ records,
    entry.utxo = input.utxo → other.utxo = input.utxo → other = entry

theorem firstRecord_iff_of_once (once : RecordedOnce records input) :
    FirstRecord records input entry ↔ entry ∈ records ∧ entry.utxo = input.utxo := by
  constructor
  · exact fun first => ⟨first.member, first.key⟩
  · rintro ⟨member, key⟩
    have some : (record? records input).isSome = true :=
      List.find?_isSome.mpr ⟨entry, member, decide_eq_true key⟩
    obtain ⟨other, found⟩ := Option.isSome_iff_exists.mp some
    have first := record?_eq_some_iff.mp found
    rwa [once entry member other first.member key first.key] at first

/-- Where no key is recorded twice, a record is found wherever it stands, and whatever is recorded
under other keys. -/
theorem record?_relisted (distinct : (records.map Unspent.utxo).Nodup)
    (reordered : relisted.Perm (records ++ unrelated))
    (apart : ∀ entry ∈ unrelated, entry.utxo ≠ input.utxo) :
    record? relisted input = record? records input := by
  have listed_iff {entry : Unspent} (key : entry.utxo = input.utxo) :
      entry ∈ relisted ↔ entry ∈ records := by
    rw [reordered.mem_iff, List.mem_append]
    exact or_iff_left fun new => apart entry new key
  have once : RecordedOnce records input :=
    fun entry member other alike key same =>
      List.inj_on_of_nodup_map distinct alike member (same.trans key.symm)
  have onceRelisted : RecordedOnce relisted input :=
    fun entry member other alike key same =>
      once entry ((listed_iff key).mp member) other ((listed_iff same).mp alike) key same
  ext entry
  rw [record?_eq_some_iff, record?_eq_some_iff, firstRecord_iff_of_once once,
    firstRecord_iff_of_once onceRelisted]
  exact and_congr_left listed_iff

theorem record?_eq_none_iff :
    record? records input = none ↔ ∀ entry ∈ records, entry.utxo ≠ input.utxo := by
  simp [record?]

end Lookup

theorem FirstObstacle.congr {pending : Transaction} {records relisted : List Unspent}
    {keys others : List (KeyPair S)} {policy : FeePolicy} {rejection : Rejection}
    (first : FirstObstacle pending records keys policy rejection)
    (same : ∀ rejection, Obstacle pending relisted others policy rejection ↔
      Obstacle pending records keys policy rejection) :
    FirstObstacle pending relisted others policy rejection where
  stands := (same rejection).mpr first.stands
  passed := fun earlier before => mt (same earlier).mp (first.passed earlier before)

section Relisted

variable {pending : Transaction} {records relisted : List Unspent}
  {keys others : List (KeyPair S)} {policy : FeePolicy}
  (sameRecords : ∀ input ∈ pending.inputs, record? relisted input = record? records input)
include sameRecords

private theorem firstRecord_relisted_iff {input : Input} (spending : input ∈ pending.inputs)
    {entry : Unspent} : FirstRecord relisted input entry ↔ FirstRecord records input entry := by
  rw [← record?_eq_some_iff, ← record?_eq_some_iff, sameRecords input spending]

private theorem spends_relisted_iff {left right : Unspent → Prop}
    (alike : ∀ entry, left entry ↔ right entry) :
    Spends pending relisted left ↔ Spends pending records right := by
  refine exists_congr fun input => and_congr_right fun spending => exists_congr fun entry => ?_
  rw [firstRecord_relisted_iff sameRecords spending, alike]

/-- What stands in the way is said of the records that are found and of the set of key pairs. -/
theorem obstacle_relisted_iff (sameKeys : ∀ pair, pair ∈ others ↔ pair ∈ keys)
    (rejection : Rejection) :
    Obstacle pending relisted others policy rejection ↔
      Obstacle pending records keys policy rejection := by
  cases rejection with
  | unsupportedUnfreezing => exact spends_relisted_iff sameRecords fun _ => Iff.rfl
  | notFoundUtxo =>
    refine exists_congr fun input => and_congr_right fun spending => ?_
    rw [← record?_eq_none_iff, ← record?_eq_none_iff, sameRecords input spending]
  | unsupportedLockType => exact spends_relisted_iff sameRecords fun _ => Iff.rfl
  | notFoundKey =>
    refine spends_relisted_iff sameRecords fun entry => forall_congr' fun pair => ?_
    rw [sameKeys]
  | notEnoughFee =>
    refine or_congr_right (exists_congr fun place => exists_congr fun input =>
      exists_congr fun entry => and_congr_right fun placed => ?_)
    rw [firstRecord_relisted_iff sameRecords (List.mem_of_getElem? placed)]

/-- Two cancellations of one transaction spend the same records, for the same fee. -/
theorem approved_relisted_unique {spent again : List Unspent} {signers cosigners : List (KeyPair S)}
    {fee price : Amount} (approved : Approved pending records keys policy spent signers fee)
    (relistedToo : Approved pending relisted others policy again cosigners price) :
    again = spent ∧ price = fee := by
  constructor
  · have found : again.map some = spent.map some := by
      rw [← map_record? relistedToo.recorded, ← map_record? approved.recorded]
      exact List.map_congr_left sameRecords
    exact List.map_injective_iff.mpr (fun _ _ => Option.some.inj) found
  · exact Except.ok.inj (relistedToo.priced.symm.trans approved.priced)

end Relisted

/-- What comes of a cancellation does not depend on the listing: neither on the order of the
records, nor on records that no input refers to, nor on the order and the repetition of key pairs.
The random bytes may be others as well. -/
theorem build_relisted (pending : Transaction) (policy : FeePolicy)
    {records relisted unrelated : List Unspent} {keys others : List (KeyPair S)}
    (entropy chance : Entropy)
    (distinct : (records.map Unspent.utxo).Nodup)
    (reordered : relisted.Perm (records ++ unrelated))
    (apart : ∀ entry ∈ unrelated, ∀ input ∈ pending.inputs, entry.utxo ≠ input.utxo)
    (sameKeys : ∀ pair, pair ∈ others ↔ pair ∈ keys) :
    Alike (build pending records keys policy entropy)
      (build pending relisted others policy chance) := by
  have sameRecords : ∀ input ∈ pending.inputs, record? relisted input = record? records input :=
    fun input spending => record?_relisted distinct reordered fun entry new =>
      apart entry new input spending
  have obstacle_iff : ∀ rejection, Obstacle pending relisted others policy rejection ↔
      Obstacle pending records keys policy rejection := obstacle_relisted_iff sameRecords sameKeys
  have explained := build_explained pending records keys policy entropy
  have explainedToo := build_explained pending relisted others policy chance
  cases returned : build pending records keys policy entropy with
  | error rejection =>
    have first := explained.error_iff.mp returned
    rw [explainedToo.error_iff.mpr (first.congr obstacle_iff)]
    exact .rejected rejection
  | ok built =>
    rw [returned] at explained
    cases returnedToo : build pending relisted others policy chance with
    | error rejection =>
      have first := explainedToo.error_iff.mp returnedToo
      exact absurd ((obstacle_iff rejection).mp first.stands) (explained rejection)
    | ok again =>
      obtain ⟨spent, signers, approved, signed, perOutput⟩ := build_ok_iff.mp returned
      obtain ⟨spentToo, cosigners, approvedToo, signedToo, perOutputToo⟩ :=
        build_ok_iff.mp returnedToo
      obtain ⟨rfl, fee⟩ := approved_relisted_unique sameRecords approved approvedToo
      rw [fee] at signedToo perOutputToo
      -- Both are signed from one unsigned transaction.
      refine .built fee.symm (perOutput.trans perOutputToo.symm) ?_ ?_
      · rw [Transaction.bare_of_signed signed, Transaction.bare_of_signed signedToo]
      · rw [Transaction.digest_of_signed signed, Transaction.digest_of_signed signedToo]

/-- The coins of two owners, found in another order and beside a coin that stays where it is, by key
pairs that are swapped and one of which is given twice. -/
theorem build_relisted_two_owners :
    let one : KeyPair secp256k1 := ⟨⟨1, by decide, by decide⟩⟩
    let two : KeyPair secp256k1 := ⟨⟨2, by decide, by decide⟩⟩
    let coin := fun (byte : UInt8) (owner : KeyPair secp256k1) =>
      (⟨⟨List.replicate 64 byte, List.length_replicate⟩, .payment, 0, 1000000,
        .ofPublicKey owner.publicKey⟩ : Unspent)
    let records := [coin 1 one, coin 2 two]
    let relisted := [coin 2 two, coin 3 one, coin 1 one]
    let pending : Transaction := {
      inputs := records.map fun entry => { utxo := entry.utxo }
      outputs := [⟨.payment, 1900000, ⟨.key, [2]⟩⟩] }
    (records.map Unspent.utxo).Nodup ∧ relisted.Perm (records ++ [coin 3 one]) ∧
    (∀ entry ∈ [coin 3 one], ∀ input ∈ pending.inputs, entry.utxo ≠ input.utxo) ∧
    (∀ pair, pair ∈ [two, one, two] ↔ pair ∈ [one, two]) ∧
    (∃ built, build pending records [one, two] {} (fun _ => []) = .ok built) ∧
    Alike (build pending records [one, two] {} fun _ => [])
      (build pending relisted [two, one, two] {} fun _ => [1]) := by
  intro one two coin records relisted pending
  have distinct : (records.map Unspent.utxo).Nodup := by decide
  have reordered : relisted.Perm (records ++ [coin 3 one]) :=
    List.perm_append_singleton (coin 1 one) [coin 2 two, coin 3 one]
  have apart : ∀ entry ∈ [coin 3 one], ∀ input ∈ pending.inputs, entry.utxo ≠ input.utxo := by
    decide
  have sameKeys : ∀ pair, pair ∈ [two, one, two] ↔ pair ∈ [one, two] := by
    simp [or_comm]
  have approved : Approved pending records [one, two] {} records [one, two] 120015 := {
    recorded := .cons ⟨[], _, rfl, rfl, List.forall_mem_nil _⟩
      (.cons ⟨[coin 1 one], [], rfl, rfl, by decide⟩ .nil)
    paid := by simp [records, coin]
    singleKey := by simp [records, coin, Lock.isSingleKey, Lock.ofPublicKey]
    owned := by
      refine .cons (List.find?_cons_of_pos (decide_eq_true rfl)) (.cons ?_ .nil)
      -- The first key pair is not the owner of the second coin.
      refine (List.find?_cons_of_neg ?_).trans (List.find?_cons_of_pos (decide_eq_true rfl))
      decide +kernel
    priced := by decide +kernel
    covered := by
      have charged : charges 120015 records.length = [60008, 60007] := by decide +kernel
      rw [charged]
      simp only [records, List.zip_cons_cons, List.zip_nil_right, List.forall_mem_cons]
      refine ⟨?_, ?_, List.forall_mem_nil _⟩ <;> decide }
  obtain ⟨built, returned, -⟩ := approved.build fun _ => []
  exact ⟨distinct, reordered, apart, sameKeys, ⟨built, returned⟩,
    build_relisted pending {} _ _ distinct reordered apart sameKeys⟩

end UtxoLedger.Cancellation
