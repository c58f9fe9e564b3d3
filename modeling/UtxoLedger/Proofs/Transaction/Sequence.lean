import UtxoLedger.Transaction.Signing

/-!
# Inputs verified one after the other

The locks of a transaction are tried in the order of its inputs, and the first one that does not
open decides. The result is then what verifying this input alone gives, an error included.
-/
namespace UtxoLedger

/-- The first verdict that is not true decides, and without one the verdict is true. -/
def FirstRefusal {ε : Type} (verdicts : List (Except ε Bool)) (verdict : Except ε Bool) : Prop :=
  (verdict = .ok true ∧ ∀ each ∈ verdicts, each = Except.ok true) ∨
    (verdict ≠ .ok true ∧ ∃ place : Nat, verdicts[place]? = some verdict ∧
      ∀ earlier < place, verdicts[earlier]? = some (Except.ok true))

section FirstRefusal

variable {ε : Type} {first verdict : Except ε Bool} {verdicts : List (Except ε Bool)}

theorem firstRefusal_nil_iff :
    FirstRefusal ([] : List (Except ε Bool)) verdict ↔ verdict = .ok true := by
  simp [FirstRefusal]

/-- An input that verifies is passed over. -/
theorem firstRefusal_cons_true_iff :
    FirstRefusal (.ok true :: verdicts) verdict ↔ FirstRefusal verdicts verdict := by
  refine or_congr (and_congr_right fun _ => ?_) (and_congr_right fun refused => ?_)
  · rw [List.forall_mem_cons]
    exact and_iff_right rfl
  constructor
  · rintro ⟨place, found, passed⟩
    cases place with
    | zero => exact absurd (Option.some.inj found).symm refused
    | succ place => exact ⟨place, found, fun earlier before => passed _ (Nat.succ_lt_succ before)⟩
  · rintro ⟨place, found, passed⟩
    refine ⟨place + 1, found, fun earlier before => ?_⟩
    cases earlier with
    | zero => rfl
    | succ earlier => exact passed earlier (Nat.lt_of_succ_lt_succ before)

theorem firstRefusal_cons_iff (refused : first ≠ .ok true) :
    FirstRefusal (first :: verdicts) verdict ↔ first = verdict := by
  constructor
  · rintro (⟨-, all⟩ | ⟨-, place, found, passed⟩)
    · exact absurd (all first List.mem_cons_self) refused
    · cases place with
      | zero => exact Option.some.inj found
      | succ place => exact absurd (Option.some.inj (passed 0 place.succ_pos)) refused
  · rintro rfl
    exact .inr ⟨refused, 0, rfl, fun _ before => absurd before (Nat.not_lt_zero _)⟩

end FirstRefusal

namespace Transaction

variable {S : SignatureScheme}

private theorem verifyEach_iff {digest : Digest} {pairs : List (Input × Lock)}
    {verdict : Except TransactionError Bool} :
    (verifyEach S digest pairs).mapError .key = verdict ↔
      FirstRefusal (pairs.map fun pair =>
        (pair.2.verify S pair.1.unlock digest).mapError .key) verdict := by
  induction pairs with
  | nil => exact eq_comm.trans firstRefusal_nil_iff.symm
  | cons pair rest ih =>
    obtain ⟨input, lock⟩ := pair
    -- An error and a refusal both end the search; only a lock that opens leaves it to the rest.
    rw [verifyEach, List.map_cons]
    dsimp only
    cases lock.verify S input.unlock digest with
    | error error =>
      have refused : (.error (.key error) : Except TransactionError Bool) ≠ .ok true := nofun
      exact (firstRefusal_cons_iff refused).symm
    | ok opens =>
      cases opens with
      | false =>
        have refused : (.ok false : Except TransactionError Bool) ≠ .ok true := nofun
        exact (firstRefusal_cons_iff refused).symm
      | true => exact ih.trans firstRefusal_cons_true_iff.symm

/-- What verifying each input alone gives, with the lock in its place. -/
def eachVerdict (S : SignatureScheme) (tx : Transaction) (locks : List Lock) :
    List (Except TransactionError Bool) :=
  locks.mapIdx (tx.verifyInput S)

theorem verifySignatures_iff {tx : Transaction} {locks : List Lock}
    (count : locks.length = tx.inputs.length) {verdict : Except TransactionError Bool} :
    tx.verifySignatures S locks = verdict ↔ FirstRefusal (tx.eachVerdict S locks) verdict := by
  have same : ((tx.inputs.zip locks).map fun pair =>
      (pair.2.verify S pair.1.unlock tx.digest).mapError .key) = tx.eachVerdict S locks := by
    refine List.ext_getElem (by simp [eachVerdict, count]) fun place inside _ => ?_
    have bound : place < tx.inputs.length := by simpa [count] using inside
    simp [eachVerdict, verifyInput, bound]
  rw [verifySignatures, if_neg (not_not_intro count), verifyEach_iff, same]

theorem verifySignatures_mismatch_iff {tx : Transaction} {locks : List Lock}
    {expected actual : Nat} :
    tx.verifySignatures S locks = .error (.lockCountMismatch expected actual) ↔
      locks.length ≠ tx.inputs.length ∧ expected = tx.inputs.length ∧ actual = locks.length := by
  unfold verifySignatures
  split
  next differ => simp [differ, eq_comm]
  next same =>
    constructor
    · cases verifyEach S tx.digest (tx.inputs.zip locks) <;> nofun
    · exact fun ⟨differ, _⟩ => absurd differ same

end Transaction

end UtxoLedger
