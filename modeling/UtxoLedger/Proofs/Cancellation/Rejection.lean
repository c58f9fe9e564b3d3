import UtxoLedger.Proofs.Cancellation.Pricing
import UtxoLedger.Proofs.Fee.Exact

/-!
# Why a cancellation is rejected

Each rejection has a condition of its own on the pending transaction, the records, the key pairs
and the policy. Several conditions can hold at once, at different inputs. What is reported is
the first one in the order of the checks, and where none holds there is a cancellation.
-/
namespace UtxoLedger

namespace Rejection

/-- The rejections in the order of the checks. -/
def order : List Rejection :=
  [.unsupportedUnfreezing, .notFoundUtxo, .unsupportedLockType, .notFoundKey, .notEnoughFee]

def earlier (rejection : Rejection) : List Rejection :=
  order.takeWhile (· ≠ rejection)

theorem earlier_total (left right : Rejection) :
    left ∈ right.earlier ∨ left = right ∨ right ∈ left.earlier := by
  cases left <;> cases right <;> decide

end Rejection

namespace Cancellation

variable {S : SignatureScheme}

/-- Some input spends a record with the property. -/
def Spends (pending : Transaction) (records : List Unspent) (property : Unspent → Prop) : Prop :=
  ∃ input ∈ pending.inputs, ∃ entry, FirstRecord records input entry ∧ property entry

def exactFee (policy : FeePolicy) (pending : Transaction) : Nat :=
  policy.exactRaised pending.size * pending.sizeWithoutPayload

def FeeOverflows (policy : FeePolicy) (pending : Transaction) : Prop :=
  policy.RateOverflows pending.size ∨ UInt64.size ≤ exactFee policy pending

/-- What a rejection says of the pending transaction. -/
def Obstacle (pending : Transaction) (records : List Unspent) (keys : List (KeyPair S))
    (policy : FeePolicy) : Rejection → Prop
  | .unsupportedUnfreezing => Spends pending records fun entry => entry.kind = .freeze
  | .notFoundUtxo => ∃ input ∈ pending.inputs, ∀ entry ∈ records, entry.utxo ≠ input.utxo
  | .unsupportedLockType => Spends pending records fun entry => entry.lock.kind ≠ .key
  | .notFoundKey => Spends pending records fun entry =>
      ∀ pair ∈ keys, pair.publicBytes ≠ entry.lock.bytes
  | .notEnoughFee => FeeOverflows policy pending ∨
      ∃ place input entry, pending.inputs[place]? = some input ∧
        FirstRecord records input entry ∧
        entry.amount.toNat ≤ charge (exactFee policy pending) pending.inputs.length place

/-- Nothing that is checked earlier stands in the way. -/
structure FirstObstacle (pending : Transaction) (records : List Unspent) (keys : List (KeyPair S))
    (policy : FeePolicy) (rejection : Rejection) : Prop where
  stands : Obstacle pending records keys policy rejection
  passed : ∀ earlier ∈ rejection.earlier, ¬Obstacle pending records keys policy earlier

section Checks

variable {pending : Transaction} {records spent : List Unspent} {keys : List (KeyPair S)}
  {policy : FeePolicy}

private theorem frozen_check :
    ((pending.inputs.map (record? records)).any fun entry? =>
      entry?.any fun entry => entry.kind = .freeze) = true ↔
        Obstacle pending records keys policy .unsupportedUnfreezing := by
  simp only [Obstacle, Spends, List.any_map, List.any_eq_true, Function.comp, Option.any_eq_true,
    record?_eq_some_iff, decide_eq_true_eq]

private theorem record_check :
    (pending.inputs.map (record? records)).mapM id = none ↔
      Obstacle pending records keys policy .notFoundUtxo := by
  rw [List.mapM_map, mapM_none_iff]
  simp [Obstacle, record?]

/-- Once every input has its record, the records are those that the inputs spend. -/
private theorem spends_iff (recorded : List.Forall₂ (FirstRecord records) pending.inputs spent)
    {property : Unspent → Prop} :
    Spends pending records property ↔ ∃ entry ∈ spent, property entry := by
  simp only [Spends, mem_spent_iff recorded]
  constructor
  · rintro ⟨input, spending, entry, first, holds⟩
    exact ⟨entry, ⟨input, spending, first⟩, holds⟩
  · rintro ⟨entry, ⟨input, spending, first⟩, holds⟩
    exact ⟨input, spending, entry, first, holds⟩

private theorem lock_check (recorded : List.Forall₂ (FirstRecord records) pending.inputs spent) :
    (spent.any fun entry => !entry.lock.isSingleKey) = true ↔
      Obstacle pending records keys policy .unsupportedLockType := by
  rw [Obstacle, spends_iff recorded]
  simp [Lock.isSingleKey]

private theorem key_check (recorded : List.Forall₂ (FirstRecord records) pending.inputs spent) :
    spent.mapM (signer? keys) = none ↔ Obstacle pending records keys policy .notFoundKey := by
  rw [Obstacle, spends_iff recorded, mapM_none_iff]
  simp [signer?]

theorem totalFee_exact_iff {fee : Amount} :
    totalFee policy pending = .ok fee ↔
      ¬FeeOverflows policy pending ∧ fee.toNat = exactFee policy pending := by
  have bound := fee.toNat_lt_size
  simp only [totalFee_ok_iff, FeePolicy.cancelFeeRate_exact_iff, FeeOverflows, not_or, Nat.not_le]
  constructor
  · rintro ⟨raised, ⟨fits, exact⟩, product⟩
    rw [exact] at product
    rw [product] at bound
    exact ⟨⟨fits, bound⟩, product⟩
  · rintro ⟨⟨fits, total⟩, product⟩
    have some : 0 < pending.sizeWithoutPayload := estimatedSize_pos _ _ _
    -- A rate is not above its product with the size.
    have exact := UInt64.toNat_ofNat_of_lt'
      (Nat.lt_of_le_of_lt (Nat.le_mul_of_pos_right _ some) total)
    refine ⟨_, ⟨fits, exact⟩, ?_⟩
    rw [product, exact]
    rfl

theorem feeOverflows_of_error {error : AmountError}
    (refused : totalFee policy pending = .error error) : FeeOverflows policy pending := by
  by_contra fits
  have exact := UInt64.toNat_ofNat_of_lt' (Nat.not_le.mp (not_or.mp fits).2)
  rw [totalFee_exact_iff.mpr ⟨fits, exact⟩] at refused
  cases refused

private theorem charge_check {fee : Amount}
    (recorded : List.Forall₂ (FirstRecord records) pending.inputs spent)
    (priced : totalFee policy pending = .ok fee) :
    ((spent.zip (charges fee spent.length)).any fun (entry, charge) => entry.amount ≤ charge) =
        true ↔
      Obstacle pending records keys policy .notEnoughFee := by
  obtain ⟨fits, exact⟩ := totalFee_exact_iff.mp priced
  have count := recorded.length_eq
  -- Each charge is the exact one of its place.
  have charged (place : Nat) (taken : Amount) :
      (charges fee spent.length)[place]? = some taken → place < spent.length →
        taken.toNat = charge (exactFee policy pending) pending.inputs.length place := by
    intro found inside
    rw [← charges_length fee spent.length] at inside
    rw [List.getElem?_eq_getElem inside] at found
    cases found
    rw [charges_getElem fee inside, exact, count]
  simp only [Obstacle, fits, false_or, List.any_eq_true, decide_eq_true_eq]
  constructor
  · rintro ⟨⟨entry, taken⟩, member, enough⟩
    obtain ⟨place, found⟩ := List.mem_iff_getElem?.mp member
    obtain ⟨entryFound, takenFound⟩ := List.getElem?_zip_eq_some.mp found
    obtain ⟨input, spending, first⟩ := (getElem?_spent_iff recorded).mp entryFound
    have inside := (List.getElem?_eq_some_iff.mp entryFound).1
    refine ⟨place, input, entry, spending, first, ?_⟩
    rw [← charged place taken takenFound inside]
    exact UInt64.le_iff_toNat_le.mp enough
  · rintro ⟨place, input, entry, spending, first, enough⟩
    have entryFound := (getElem?_spent_iff recorded).mpr ⟨input, spending, first⟩
    have inside := (List.getElem?_eq_some_iff.mp entryFound).1
    have takenFound := List.getElem?_eq_getElem ((charges_length fee spent.length).symm ▸ inside)
    refine ⟨(entry, _), List.mem_of_getElem? (List.getElem?_zip_eq_some.mpr
      ⟨entryFound, takenFound⟩), ?_⟩
    rw [UInt64.le_iff_toNat_le, charged place _ takenFound inside]
    exact enough

end Checks

/-- What the end of the checks says of all of them. -/
def Explained (pending : Transaction) (records : List Unspent) (keys : List (KeyPair S))
    (policy : FeePolicy) : Except Rejection Cancellation → Prop
  | .error rejection => FirstObstacle pending records keys policy rejection
  | .ok _ => ∀ rejection, ¬Obstacle pending records keys policy rejection

theorem build_explained (pending : Transaction) (records : List Unspent)
    (keys : List (KeyPair S)) (policy : FeePolicy) (entropy : Entropy) :
    Explained pending records keys policy (build pending records keys policy entropy) := by
  obtain ⟨result, returned⟩ : ∃ result, build pending records keys policy entropy = result :=
    ⟨_, rfl⟩
  rw [returned]
  unfold build at returned
  dsimp only at returned
  -- The checks in their order, each with those that were passed before it.
  split at returned
  next frozen =>
    cases returned
    exact ⟨frozen_check.mp frozen, List.forall_mem_nil _⟩
  next thawed =>
    have unfrozen : ¬Obstacle pending records keys policy .unsupportedUnfreezing :=
      mt frozen_check.mpr thawed
    split at returned
    next missing =>
      cases returned
      exact ⟨record_check.mp missing, by simp [Rejection.earlier, Rejection.order, unfrozen]⟩
    next spent found =>
      have recorded := found_iff.mp found
      have known : ¬Obstacle pending records keys policy .notFoundUtxo := by
        rw [← record_check, found]
        exact Option.some_ne_none _
      split at returned
      next locked =>
        cases returned
        refine ⟨(lock_check recorded).mp locked, ?_⟩
        simp [Rejection.earlier, Rejection.order, unfrozen, known]
      next unlocked =>
        have single : ¬Obstacle pending records keys policy .unsupportedLockType :=
          mt (lock_check recorded).mpr unlocked
        split at returned
        next foreign =>
          cases returned
          refine ⟨(key_check recorded).mp foreign, ?_⟩
          simp [Rejection.earlier, Rejection.order, unfrozen, known, single]
        next signers owned =>
          have ours : ¬Obstacle pending records keys policy .notFoundKey := by
            rw [← key_check recorded, owned]
            exact Option.some_ne_none _
          have passed : ∀ earlier ∈ Rejection.earlier .notEnoughFee,
              ¬Obstacle pending records keys policy earlier := by
            simp [Rejection.earlier, Rejection.order, unfrozen, known, single, ours]
          split at returned
          next error refused =>
            cases returned
            exact ⟨.inl (feeOverflows_of_error refused), passed⟩
          next fee priced =>
            split at returned
            next uncovered =>
              cases returned
              exact ⟨(charge_check recorded priced).mp uncovered, passed⟩
            next covered =>
              have enough : ¬Obstacle pending records keys policy .notEnoughFee :=
                mt (charge_check recorded priced).mpr covered
              obtain ⟨proven, signed, -⟩ :=
                (unsigned spent (charges fee spent.length)).signed_ok signers entropy
              rw [signed] at returned
              cases returned
              intro rejection
              cases rejection with
              | unsupportedUnfreezing => exact unfrozen
              | notFoundUtxo => exact known
              | unsupportedLockType => exact single
              | notFoundKey => exact ours
              | notEnoughFee => exact enough

theorem FirstObstacle.unique {pending : Transaction} {records : List Unspent}
    {keys : List (KeyPair S)} {policy : FeePolicy} {left right : Rejection}
    (first : FirstObstacle pending records keys policy left)
    (other : FirstObstacle pending records keys policy right) : left = right := by
  rcases Rejection.earlier_total left right with before | same | after
  · exact absurd first.stands (other.passed left before)
  · exact same
  · exact absurd other.stands (first.passed right after)

theorem Explained.error_iff {pending : Transaction} {records : List Unspent}
    {keys : List (KeyPair S)} {policy : FeePolicy} {result : Except Rejection Cancellation}
    (explained : Explained pending records keys policy result) {rejection : Rejection} :
    result = .error rejection ↔ FirstObstacle pending records keys policy rejection := by
  cases result with
  | ok built => exact ⟨nofun, fun first => absurd first.stands (explained rejection)⟩
  | error reported =>
    constructor
    · rintro ⟨⟩
      exact explained
    · intro first
      rw [explained.unique first]

/-- The first obstacle is what is reported, and without one there is a cancellation. A signature
that cannot be made is never reported. -/
theorem build_outcome (pending : Transaction) (records : List Unspent) (keys : List (KeyPair S))
    (policy : FeePolicy) (entropy : Entropy) :
    (∀ rejection, build pending records keys policy entropy = .error rejection ↔
      FirstObstacle pending records keys policy rejection) ∧
    ((∃ built, build pending records keys policy entropy = .ok built) ↔
      ∀ rejection, ¬Obstacle pending records keys policy rejection) := by
  have explained := build_explained pending records keys policy entropy
  cases returned : build pending records keys policy entropy with
  | ok built =>
    rw [returned] at explained
    refine ⟨fun rejection => ⟨nofun, fun first => ?_⟩, fun _ => explained, fun _ => ⟨built, rfl⟩⟩
    exact absurd first.stands (explained rejection)
  | error reported =>
    rw [returned] at explained
    refine ⟨fun rejection => ⟨?_, fun first => ?_⟩, nofun, fun clear => ?_⟩
    · rintro ⟨⟩
      exact explained
    · rw [explained.unique first]
    · exact absurd explained.stands (clear reported)

end Cancellation

end UtxoLedger
