import Mathlib.Algebra.Group.Nat.Defs
import UtxoLedger.Transaction.Basic

/-!
# What an identity commits to

Contributions write no lengths and no separators, so on their own they do not say where
one field ends and the next begins. They do say everything else: with the layout (the
number of inputs and the length of each output's lock) the contribution of a transaction
determines all of it but the unlocks.
-/
namespace UtxoLedger

theorem Bytes.littleEndian_inj {width left right : Nat} (leftFits : left < 256 ^ width)
    (rightFits : right < 256 ^ width) (equal : littleEndian width left = littleEndian width right) :
    left = right := by
  induction width generalizing left right with
  | zero => simp at leftFits rightFits; omega
  | succ width ih =>
    rw [Nat.pow_succ] at leftFits rightFits
    rw [littleEndian, littleEndian, List.cons.injEq] at equal
    have low : left % 256 = right % 256 := by
      have same := congrArg UInt8.toNat equal.1
      simp only [UInt8.toNat_ofNat'] at same
      omega
    have high : left / 256 = right / 256 :=
      ih (by omega) (by omega) equal.2
    omega

section Words

theorem contribution_word32_length (word : UInt32) : (contribution word).length = 4 :=
  Bytes.littleEndian_length 4 word.toNat

theorem contribution_word64_length (word : UInt64) : (contribution word).length = 8 :=
  Bytes.littleEndian_length 8 word.toNat

theorem contribution_word32_inj {left right : UInt32}
    (equal : contribution left = contribution right) : left = right :=
  UInt32.toNat_inj.mp (Bytes.littleEndian_inj left.toNat_lt right.toNat_lt equal)

theorem contribution_word64_inj {left right : UInt64}
    (equal : contribution left = contribution right) : left = right :=
  UInt64.toNat_inj.mp (Bytes.littleEndian_inj left.toNat_lt right.toNat_lt equal)

theorem contribution_digest_inj {left right : Digest}
    (equal : contribution left = contribution right) : left = right := by
  cases left
  cases right
  cases equal
  rfl

theorem OutputType.ofCode_code (kind : OutputType) : ofCode kind.code = .ok kind := by
  cases kind <;> rfl

theorem contribution_kind_inj {left right : OutputType}
    (equal : contribution left = contribution right) : left = right := by
  have same : left.code = right.code := contribution_word32_inj equal
  have read := left.ofCode_code
  rw [same, right.ofCode_code] at read
  exact (Except.ok.inj read).symm

theorem LockType.ofCode_code (kind : LockType) : ofCode kind.code = .ok kind := by
  cases kind <;> rfl

theorem LockType.code_inj {left right : LockType} (equal : left.code = right.code) :
    left = right := by
  have read := left.ofCode_code
  rw [equal, right.ofCode_code] at read
  exact (Except.ok.inj read).symm

end Words

theorem Lock.contribution_inj {left right : Lock} (equal : contribution left = contribution right) :
    left = right := by
  obtain ⟨kind, bytes⟩ := List.append_inj equal rfl
  rw [contribution_bytes, contribution_bytes] at bytes
  have code : left.kind.code = right.kind.code := (List.cons.inj kind).1
  cases left
  cases right
  rw [Lock.mk.injEq]
  exact ⟨LockType.code_inj code, bytes⟩

theorem Lock.contribution_length (lock : Lock) :
    (contribution lock).length = 1 + lock.bytes.length := by
  change (contribution lock.kind.code ++ contribution lock.bytes).length = _
  rw [List.length_append, contribution_bytes]
  rfl

theorem Output.contribution_inj {left right : Output}
    (equal : contribution left = contribution right) : left = right := by
  have widths : (contribution left.kind).length = (contribution right.kind).length := by
    rw [show (contribution left.kind).length = 4 from contribution_word32_length _]
    exact (contribution_word32_length _).symm
  -- Type and value have fixed widths, so only the lock at the end may vary in length.
  obtain ⟨front, lock⟩ := List.append_inj equal (by
    rw [List.length_append, List.length_append, widths, contribution_word64_length,
      contribution_word64_length])
  obtain ⟨kind, value⟩ := List.append_inj front widths
  cases left
  cases right
  rw [Output.mk.injEq]
  exact ⟨contribution_kind_inj kind, contribution_word64_inj value, Lock.contribution_inj lock⟩

theorem Output.contribution_length (output : Output) :
    (contribution output).length = 13 + output.lock.bytes.length := by
  change (contribution output.kind ++ contribution output.value ++
    contribution output.lock).length = _
  rw [List.length_append, List.length_append,
    show (contribution output.kind).length = 4 from contribution_word32_length _,
    contribution_word64_length, Lock.contribution_length]
  omega

namespace Input

/-- The input without its proof. -/
def bare (input : Input) : Input :=
  { input with unlock := {} }

theorem contribution_bare (input : Input) : contribution input.bare = contribution input := rfl

theorem contribution_length (input : Input) : (contribution input).length = 68 := by
  change (contribution input.utxo ++ contribution input.unlockAge).length = _
  rw [List.length_append, contribution_word32_length]
  exact congrArg (· + 4) input.utxo.length_eq

theorem contribution_inj {left right : Input} (equal : contribution left = contribution right) :
    left.bare = right.bare := by
  obtain ⟨utxo, age⟩ := List.append_inj equal
    (left.utxo.length_eq.trans right.utxo.length_eq.symm)
  have sameUtxo : left.utxo = right.utxo := contribution_digest_inj utxo
  have sameAge : left.unlockAge = right.unlockAge := contribution_word32_inj age
  rw [bare, bare, sameUtxo, sameAge]

end Input

/-- A sequence of records whose contributions have known lengths can be taken apart again. -/
private theorem records_inj {α β : Type} [Contributes α] (view : α → β)
    (distinct : ∀ {left right : α}, contribution left = contribution right → view left = view right)
    {left right : List α}
    (lengths : left.map (fun record => (contribution record).length) =
      right.map fun record => (contribution record).length)
    (equal : contribution left = contribution right) : left.map view = right.map view := by
  induction left generalizing right with
  | nil =>
    cases right with
    | nil => rfl
    | cons record rest => cases lengths
  | cons record rest ih =>
    cases right with
    | nil => cases lengths
    | cons other others =>
      rw [List.map_cons, List.map_cons, List.cons.injEq] at lengths
      have split : contribution record ++ contribution rest =
          contribution other ++ contribution others := equal
      obtain ⟨first, remaining⟩ := List.append_inj split lengths.1
      rw [List.map_cons, List.map_cons, distinct first, ih lengths.2 remaining]

namespace Transaction

/-- The transaction without its proofs. -/
def bare (tx : Transaction) : Transaction :=
  { tx with inputs := tx.inputs.map Input.bare }

/-- Where the fields begin: the number of inputs, and the length of every output's lock. -/
def layout (tx : Transaction) : Nat × List Nat :=
  (tx.inputs.length, tx.outputs.map fun output => output.lock.bytes.length)

theorem contribution_bare (tx : Transaction) : contribution tx.bare = contribution tx := by
  have inputs : contribution (tx.inputs.map Input.bare) = contribution tx.inputs := by
    change (tx.inputs.map Input.bare).flatMap contribution = tx.inputs.flatMap contribution
    rw [List.flatMap_map]
    rfl
  change contribution (tx.inputs.map Input.bare) ++ _ ++ _ ++ _ = _
  rw [inputs]
  rfl

theorem layout_bare (tx : Transaction) : tx.bare.layout = tx.layout := by
  rw [layout, bare, List.length_map]
  rfl

theorem digest_bare (tx : Transaction) : tx.bare.digest = tx.digest :=
  congrArg Digest.ofMessage tx.contribution_bare

variable {left right : Transaction}

theorem bare_eq_iff : left.bare = right.bare ↔
    left.inputs.map Input.bare = right.inputs.map Input.bare ∧ left.outputs = right.outputs ∧
    left.payload = right.payload ∧ left.lockHeight = right.lockHeight := by
  rw [bare, bare, Transaction.mk.injEq]

/-- What does not look at unlocks sees the same inputs. -/
theorem map_inputs_of_bare {α : Type} (view : Input → α)
    (blind : ∀ input, view input.bare = view input)
    (same : left.bare = right.bare) : left.inputs.map view = right.inputs.map view := by
  have inputs := congrArg (fun tx => tx.inputs.map view) same
  simpa [bare, Function.comp_def, blind] using inputs

/-- The lock height is the only field that ends where the contribution does. -/
private theorem lockHeight_of_contribution (equal : contribution left = contribution right) :
    left.lockHeight = right.lockHeight ∧
    contribution left.inputs ++ contribution left.outputs ++ contribution left.payload =
      contribution right.inputs ++ contribution right.outputs ++ contribution right.payload := by
  -- Cut from the back: the height has eight bytes and nothing after it.
  obtain ⟨front, height⟩ := List.append_inj' equal
    ((contribution_word64_length _).trans (contribution_word64_length _).symm)
  exact ⟨contribution_word64_inj height, front⟩

private theorem inputs_of_contribution {leftRest rightRest : Bytes}
    (count : left.inputs.length = right.inputs.length)
    (equal : contribution left.inputs ++ leftRest = contribution right.inputs ++ rightRest) :
    left.inputs.map Input.bare = right.inputs.map Input.bare ∧ leftRest = rightRest := by
  have lengths (inputs : List Input) : inputs.map (fun input => (contribution input).length) =
      List.replicate inputs.length 68 := by
    rw [List.eq_replicate_iff]
    refine ⟨List.length_map _, fun width member => ?_⟩
    obtain ⟨input, -, rfl⟩ := List.mem_map.mp member
    exact input.contribution_length
  have width (inputs : List Input) : (contribution inputs).length = inputs.length * 68 := by
    change (inputs.flatMap contribution).length = _
    rw [List.length_flatMap, lengths, List.sum_replicate_nat]
  -- Equal counts cut both sides at the same byte.
  obtain ⟨inputs, rest⟩ := List.append_inj equal (by rw [width, width, count])
  refine ⟨records_inj Input.bare Input.contribution_inj ?_ inputs, rest⟩
  rw [lengths, lengths, count]

private theorem outputs_of_contribution {leftRest rightRest : Bytes}
    (locks : left.outputs.map (fun output => output.lock.bytes.length) =
      right.outputs.map fun output => output.lock.bytes.length)
    (equal : contribution left.outputs ++ leftRest = contribution right.outputs ++ rightRest) :
    left.outputs = right.outputs ∧ leftRest = rightRest := by
  have lengths (outputs : List Output) :
      outputs.map (fun output => (contribution output).length) =
        (outputs.map fun output => output.lock.bytes.length).map (13 + ·) := by
    rw [List.map_map]
    exact List.map_congr_left fun output _ => output.contribution_length
  have width : (contribution left.outputs).length = (contribution right.outputs).length := by
    change (left.outputs.flatMap contribution).length = (right.outputs.flatMap contribution).length
    rw [List.length_flatMap, List.length_flatMap, lengths, lengths, locks]
  obtain ⟨outputs, rest⟩ := List.append_inj equal width
  have same := records_inj id Output.contribution_inj (by rw [lengths, lengths, locks]) outputs
  rw [List.map_id, List.map_id] at same
  exact ⟨same, rest⟩

/-- The layout is all that is missing from a contribution. Without it a contribution still fixes
the lock height, and the inputs as soon as their number is known. -/
theorem commits_given_layout (left right : Transaction) :
    (left.bare = right.bare ↔
      contribution left = contribution right ∧ left.layout = right.layout) ∧
    (contribution left = contribution right →
      left.lockHeight = right.lockHeight ∧
      (left.inputs.length = right.inputs.length →
        left.inputs.map Input.bare = right.inputs.map Input.bare)) := by
  refine ⟨⟨fun same => ?_, fun ⟨equal, sameLayout⟩ => ?_⟩, fun equal => ?_⟩
  · rw [← contribution_bare left, ← contribution_bare right, ← layout_bare left,
      ← layout_bare right, same]
    exact ⟨rfl, rfl⟩
  · obtain ⟨count, locks⟩ := Prod.mk.inj sameLayout
    obtain ⟨height, front⟩ := lockHeight_of_contribution equal
    rw [List.append_assoc, List.append_assoc] at front
    obtain ⟨inputs, rest⟩ := inputs_of_contribution count front
    obtain ⟨outputs, payload⟩ := outputs_of_contribution locks rest
    -- What is left when everything else is cut off is the payload.
    rw [contribution_bytes, contribution_bytes] at payload
    rw [bare, bare, inputs, outputs, payload, height]
  · obtain ⟨height, front⟩ := lockHeight_of_contribution equal
    rw [List.append_assoc, List.append_assoc] at front
    exact ⟨height, fun count => (inputs_of_contribution count front).1⟩

/-- An output can be moved into the payload: nothing in the contribution tells the two apart. -/
theorem contribution_ambiguous : ¬ ∀ left right : Transaction,
    contribution left = contribution right → left.bare = right.bare := by
  intro commits
  let kept : Output := ⟨.payment, 5000, ⟨.key, List.replicate 33 2⟩⟩
  let moved : Output := ⟨.payment, 7000, ⟨.key, List.replicate 33 3⟩⟩
  have same := commits
    { inputs := [{ utxo := .null }], outputs := [kept, moved] }
    { inputs := [{ utxo := .null }], outputs := [kept], payload := contribution moved }
    (by decide +kernel)
  exact absurd (congrArg (fun tx => tx.outputs.length) same) (by decide)

end Transaction

end UtxoLedger
