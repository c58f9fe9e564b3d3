import UtxoLedger.Proofs.Transaction.Commitment

/-!
# What the parts of a transaction contribute

A record contributes fields of fixed widths, and behind them at most one part of any length, the
bytes of its lock. Such a contribution can be cut at its fields from the front, so it is the
contribution of one record only. An input is the exception by intent: its unlock is left out.
-/
namespace UtxoLedger

/-- Records that contribute equally many bytes, and no two of them the same. -/
structure FixedWidth (α : Type) [Contributes α] (width : Nat) : Prop where
  length : ∀ record : α, (contribution record).length = width
  inj : ∀ {left right : α}, contribution left = contribution right → left = right

/-- A field of fixed width can be cut off in front of anything. -/
theorem FixedWidth.append_iff {α : Type} [Contributes α] {width : Nat} (fixed : FixedWidth α width)
    {left right : α} {leftRest rightRest : Bytes} :
    contribution left ++ leftRest = contribution right ++ rightRest ↔
      left = right ∧ leftRest = rightRest := by
  constructor
  · intro equal
    obtain ⟨field, rest⟩ := List.append_inj equal
      ((fixed.length left).trans (fixed.length right).symm)
    exact ⟨fixed.inj field, rest⟩
  · rintro ⟨rfl, rfl⟩
    rfl

theorem fixedWidth_digest : FixedWidth Digest 64 where
  length digest := digest.length_eq
  inj := contribution_digest_inj

theorem fixedWidth_word32 : FixedWidth UInt32 4 where
  length := contribution_word32_length
  inj := contribution_word32_inj

theorem fixedWidth_word64 : FixedWidth UInt64 8 where
  length := contribution_word64_length
  inj := contribution_word64_inj

theorem fixedWidth_kind : FixedWidth OutputType 4 where
  length kind := contribution_word32_length kind.code
  inj := contribution_kind_inj

theorem Lock.contribution_iff {left right : Lock} :
    contribution left = contribution right ↔ left = right :=
  ⟨Lock.contribution_inj, congrArg _⟩

theorem Unspent.contribution_iff {left right : Unspent} :
    contribution left = contribution right ↔ left = right := by
  -- Grouped from the back, so that the fields come off one by one in front of the lock.
  have fields (entry : Unspent) : contribution entry = contribution entry.utxo ++
      (contribution entry.kind ++ (contribution entry.unlockHeight ++
        (contribution entry.amount ++ contribution entry.lock))) := by
    simp only [← List.append_assoc]
    rfl
  rw [fields, fields, fixedWidth_digest.append_iff, fixedWidth_kind.append_iff,
    fixedWidth_word64.append_iff, fixedWidth_word64.append_iff, Lock.contribution_iff]
  cases left
  cases right
  rw [Unspent.mk.injEq]

/-- No two locks, outputs or unspent outputs contribute the same bytes, nor do two digests with
their indices to the key of an output. Of an input all but the unlock is told by its bytes. -/
theorem contributions_unambiguous :
    (∀ left right : Lock, contribution left = contribution right ↔ left = right) ∧
    (∀ left right : Output, contribution left = contribution right ↔ left = right) ∧
    (∀ left right : Unspent, contribution left = contribution right ↔ left = right) ∧
    (∀ (transaction : Digest) (index : UInt64), transaction.utxoKey index =
      .ofMessage (contribution transaction ++ contribution index)) ∧
    (∀ left right : Digest × UInt64, contribution left.1 ++ contribution left.2 =
      contribution right.1 ++ contribution right.2 ↔ left = right) ∧
    (∀ left right : Input, contribution left = contribution right ↔
      left.utxo = right.utxo ∧ left.unlockAge = right.unlockAge) ∧
    ∀ (input : Input) (unlock : Unlock),
      contribution { input with unlock } = contribution input := by
  refine ⟨fun _ _ => Lock.contribution_iff, fun _ _ => ⟨Output.contribution_inj, congrArg _⟩,
    fun _ _ => Unspent.contribution_iff, fun _ _ => rfl, fun left right => ?_, fun left right => ?_,
    fun _ _ => rfl⟩
  · rw [fixedWidth_digest.append_iff, Prod.ext_iff]
    exact and_congr_right fun _ => ⟨fixedWidth_word64.inj, congrArg _⟩
  · constructor
    · intro equal
      obtain ⟨utxo, age⟩ := fixedWidth_digest.append_iff.mp equal
      exact ⟨utxo, fixedWidth_word32.inj age⟩
    · -- Equal but for the unlocks is equal without them.
      rintro ⟨utxo, age⟩
      rw [← Input.contribution_bare left, ← Input.contribution_bare right, Input.bare, Input.bare,
        utxo, age]

end UtxoLedger
