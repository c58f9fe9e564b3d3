import UtxoLedger.Proofs.Amount.Exact
import UtxoLedger.Script.Lock

/-!
# Bounded evaluation of an unlock

An unlock is evaluated on a stack of its own, so all that is asked of its length is that one item
of it fits. If it does, the evaluation holds exactly where verification does. What verification
reports as an error is then a refusal.
-/
namespace UtxoLedger

/-- An item of this length fits on an empty stack. -/
def StackLimits.Admits (limits : StackLimits) (length : Nat) : Prop :=
  length ≤ limits.maxItem.toNat ∧ length ≤ limits.maxTotal.toNat

instance (limits : StackLimits) (length : Nat) : Decidable (limits.Admits length) :=
  inferInstanceAs (Decidable (_ ∧ _))

theorem Stack.canPush_empty_iff {limits : StackLimits} {item : Bytes} :
    (empty limits).canPush item = true ↔ limits.Admits item.length := by
  simp [canPush, empty, StackLimits.Admits]

namespace Lock

variable {S : SignatureScheme} {lock : Lock} {unlock : Unlock} {digest : Digest}
  {limits : StackLimits}

theorem evaluate_of_overflow (large : ¬limits.Admits unlock.bytes.length) :
    lock.evaluate S unlock digest limits =
      .error (.stackOverflow unlock.bytes.length 0 limits.maxTotal limits.maxItem) := by
  rw [evaluate, Stack.push, if_neg (mt Stack.canPush_empty_iff.mp large)]
  rfl

/-- What cannot be read is refused. -/
theorem evaluate_of_admits (fits : limits.Admits unlock.bytes.length) :
    lock.evaluate S unlock digest limits =
      .ok ((lock.verify S unlock digest).toOption.getD false) := by
  rw [evaluate, Stack.push, if_pos (Stack.canPush_empty_iff.mpr fits)]
  by_cases single : lock.isSingleKey = true
  · refine (if_pos single).trans ?_
    -- The stack gives back the unlock that was put on it.
    refine Except.bind_ok_iff.mpr ⟨(unlock.bytes, _), rfl, ?_⟩
    cases read : S.readPublicKey lock.bytes with
    | error error =>
      rw [verify, if_pos single, read]
      rfl
    | ok key =>
      rw [verify_of_key single read]
      dsimp only
      cases S.verify key digest.bytes unlock.bytes <;> rfl
  · rw [verify, if_neg single]
    exact if_neg single

theorem evaluate_true_iff : lock.evaluate S unlock digest limits = .ok true ↔
    limits.Admits unlock.bytes.length ∧ lock.verify S unlock digest = .ok true := by
  by_cases fits : limits.Admits unlock.bytes.length
  · rw [evaluate_of_admits fits]
    cases lock.verify S unlock digest with
    | error error => simp [Except.toOption]
    | ok verdict => simp [Except.toOption, fits]
  · rw [evaluate_of_overflow fits]
    exact ⟨nofun, fun ⟨inside, _⟩ => absurd inside fits⟩

/-- What evaluation makes of the outcome of verification. -/
theorem refused_unless_verified {verified : Except KeyError Bool} {verdict : Bool} :
    verified.toOption.getD false = verdict ↔ (verdict = true ↔ verified = .ok true) := by
  cases verified with
  | error error => cases verdict <;> simp [Except.toOption]
  | ok opens => cases opens <;> cases verdict <;> simp [Except.toOption]

/-- Bounded evaluation against verification. It fails exactly where the unlock is longer than a
limit, whatever the lock, and the overflow is then that of an empty stack; otherwise it holds
exactly where verification does. So a key or a signature that verification cannot read is a refusal
here, and there is always something to take from the stack. -/
theorem evaluate_refines_verify (S : SignatureScheme) (lock : Lock) (unlock : Unlock)
    (digest : Digest) (limits : StackLimits) :
    (∀ error, lock.evaluate S unlock digest limits = .error error ↔
      (limits.maxItem.toNat < unlock.bytes.length ∨
        limits.maxTotal.toNat < unlock.bytes.length) ∧
      error = .stackOverflow unlock.bytes.length 0 limits.maxTotal limits.maxItem) ∧
    (∀ verdict, lock.evaluate S unlock digest limits = .ok verdict ↔
      (unlock.bytes.length ≤ limits.maxItem.toNat ∧
        unlock.bytes.length ≤ limits.maxTotal.toNat) ∧
      (verdict = true ↔ lock.verify S unlock digest = .ok true)) ∧
    (∀ error, lock.verify S unlock digest = .error error →
      limits.Admits unlock.bytes.length → lock.evaluate S unlock digest limits = .ok false) ∧
    lock.evaluate S unlock digest limits ≠ .error .stackUnderflow := by
  have longer_iff : (limits.maxItem.toNat < unlock.bytes.length ∨
      limits.maxTotal.toNat < unlock.bytes.length) ↔ ¬limits.Admits unlock.bytes.length := by
    unfold StackLimits.Admits
    omega
  rw [longer_iff]
  change _ ∧ (∀ verdict, _ ↔ limits.Admits unlock.bytes.length ∧ _) ∧ _
  by_cases fits : limits.Admits unlock.bytes.length
  · rw [evaluate_of_admits fits]
    refine ⟨fun error => ⟨nofun, fun ⟨large, _⟩ => absurd fits large⟩, fun verdict => ?_,
      fun error failed _ => ?_, nofun⟩
    · rw [Except.ok.injEq, refused_unless_verified]
      exact (and_iff_right fits).symm
    · rw [failed]
      rfl
  · rw [evaluate_of_overflow fits]
    refine ⟨fun error => ?_, fun verdict => ⟨nofun, fun ⟨inside, _⟩ => absurd inside fits⟩,
      fun error _ inside => absurd inside fits, nofun⟩
    rw [Except.error.injEq, eq_comm]
    exact (and_iff_right fits).symm

end Lock

end UtxoLedger
