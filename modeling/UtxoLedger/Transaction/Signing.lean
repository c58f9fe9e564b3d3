import UtxoLedger.Transaction.Basic

/-!
# Signing and verifying transactions

Every unlock is a signature of the same digest. Verification of a whole
transaction stops at the first input that does not verify.
-/
namespace UtxoLedger.Transaction

section Signing

variable {S : SignatureScheme}

/-- The input at place `i` is signed by the signer in the same place, with the `i`th random data. -/
def signInputs (digest : Digest) (entropy : Entropy) :
    Nat → List Input → List (KeyPair S) → Except KeyError (List Input)
  | i, input :: inputs, signer :: signers => do
    let signature ← signer.sign digest.bytes (entropy i)
    let signed ← signInputs digest entropy (i + 1) inputs signers
    return { input with unlock := ⟨signature⟩ } :: signed
  | _, inputs, _ => .ok inputs

/-- Inputs for which there is no signer keep the unlock they had. -/
def signed (tx : Transaction) (signers : List (KeyPair S)) (entropy : Entropy) :
    Except KeyError Transaction := do
  let inputs ← signInputs tx.digest entropy 0 tx.inputs signers
  return { tx with inputs }

end Signing

variable (S : SignatureScheme)

/-- Checks one input against the lock of what it spends. There may be no input in the place. -/
def verifyInput (tx : Transaction) (index : Nat) (lock : Lock) : Except TransactionError Bool :=
  match tx.inputs[index]? with
  | none => .error (.inputOutOfRange index)
  | some input => (lock.verify S input.unlock tx.digest).mapError .key

/-- The same on a bounded stack, where an unlock that cannot be read is only a refusal. -/
def evaluateInput (tx : Transaction) (index : Nat) (lock : Lock) (limits : StackLimits) :
    Except TransactionError Bool :=
  match tx.inputs[index]? with
  | none => .error (.inputOutOfRange index)
  | some input => (lock.evaluate S input.unlock tx.digest limits).mapError .script

/-- Whatever the first input that does not verify comes to. -/
def verifyEach (digest : Digest) : List (Input × Lock) → Except KeyError Bool
  | [] => .ok true
  | (input, lock) :: rest =>
    match lock.verify S input.unlock digest with
    | .ok true => verifyEach digest rest
    | verdict => verdict

/-- The locks are those of the outputs that the inputs spend, in order. -/
def verifySignatures (tx : Transaction) (locks : List Lock) : Except TransactionError Bool :=
  if locks.length ≠ tx.inputs.length then
    .error (.lockCountMismatch tx.inputs.length locks.length)
  else
    (verifyEach S tx.digest (tx.inputs.zip locks)).mapError .key

end UtxoLedger.Transaction
