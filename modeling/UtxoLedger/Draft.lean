import UtxoLedger.Fee.Payload
import UtxoLedger.Fee.Policy
import UtxoLedger.Transaction.Signing

/-!
# Drafts of transactions

A draft collects what one owner spends and pays. Outputs never exceed inputs,
at any moment. When the transaction is signed, what is left after outputs and
fees goes back to the owner in a change output, ahead of the others.
-/
namespace UtxoLedger

/-- Why a draft cannot be changed or signed. -/
inductive DraftError
  | invalidAmount (amount : Amount)
  | insufficientFunds (outputs inputs : Amount)
  | noOutput
  | amount (error : AmountError)
  | fee (error : FeeError)
  | key (error : KeyError)
  deriving DecidableEq, Repr

def DraftError.message : DraftError → String
  | .invalidAmount value => s!"Positive amount expected, not {value}"
  | .insufficientFunds outputs inputs => s!"Insufficient amount. {outputs}:{inputs}"
  | .noOutput => "No output for transaction."
  | .amount error => error.message
  | .fee error => error.message
  | .key error => "Key error: " ++ error.message

/-- A transaction of one owner that is being put together, with a running total for either side. -/
structure Draft (S : SignatureScheme) where
  owner : KeyPair S
  /-- What is spent, with the amounts it is worth. -/
  inputs : List (Input × Amount)
  outputs : List Output
  payload : Bytes
  lockHeight : UInt64
  totalInputs : Amount
  totalOutputs : Amount

/-- What a transaction pays for its size, and what for its payload. -/
structure Fees where
  transaction : Amount
  payload : Amount
  deriving DecidableEq, Repr

namespace Draft

variable {S : SignatureScheme}

def ofOwner (owner : KeyPair S) : Draft S :=
  ⟨owner, [], [], [], 0, 0, 0⟩

/-- Records an output to spend. Its worth is not looked up, the caller knows it. -/
def addInput (draft : Draft S) (utxo : Digest) (amount : Amount) :
    Except DraftError (Draft S) := do
  let total ← (Amount.checkedAdd draft.totalInputs amount).mapError .amount
  return { draft with
    inputs := draft.inputs ++ [({ utxo }, amount)]
    totalInputs := total }

/-- Records a payment, unless it pays nothing or the outputs would exceed the inputs. -/
def addOutput (draft : Draft S) (lock : Lock) (amount : Amount) :
    Except DraftError (Draft S) :=
  if amount = 0 then .error (.invalidAmount amount)
  else do
    let total ← (Amount.checkedAdd draft.totalOutputs amount).mapError .amount
    if total > draft.totalInputs then
      .error (.insufficientFunds total draft.totalInputs)
    else
      .ok { draft with
        outputs := draft.outputs ++ [⟨.payment, amount, lock⟩]
        totalOutputs := total }

def assignPayload (draft : Draft S) (payload : Bytes) : Draft S :=
  { draft with payload }

def assignLockHeight (draft : Draft S) (lockHeight : UInt64) : Draft S :=
  { draft with lockHeight }

/-- What remains for the owner, if anything does. -/
def change (draft : Draft S) (spent : Amount) : List Output :=
  let rest := Amount.saturatingSub draft.totalInputs spent
  if rest > 0 then [⟨.payment, rest, .ofPublicKey draft.owner.publicKey⟩] else []

/-- The transaction as it is going to be signed, with the change in front. -/
def unsigned (draft : Draft S) (kind : OutputType) (spent : Amount) : Transaction where
  inputs := draft.inputs.map Prod.fst
  outputs := draft.change spent ++ draft.outputs.map fun output => { output with kind }
  payload := draft.payload
  lockHeight := draft.lockHeight

/-- All outputs but the change take the given kind. -/
def sign (draft : Draft S) (kind : OutputType) (fees : Fees) (entropy : Entropy) :
    Except DraftError Transaction := do
  let spent ← (Amount.checkedSum [draft.totalOutputs, fees.transaction, fees.payload]).mapError
    .amount
  let tx := draft.unsigned kind spent
  if tx.outputs.isEmpty then .error .noOutput
  else (tx.signed (tx.inputs.map fun _ => draft.owner) entropy).mapError .key

/-- A change output counts only when something is left after paying for it too. -/
def estimateFees (draft : Draft S) (policy : FeePolicy) : Except DraftError Fees := do
  let payload ← (Payload.feeFor draft.payload).mapError .fee
  -- First as if there were change; without change there is an output less to pay for.
  let size := fun outputs => estimatedSize draft.inputs.length outputs draft.payload.length
  let withChange ← (policy.standardFee (size (draft.outputs.length + 1))).mapError .amount
  let spent ← (Amount.checkedSum [draft.totalOutputs, withChange, payload]).mapError .amount
  if draft.totalInputs > spent then return ⟨withChange, payload⟩
  let withoutChange ← (policy.standardFee (size draft.outputs.length)).mapError .amount
  return ⟨withoutChange, payload⟩

/-- Signs with the fees that a policy makes of the draft. -/
def signWithPolicy (draft : Draft S) (kind : OutputType) (policy : FeePolicy)
    (entropy : Entropy) : Except DraftError Transaction := do
  let fees ← draft.estimateFees policy
  draft.sign kind fees entropy

end Draft

end UtxoLedger
