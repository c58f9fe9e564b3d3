import UtxoLedger.Amount
import UtxoLedger.Script.Lock

/-!
# Transactions and unspent outputs

A transaction spends outputs by their keys and makes new ones. Its digest covers
everything but the unlocks, so signing a transaction does not change which
transaction it is.
-/
namespace UtxoLedger

/-- What is wrong with a transaction, or with the locks it is checked against. -/
inductive TransactionError
  | unknownOutputType (code : UInt32)
  | inputOutOfRange (index : Nat)
  | lockCountMismatch (expected actual : Nat)
  | key (error : KeyError)
  | script (error : ScriptError)
  deriving DecidableEq, Repr

def TransactionError.message : TransactionError → String
  | .unknownOutputType code => s!"Unknown output type: {code}"
  | .inputOutOfRange index => s!"Input index {index} out of range"
  | .lockCountMismatch expected actual => s!"Expected {expected} locks, got {actual}"
  | .key error => "Key error: " ++ error.message
  | .script error => "Script error: " ++ error.message

/-- What an output is for. -/
inductive OutputType
  | payment
  /-- Frozen stake, which coin selection leaves alone. -/
  | freeze
  deriving DecidableEq, Repr

namespace OutputType

def code : OutputType → UInt32
  | .payment => 0
  | .freeze => 1

/-- There are two types, and other numbers stand for none. -/
def ofCode (code : UInt32) : Except TransactionError OutputType :=
  if code = 0 then .ok .payment
  else if code = 1 then .ok .freeze
  else .error (.unknownOutputType code)

def name : OutputType → String
  | .payment => "Payment"
  | .freeze => "Freeze"

end OutputType

/-- The key of an output that is spent, with the proof that it may be. An age of zero asks for
nothing. -/
structure Input where
  utxo : Digest
  unlock : Unlock := {}
  unlockAge : UInt32 := 0
  deriving DecidableEq

/-- A value that waits behind a lock. -/
structure Output where
  kind : OutputType
  value : Amount
  lock : Lock
  deriving DecidableEq

/-- What is spent and what is made of it, with the data that is attached. -/
structure Transaction where
  inputs : List Input
  outputs : List Output
  payload : Bytes := []
  lockHeight : UInt64 := 0
  deriving DecidableEq

/-- The record of an output that nobody has spent so far. -/
structure Unspent where
  utxo : Digest
  kind : OutputType
  /-- The first height at which the output can be spent. -/
  unlockHeight : UInt64
  amount : Amount
  lock : Lock
  deriving DecidableEq

instance : Contributes OutputType :=
  ⟨fun kind => contribution kind.code⟩

instance : Contributes Input :=
  ⟨fun input => contribution input.utxo ++ contribution input.unlockAge⟩

instance : Contributes Output :=
  ⟨fun output => contribution output.kind ++ contribution output.value ++ contribution output.lock⟩

instance : Contributes Transaction :=
  ⟨fun tx => contribution tx.inputs ++ contribution tx.outputs ++ contribution tx.payload ++
    contribution tx.lockHeight⟩

instance : Contributes Unspent :=
  ⟨fun entry => contribution entry.utxo ++ contribution entry.kind ++
    contribution entry.unlockHeight ++ contribution entry.amount ++ contribution entry.lock⟩

namespace Transaction

/-- What identifies a transaction and is signed for each of its inputs. -/
def digest (tx : Transaction) : Digest :=
  .ofRecord tx

/-- The key of output `index`, by which a later transaction spends it. -/
def utxoKey (tx : Transaction) (index : UInt64) : Digest :=
  tx.digest.utxoKey index

def totalOutput (tx : Transaction) : Except AmountError Amount :=
  Amount.checkedSum (tx.outputs.map Output.value)

end Transaction

namespace Unspent

/-- A block at `height` is followed by the block that spends. Without a height all is mature. -/
def isMature (entry : Unspent) : Option UInt64 → Bool
  | none => true
  | some height => entry.unlockHeight ≤ Amount.saturatingSucc height

/-- Stake never is, whatever the height. -/
def isSpendable (entry : Unspent) (height : Option UInt64) : Bool :=
  entry.kind = .payment ∧ entry.isMature height

end Unspent

end UtxoLedger
