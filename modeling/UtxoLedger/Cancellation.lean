import UtxoLedger.Fee.Policy
import UtxoLedger.Transaction.Signing

/-!
# Cancelling pending transactions

A cancellation spends the same outputs as the pending transaction, pays each one
back to the lock it came from, and offers a higher rate. The fee is shared out
among the outputs. Where several things stand in the way, the first in the order
of `Rejection` is reported.
-/
namespace UtxoLedger

/-- Why a pending transaction is not cancelled. -/
inductive Rejection
  /-- A spent output is frozen stake. -/
  | unsupportedUnfreezing
  /-- A spent output is not among the records. -/
  | notFoundUtxo
  /-- A spent output is not locked to a single key. -/
  | unsupportedLockType
  /-- A spent output belongs to none of the key pairs, or its owner does not sign. -/
  | notFoundKey
  /-- The fee cannot be computed, or leaves nothing of some output. -/
  | notEnoughFee
  deriving DecidableEq, Repr

def Rejection.code : Rejection → String
  | .unsupportedUnfreezing => "UnsupportedUnfreezing"
  | .notFoundUtxo => "NotFoundUTXO"
  | .unsupportedLockType => "UnsupportedLockType"
  | .notFoundKey => "NotFoundKey"
  | .notEnoughFee => "NotEnoughFee"

/-- A signed transaction that takes the place of a pending one, and what it costs. -/
structure Cancellation where
  tx : Transaction
  fee : Amount
  /-- The share of each output, without the units that do not divide evenly. -/
  feePerOutput : Amount
  deriving DecidableEq

namespace Cancellation

/-- The record of a spent output: the first one with its key. -/
def record? (records : List Unspent) (input : Input) : Option Unspent :=
  records.find? fun entry => entry.utxo = input.utxo

/-- The key pair that a record's lock names by its compressed public key. -/
def signer? {S : SignatureScheme} (keys : List (KeyPair S)) (entry : Unspent) :
    Option (KeyPair S) :=
  keys.find? fun pair => pair.publicBytes = entry.lock.bytes

/-- The rate is that of the pending transaction, the size that of one without a payload. -/
def totalFee (policy : FeePolicy) (tx : Transaction) : Except AmountError Amount := do
  let rate ← policy.cancelFeeRate
    (estimatedSize tx.inputs.length tx.outputs.length tx.payload.length)
  Amount.checked (rate.toNat * estimatedSize tx.inputs.length tx.outputs.length 0)

/-- The part of the fee that every output bears. Without outputs it is divided as if there were
one. -/
def share (fee : Amount) (count : Nat) : Amount :=
  UInt64.ofNat (fee.toNat / max count 1)

/-- Near-equal charges that sum to the fee; the units left over go to the first ones. -/
def charges (fee : Amount) (count : Nat) : List Amount :=
  (List.range count).map fun i =>
    if i < fee.toNat % max count 1 then share fee count + 1 else share fee count

/-- What a charge leaves of a spent output, back at its own lock. -/
def refund (entry : Unspent) (charge : Amount) : Output :=
  ⟨.payment, entry.amount - charge, entry.lock⟩

/-- The cancellation before it is signed. It carries no payload and waits for no height. -/
def unsigned (spent : List Unspent) (charged : List Amount) : Transaction where
  inputs := spent.map fun entry => { utxo := entry.utxo }
  outputs := List.zipWith refund spent charged

/-- Cancels a pending transaction with the records of what it spends and the keys of the owners. One
obstacle is looked for in all inputs before the next one is. -/
def build {S : SignatureScheme} (tx : Transaction) (records : List Unspent)
    (keys : List (KeyPair S)) (policy : FeePolicy) (entropy : Entropy) :
    Except Rejection Cancellation :=
  -- Frozen stake is reported first, even where another record is missing.
  let found := tx.inputs.map (record? records)
  if found.any fun entry? => entry?.any fun entry => entry.kind = .freeze then
    .error .unsupportedUnfreezing
  else
    match found.mapM id with
    | none => .error .notFoundUtxo
    | some spent =>
      if spent.any fun entry => !entry.lock.isSingleKey then .error .unsupportedLockType
      else
        match spent.mapM (signer? keys) with
        | none => .error .notFoundKey
        | some signers =>
          match totalFee policy tx with
          | .error _ => .error .notEnoughFee
          | .ok fee =>
            -- Every output has to keep something, so an equal charge is too much as well.
            let charged := charges fee spent.length
            if (spent.zip charged).any fun (entry, charge) => entry.amount ≤ charge then
              .error .notEnoughFee
            else
              match (unsigned spent charged).signed signers entropy with
              | .error _ => .error .notFoundKey
              | .ok tx => .ok ⟨tx, fee, share fee spent.length⟩

end Cancellation

end UtxoLedger
