import UtxoLedger.Draft
import UtxoLedger.WorkingSet.Basic

/-!
# Wallets

A wallet pays from a working set with one key pair. Coins are selected for the
amount and the fees of a transaction with that many inputs and two outputs. The
working set changes only when the payment succeeds.
-/
namespace UtxoLedger

/-- Why a wallet cannot be opened, or a payment fails. -/
inductive WalletError
  | insufficientFunds (need : Amount)
  | draft (error : DraftError)
  | fee (error : FeeError)
  | amount (error : AmountError)
  | key (error : KeyError)
  deriving DecidableEq, Repr

def WalletError.message : WalletError → String
  | .insufficientFunds need => s!"Insufficient funds: need {need} including fees"
  | .draft error => "Builder error: " ++ error.message
  | .fee error => error.message
  | .amount error => error.message
  | .key error => "Crypto error: " ++ error.message

/-- One key pair, which pays and receives. -/
structure Wallet (S : SignatureScheme) where
  keyPair : KeyPair S

/-- What a wallet is asked for. Without a height every coin counts as mature. -/
structure Payment where
  destination : Lock
  amount : Amount
  height : Option UInt64 := none
  payload : Bytes := []

namespace Payment

/-- The fee for so many inputs, one output that pays and one for the change. -/
def transactionFee (payment : Payment) (policy : FeePolicy) : Target := fun inputs =>
  policy.standardFee (estimatedSize inputs 2 payment.payload.length)

/-- What so many inputs have to cover. -/
def need (payment : Payment) (policy : FeePolicy) (payloadFee : Amount) : Target := fun inputs => do
  let charged ← Amount.checkedAdd payment.amount payloadFee
  let fee ← payment.transactionFee policy inputs
  Amount.checkedAdd charged fee

end Payment

namespace Wallet

variable {S : SignatureScheme}

/-- Opens a wallet with the digits of its private key. -/
def ofHex (S : SignatureScheme) (text : String) : Except WalletError (Wallet S) :=
  match KeyPair.ofHex S text.toList with
  | .error error => .error (.key error)
  | .ok pair => .ok ⟨pair⟩

def generate (entropy : Entropy) : Wallet S :=
  ⟨.generate entropy⟩

def address (wallet : Wallet S) : String :=
  wallet.keyPair.address

/-- What the wallet is paid to. Its change comes back to the same lock. -/
def lock (wallet : Wallet S) : Lock :=
  .ofPublicKey wallet.keyPair.publicKey

/-- The draft for a payment out of selected entries. -/
def prepare (wallet : Wallet S) (payment : Payment) (selected : List Unspent) :
    Except DraftError (Draft S) := do
  let spending ← selected.foldlM
    (fun (draft : Draft S) entry => draft.addInput entry.utxo entry.amount)
    (Draft.ofOwner wallet.keyPair)
  let paying ← spending.addOutput payment.destination payment.amount
  return paying.assignPayload payment.payload

/-- Pays out of a set and returns the set without the coins that are spent. Where the payment fails
there is no other set to go on with than the old one. -/
def send (wallet : Wallet S) (set : WorkingSet) (payment : Payment) (policy : FeePolicy)
    (entropy : Entropy) : Except WalletError (Transaction × WorkingSet) := do
  if payment.amount = 0 then .error (.draft (.invalidAmount 0))
  let payloadFee ← (Payload.feeFor payment.payload).mapError .fee
  let need := payment.need policy payloadFee
  let (selected, left) ← (set.selectWith payment.height need).mapError .amount
  -- Too little is there for any number of inputs; what is reported is the need of one.
  if selected.isEmpty then
    let least ← (need 1).mapError .amount
    .error (.insufficientFunds least)
  let draft ← (wallet.prepare payment selected).mapError .draft
  let fee ← (payment.transactionFee policy selected.length).mapError .amount
  let tx ← (draft.sign .payment ⟨fee, payloadFee⟩ entropy).mapError .draft
  return (tx, left)

end Wallet

end UtxoLedger
