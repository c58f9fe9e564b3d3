import UtxoLedger.Main
import UtxoLedger.WorkingSet.Shared
import UtxoLedger.Script.Scope
import UtxoLedger.Proofs.Amount.Exact
import UtxoLedger.Proofs.Fee.Policy
import UtxoLedger.Proofs.Draft.History
import UtxoLedger.Proofs.Transaction.Commitment
import UtxoLedger.Proofs.Transaction.Signing
import UtxoLedger.Proofs.Draft.Conservation
import UtxoLedger.Proofs.Cancellation.Building
import UtxoLedger.Proofs.Cancellation.Conservation
import UtxoLedger.Proofs.WorkingSet.Coherence
import UtxoLedger.Proofs.Wallet.Sending
import UtxoLedger.Proofs.Wallet.Conservation
import UtxoLedger.Proofs.WorkingSet.Interleaving
import UtxoLedger.Proofs.Draft.Estimation
import UtxoLedger.Proofs.Fee.Rate
import UtxoLedger.Proofs.Cancellation.Pricing
import UtxoLedger.Proofs.Wallet.Outbidding
import UtxoLedger.Proofs.Key.Lawful
import UtxoLedger.Proofs.Transaction.Verification
import UtxoLedger.Proofs.Verification
import UtxoLedger.Proofs.Fee.Exact
import UtxoLedger.Proofs.Cancellation.Rejection
import UtxoLedger.Proofs.Wallet.Outcome
import UtxoLedger.Proofs.Json.Literal
import UtxoLedger.Proofs.Text.Decimal
import UtxoLedger.Proofs.Json.Numeral
import UtxoLedger.Proofs.Json.Decoder
import UtxoLedger.Proofs.Wire.Record
import UtxoLedger.Proofs.Text.Torn
import UtxoLedger.Proofs.Json.Torn
import UtxoLedger.Proofs.Json.Remnant
import UtxoLedger.Proofs.Cancellation.Repetition
import UtxoLedger.Proofs.Cancellation.Listing
import UtxoLedger.Proofs.Cancellation.Ownership
import UtxoLedger.Proofs.Draft.Calls
import UtxoLedger.Proofs.Script.Branching
import UtxoLedger.Proofs.Command.Verification
import UtxoLedger.Proofs.Script.Accounting
import UtxoLedger.Proofs.WorkingSet.InPlace
import UtxoLedger.Proofs.WorkingSet.Verdict
import UtxoLedger.Proofs.WorkingSet.Balance
import UtxoLedger.Proofs.WorkingSet.Histories
import UtxoLedger.Proofs.Fee.Rounding
import UtxoLedger.Proofs.Wallet.Shortage
import UtxoLedger.Proofs.WorkingSet.Maturity
import UtxoLedger.Proofs.Wire.Torn
import UtxoLedger.Proofs.Text.Digest
import UtxoLedger.Proofs.Wire.Spelling
import UtxoLedger.Proofs.Transaction.Component
import UtxoLedger.Proofs.Wire.Omission
import UtxoLedger.Proofs.Script.Nesting
import UtxoLedger.Proofs.WorkingSet.Batches
import UtxoLedger.Proofs.Command.Payload
import UtxoLedger.Proofs.Key.Listing
import UtxoLedger.Proofs.Fee.Root
