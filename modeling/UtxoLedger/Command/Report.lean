import UtxoLedger.Cancellation
import UtxoLedger.Command.Request
import UtxoLedger.Config
import UtxoLedger.Wallet

/-!
# Reports

Every request ends in a report: the text that was written, which may be some even
where the request failed, and what came of it. Files are looked up by name and
random bytes are handed in, so a report depends on nothing else.
-/
namespace UtxoLedger.Command

/-- Why a request fails. -/
inductive CommandError
  | missingFile
  | content (problem : Wire.Problem)
  | key (error : KeyError)
  | wallet (error : WalletError)
  | fee (error : FeeError)
  | amount (error : AmountError)
  | hex (error : HexError)
  | rejected (rejection : Rejection)
  deriving DecidableEq, Repr

def CommandError.message : CommandError → String
  | .missingFile => "no such file"
  | .content problem => problem.message
  | .key error => error.message
  | .wallet error => error.message
  | .fee error => error.message
  | .amount error => error.message
  | .hex error => error.message
  | .rejected rejection => "cannot cancel transaction: " ++ rejection.code

/-- The lines that a request writes, and what comes of it. -/
structure Report (α : Type) where
  lines : List String
  result : Except CommandError α

namespace Report

variable {α : Type}

def failed (error : CommandError) : Report α :=
  ⟨[], .error error⟩

def output (report : Report α) : String :=
  String.join (report.lines.map fun line => line ++ "\n")

end Report

/-- The contents of files by name. -/
abbrev Files := String → Option String

def loadFile {α : Type} (files : Files) (decoder : Wire.Decoder α) (name : String) :
    Except CommandError α :=
  match files name with
  | none => .error .missingFile
  | some content => (decoder.run content.toList).mapError .content

/-- The fee for a size, without a payload of that size. -/
def reportPayloadFee (size : Int) : Report Amount :=
  match Payload.fee size with
  | .error error => .failed (.fee error)
  | .ok fee => ⟨[s!"💸 Payload fee for {size} bytes: {fee}"], .ok fee⟩

/-- The sums of the records in a file, of which the first with a key counts. -/
def reportBalance (files : Files) (utxos : String) (height : Option UInt64) : Report Balance :=
  match loadFile files Wire.decodeUnspentList utxos with
  | .error error => .failed error
  | .ok entries =>
    let set := WorkingSet.ofList entries
    match set.balance height with
    | .error error => .failed (.amount error)
    | .ok balance =>
      let title :=
        match height with
        | some height => s!"💰 Balance at height {height}"
        | none => "💰 Balance"
      ⟨[title, s!"   ├─ Spendable: {balance.spendable}", s!"   ├─ Frozen: {balance.frozen}",
        s!"   ├─ Locked: {balance.locked}", s!"   └─ UTXOs: {set.size}"], .ok balance⟩

def reportTransaction (tx : Transaction) : String :=
  (Wire.encodeTransaction tx).write .indented

section Signed

variable (S : SignatureScheme)

/-- Shows a new key pair and keeps nothing of it. -/
def reportKeygen (entropy : Entropy) : Report (KeyPair S) :=
  let pair : KeyPair S := .generate entropy
  ⟨["🔐 New key pair created!", "   📍 Address: " ++ pair.address,
    "   🔑 Public Key: " ++ pair.publicHex,
    "   🗝️  Private Key: " ++ String.ofList pair.privateHex, "",
    "   ⚠️  IMPORTANT: The private key is not stored anywhere.",
    "   Copy it now to keep access to outputs locked to this key!"], .ok pair⟩

/-- A payload in digits; any number of leading 0x is allowed. -/
def readPayload : Option String → Except HexError Bytes
  | none => .ok []
  | some text => Hex.decode (Hex.dropMarks text.toList)

/-- Pays out of the records in a file. The file is read last, so a bad key or payload comes
first. -/
def sendTransaction (config : Config) (files : Files) (entropy : Entropy) (key utxos recipient : String)
    (amount : Amount) (height : Option UInt64) (payload : Option String) :
    Except CommandError (Wallet S × Transaction) := do
  let wallet ← (Wallet.ofHex S key).mapError .wallet
  let destination ← (publicKeyOfHex S recipient).mapError .key
  let payload ← (readPayload payload).mapError .hex
  let entries ← loadFile files Wire.decodeUnspentList utxos
  let payment : Payment := { destination := .ofPublicKey destination, amount, height, payload }
  let (tx, _) ← (wallet.send (.ofList entries) payment config.fees entropy).mapError .wallet
  return (wallet, tx)

/-- The identity of a payment, its payer and amount, and the transaction as a document. -/
def reportSend (config : Config) (files : Files) (entropy : Entropy) (key utxos recipient : String)
    (amount : Amount) (height : Option UInt64) (payload : Option String) : Report Transaction :=
  match sendTransaction S config files entropy key utxos recipient amount height payload with
  | .error error => .failed error
  | .ok (wallet, tx) =>
    ⟨["📤 Transaction created:", "   ID: " ++ tx.digest.toString, "   From: " ++ wallet.address,
      s!"   Amount: {amount}", reportTransaction tx], .ok tx⟩

/-- What is found out about an input. -/
inductive Verdict
  | notFound
  | valid
  | invalid
  | failed (error : TransactionError)
  deriving DecidableEq, Repr

def Verdict.text : Verdict → String
  | .notFound => "❌ spent output not found"
  | .valid => "✅ valid"
  | .invalid => "❌ invalid unlock"
  | .failed error => "❌ " ++ error.message

/-- Looks up what an input spends and evaluates its unlock against the lock found there. -/
def inputVerdict (limits : StackLimits) (tx : Transaction) (set : WorkingSet) (index : Nat)
    (input : Input) : Verdict :=
  match set.find? input.utxo with
  | none => .notFound
  | some entry =>
    match tx.evaluateInput S index entry.lock limits with
    | .ok true => .valid
    | .ok false => .invalid
    | .error error => .failed error

def verdicts (limits : StackLimits) (tx : Transaction) (set : WorkingSet) : List Verdict :=
  tx.inputs.mapIdx (inputVerdict S limits tx set)

/-- The result is the number of inputs that verify. -/
def reportVerify (config : Config) (files : Files) (tx utxos : String) : Report Nat :=
  let loaded := do
    let tx ← loadFile files Wire.decodeTransaction tx
    let entries ← loadFile files Wire.decodeUnspentList utxos
    return (tx, entries)
  match loaded with
  | .error error => .failed error
  | .ok (tx, entries) =>
    let found := verdicts S config.stack tx (.ofList entries)
    let valid := found.count .valid
    let lines := found.mapIdx fun index verdict =>
      let text := verdict.text
      s!"   └─ input {index}: {text}"
    ⟨["🔍 Verifying " ++ tx.digest.toString] ++ lines ++
      [s!"   {valid}/{tx.inputs.length} inputs verified"], .ok valid⟩

/-- Cancels the transaction in a file. A rejection is written as well as reported. -/
def reportCancel (config : Config) (files : Files) (entropy : Entropy) (tx utxos keys : String) :
    Report Cancellation :=
  let loaded := do
    let tx ← loadFile files Wire.decodeTransaction tx
    let entries ← loadFile files Wire.decodeUnspentList utxos
    let pairs ← (keyPairsOfText S keys.toList).mapError .key
    return (tx, entries, pairs)
  match loaded with
  | .error error => .failed error
  | .ok (tx, entries, pairs) =>
    match Cancellation.build tx entries pairs config.fees entropy with
    | .error rejection =>
      ⟨["❌ Cancellation rejected: " ++ rejection.code], .error (.rejected rejection)⟩
    | .ok cancellation =>
      ⟨["🚫 Cancellation for " ++ tx.digest.toString,
        "   ├─ ID: " ++ cancellation.tx.digest.toString,
        s!"   ├─ Fee: {cancellation.fee}",
        s!"   └─ Fee per output: {cancellation.feePerOutput}",
        reportTransaction cancellation.tx], .ok cancellation⟩

end Signed

end UtxoLedger.Command
