import UtxoLedger.Wire.Scalar

/-!
# Records on the wire

Each record has a writer, a form in which its fields may be missing while it is
being read, and a decoder. The order of the fields is the order in which they are
written, and the one in which an array gives them.
-/
namespace UtxoLedger.Wire

open Json

/-! ## Locks and unlocks -/

/-- The type is written first, since it says what the bytes are. -/
def encodeLock (lock : Lock) : Document :=
  .object (.ofList [("type", encodeLockType lock.kind), ("bytes", encodeBytes lock.bytes)])

/-- A lock as far as it is read. -/
structure PartialLock where
  kind : Option LockType := none
  bytes : Option Bytes := none

/-- The members of a lock by name, in the order of an array. -/
def PartialLock.fields : List (Field ContentError PartialLock) :=
  [.of "type" decodeLockType kind fun partly value => { partly with kind := some value },
   .of "bytes" decodeBytes bytes fun partly value => { partly with bytes := some value }]

/-- Both members have to be there. -/
def PartialLock.finish (partly : PartialLock) : Option Lock := do
  return ⟨← partly.kind, ← partly.bytes⟩

/-- A lock is an object or, like all records, an array. -/
def decodeLock : Decoder Lock :=
  .record PartialLock.fields {} PartialLock.finish

def encodeUnlock (unlock : Unlock) : Document :=
  .object (.ofList [("bytes", encodeBytes unlock.bytes)])

/-- An unlock as far as it is read. -/
structure PartialUnlock where
  bytes : Option Bytes := none

def PartialUnlock.fields : List (Field ContentError PartialUnlock) :=
  [.of "bytes" decodeBytes bytes fun partly value => { partly with bytes := some value }]

/-- An unlock without bytes is written out too. -/
def PartialUnlock.finish (partly : PartialUnlock) : Option Unlock := do
  return ⟨← partly.bytes⟩

def decodeUnlock : Decoder Unlock :=
  .record PartialUnlock.fields {} PartialUnlock.finish

/-! ## Inputs and outputs -/

/-- The unlock is written with its input, although no hash covers it. -/
def encodeInput (input : Input) : Document :=
  .object (.ofList [("utxo", encodeDigest input.utxo), ("unlock", encodeUnlock input.unlock),
    ("unlock_age", encodeAge input.unlockAge)])

/-- An input as far as it is read. -/
structure PartialInput where
  utxo : Option Digest := none
  unlock : Option Unlock := none
  unlockAge : Option UInt32 := none

def PartialInput.fields : List (Field ContentError PartialInput) :=
  [.of "utxo" decodeDigest utxo fun partly value => { partly with utxo := some value },
   .of "unlock" decodeUnlock unlock fun partly value => { partly with unlock := some value },
   .of "unlock_age" decodeAge unlockAge fun partly value => { partly with unlockAge := some value }]

/-- Only the age may be left out, and is zero then. -/
def PartialInput.finish (partly : PartialInput) : Option Input := do
  return ⟨← partly.utxo, ← partly.unlock, partly.unlockAge.getD 0⟩

def decodeInput : Decoder Input :=
  .record PartialInput.fields {} PartialInput.finish

/-- The lock is a record inside of the record. -/
def encodeOutput (output : Output) : Document :=
  .object (.ofList [("type", encodeOutputType output.kind), ("value", encodeAmount output.value),
    ("lock", encodeLock output.lock)])

/-- An output as far as it is read. -/
structure PartialOutput where
  kind : Option OutputType := none
  value : Option Amount := none
  lock : Option Lock := none

def PartialOutput.fields : List (Field ContentError PartialOutput) :=
  [.of "type" decodeOutputType kind fun partly value => { partly with kind := some value },
   .of "value" decodeAmount value fun partly value => { partly with value := some value },
   .of "lock" decodeLock lock fun partly value => { partly with lock := some value }]

/-- All members have to be there. -/
def PartialOutput.finish (partly : PartialOutput) : Option Output := do
  return ⟨← partly.kind, ← partly.value, ← partly.lock⟩

def decodeOutput : Decoder Output :=
  .record PartialOutput.fields {} PartialOutput.finish

/-! ## Transactions -/

/-- Payload and height are written even where they could be left out. -/
def encodeTransaction (tx : Transaction) : Document :=
  .object (.ofList [("inputs", .array (.ofList (tx.inputs.map encodeInput))),
    ("outputs", .array (.ofList (tx.outputs.map encodeOutput))),
    ("payload", encodeBytes tx.payload), ("lock_height", encodeAmount tx.lockHeight)])

/-- A transaction as far as it is read. -/
structure PartialTransaction where
  inputs : Option (List Input) := none
  outputs : Option (List Output) := none
  payload : Option Bytes := none
  lockHeight : Option UInt64 := none

def PartialTransaction.fields : List (Field ContentError PartialTransaction) :=
  [.of "inputs" (.list decodeInput) inputs fun partly value => { partly with inputs := some value },
   .of "outputs" (.list decodeOutput) outputs fun partly value =>
     { partly with outputs := some value },
   .of "payload" decodeBytes payload fun partly value => { partly with payload := some value },
   .of "lock_height" decodeAmount lockHeight fun partly value =>
     { partly with lockHeight := some value }]

/-- Payload and height may be left out, and are empty and zero then. -/
def PartialTransaction.finish (partly : PartialTransaction) : Option Transaction := do
  return ⟨← partly.inputs, ← partly.outputs, partly.payload.getD [], partly.lockHeight.getD 0⟩

/-- A member of another name is passed over, and no member may come twice. -/
def decodeTransaction : Decoder Transaction :=
  .record PartialTransaction.fields {} PartialTransaction.finish

/-! ## Unspent outputs -/

/-- Height and amount are texts, so that no reader rounds them. -/
def encodeUnspent (entry : Unspent) : Document :=
  .object (.ofList [("utxo", encodeDigest entry.utxo), ("type", encodeOutputType entry.kind),
    ("unlock_height", encodeAmount entry.unlockHeight), ("amount", encodeAmount entry.amount),
    ("lock", encodeLock entry.lock)])

/-- The record of an unspent output as far as it is read. -/
structure PartialUnspent where
  utxo : Option Digest := none
  kind : Option OutputType := none
  unlockHeight : Option UInt64 := none
  amount : Option Amount := none
  lock : Option Lock := none

def PartialUnspent.fields : List (Field ContentError PartialUnspent) :=
  [.of "utxo" decodeDigest utxo fun partly value => { partly with utxo := some value },
   .of "type" decodeOutputType kind fun partly value => { partly with kind := some value },
   .of "unlock_height" decodeAmount unlockHeight fun partly value =>
     { partly with unlockHeight := some value },
   .of "amount" decodeAmount amount fun partly value => { partly with amount := some value },
   .of "lock" decodeLock lock fun partly value => { partly with lock := some value }]

/-- All members have to be there. -/
def PartialUnspent.finish (partly : PartialUnspent) : Option Unspent := do
  return ⟨← partly.utxo, ← partly.kind, ← partly.unlockHeight, ← partly.amount, ← partly.lock⟩

def decodeUnspent : Decoder Unspent :=
  .record PartialUnspent.fields {} PartialUnspent.finish

/-- Records are kept in a file as one array. -/
def encodeUnspentList (entries : List Unspent) : Document :=
  .array (.ofList (entries.map encodeUnspent))

/-- All records in their order, also those whose key came before. -/
def decodeUnspentList : Decoder (List Unspent) :=
  .list decodeUnspent

end UtxoLedger.Wire
