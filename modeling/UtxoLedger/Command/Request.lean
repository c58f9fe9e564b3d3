import UtxoLedger.Command.Arguments

/-!
# Requests

What the program can be asked to do, and how a list of arguments asks for it. The
configuration file may be named on either level; the command's own level decides.
-/
namespace UtxoLedger.Command

/-- What the program is asked to do, and with what. -/
inductive Request
  | payloadFee (size : Int)
  | keygen
  | balance (utxos : String) (height : Option UInt64)
  | send (key utxos recipient : String) (amount : UInt64) (height : Option UInt64)
      (payload : Option String)
  | verify (tx utxos : String)
  | cancel (tx utxos keys : String)
  deriving DecidableEq, Repr

/-- What a list of arguments comes to. -/
inductive Invocation
  | version
  | misused
  | run (config : Option String) (request : Request)
  deriving DecidableEq, Repr

namespace Given

/-- The value of an option, if the option was given. -/
def value? (given : Given) (name : OptionName) : Option Value :=
  (given.find? fun entry => entry.1 = name).map Prod.snd

/-- A text that was given; values of other kinds do not count. -/
def text? (given : Given) (name : OptionName) : Option String :=
  match given.value? name with
  | some (.text value) => some value
  | _ => none

def word? (given : Given) (name : OptionName) : Option UInt64 :=
  match given.value? name with
  | some (.word value) => some value
  | _ => none

def signed? (given : Given) (name : OptionName) : Option Int :=
  match given.value? name with
  | some (.signed value) => some value
  | _ => none

end Given

/-- Taken on both levels. -/
def configForm : OptionForm := ⟨.config, "config", some 'c', .path⟩
def utxosForm : OptionForm := ⟨.utxos, "utxos", some 'u', .path⟩
def txForm : OptionForm := ⟨.tx, "tx", some 't', .path⟩
def heightForm : OptionForm := ⟨.height, "height", none, .word⟩

/-- The options of a command, and the request they make up when those required are there. -/
structure Form where
  name : String
  options : List OptionForm
  request : Given → Option Request

def forms : List Form :=
  [⟨"payload-fee", [⟨.size, "size", some 's', .signed⟩],
    fun given => do return .payloadFee (← given.signed? .size)⟩,
   ⟨"keygen", [], fun _ => some .keygen⟩,
   ⟨"balance", [utxosForm, heightForm],
    fun given => do return .balance (← given.text? .utxos) (given.word? .height)⟩,
   ⟨"send",
    [⟨.key, "key", some 'k', .text⟩, utxosForm, ⟨.recipient, "to", some 't', .text⟩,
     ⟨.amount, "amount", some 'a', .word⟩, heightForm,
     ⟨.payload, "payload", some 'p', .text⟩],
    fun given => do
      return .send (← given.text? .key) (← given.text? .utxos) (← given.text? .recipient)
        (← given.word? .amount) (given.word? .height) (given.text? .payload)⟩,
   ⟨"verify", [txForm, utxosForm],
    fun given => do return .verify (← given.text? .tx) (← given.text? .utxos)⟩,
   ⟨"cancel", [txForm, utxosForm, ⟨.keys, "keys", some 'k', .text⟩],
    fun given => do
      return .cancel (← given.text? .tx) (← given.text? .utxos) (← given.text? .keys)⟩]

/-- The arguments behind the name of a command, where `outer` was given in front of it. -/
def Invocation.ofCommand (outer : Given) (form : Form) (arguments : List String) : Invocation :=
  match walk (configForm :: form.options) false none [] arguments with
  | .finished given =>
    match form.request given with
    | some request => .run ((given.text? .config).or (outer.text? .config)) request
    | none => .misused
  | _ => .misused

/-- Options of the program come in front of the command, and the version ends everything. -/
def Invocation.ofArguments (arguments : List String) : Invocation :=
  match walk [configForm] true none [] arguments with
  | .version => .version
  | .plain name rest given =>
    match forms.find? fun form => form.name = name with
    | some form => .ofCommand given form rest
    | none => .misused
  | _ => .misused

end UtxoLedger.Command
