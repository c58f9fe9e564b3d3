import UtxoLedger.Command.Report

/-!
# Responses

What an invocation leaves behind: the text it wrote and its exit code, which is 2
for arguments that make no sense and 1 for anything that failed later.
-/
namespace UtxoLedger.Command

/-- What is left of an invocation for whoever called the program. -/
structure Response where
  exit : UInt32
  output : String
  /-- What went wrong, for the person at the terminal. -/
  complaint : Option String := none

/-- What was written before a failure is part of the output. -/
def Report.toResponse {α : Type} (report : Report α) : Response :=
  match report.result with
  | .ok _ => ⟨0, report.output, none⟩
  | .error error => ⟨1, report.output, some error.message⟩

variable (S : SignatureScheme)

def Request.respond (config : Config) (files : Files) (entropy : Entropy) : Request → Response
  | .payloadFee size => (reportPayloadFee size).toResponse
  | .keygen => (reportKeygen S entropy).toResponse
  | .balance utxos height => (reportBalance files utxos height).toResponse
  | .send key utxos recipient amount height payload =>
    (reportSend S config files entropy key utxos recipient amount height payload).toResponse
  | .verify tx utxos => (reportVerify S config files tx utxos).toResponse
  | .cancel tx utxos keys => (reportCancel S config files entropy tx utxos keys).toResponse

/-- Without a file named for it, the configuration is the default one. -/
def loadConfig (files : Files) : Option String → Except ConfigError Config
  | none => .ok {}
  | some name => Config.load (files name)

/-- The configuration is read before anything is done. -/
def Invocation.respond (files : Files) (entropy : Entropy) : Invocation → Response
  | .version => ⟨0, "ledger-tx 0.1.0\n", none⟩
  | .misused => ⟨2, "", some "unknown or incomplete arguments"⟩
  | .run name request =>
    match loadConfig files name with
    | .error error => ⟨1, "", some error.message⟩
    | .ok config => request.respond S config files entropy

/-- The files that a request may read. -/
def Request.files : Request → List String
  | .payloadFee _ => []
  | .keygen => []
  | .balance utxos _ => [utxos]
  | .send _ utxos _ _ _ _ => [utxos]
  | .verify tx utxos => [tx, utxos]
  | .cancel tx utxos _ => [tx, utxos]

/-- The files to read in advance, among them the configuration. -/
def Invocation.files : Invocation → List String
  | .run config request => config.toList ++ request.files
  | _ => []

end UtxoLedger.Command
