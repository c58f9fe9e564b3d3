import UtxoLedger.Fee.Policy
import UtxoLedger.Wire.Record

/-!
# Configuration

The fee policy and the stack limits, kept in a file. Whatever the file leaves out
has its default value.
-/
namespace UtxoLedger

open Json Wire

/-- What a user can set. A configuration that nobody wrote is the default one. -/
structure Config where
  fees : FeePolicy := {}
  stack : StackLimits := {}
  deriving DecidableEq, Repr

/-- Why a configuration cannot be read. -/
inductive ConfigError
  | missingFile
  | content (problem : Wire.Problem)
  deriving DecidableEq, Repr

def ConfigError.message : ConfigError → String
  | .missingFile => "no such file"
  | .content problem => problem.message

namespace Wire

/-- Every member is written, also where it has its default value. -/
def encodeFeePolicy (policy : FeePolicy) : Document :=
  .object (.ofList [("fee_per_byte", encodeWord policy.feePerByte),
    ("minimum_fee", encodeWord policy.minimumFee),
    ("double_spent_threshold_pct", encodeWord policy.doubleSpentThresholdPct)])

/-- A fee policy as far as it is read. -/
structure PartialFeePolicy where
  feePerByte : Option UInt64 := none
  minimumFee : Option UInt64 := none
  doubleSpentThresholdPct : Option UInt64 := none

/-- The members of a fee policy, in the order in which an array gives them. -/
def PartialFeePolicy.fields : List (Field ContentError PartialFeePolicy) :=
  [.of "fee_per_byte" decodeWord feePerByte fun partly value =>
     { partly with feePerByte := some value },
   .of "minimum_fee" decodeWord minimumFee fun partly value =>
     { partly with minimumFee := some value },
   .of "double_spent_threshold_pct" decodeWord doubleSpentThresholdPct fun partly value =>
     { partly with doubleSpentThresholdPct := some value }]

/-- Each member that was left out has its own default value. -/
def PartialFeePolicy.complete (partly : PartialFeePolicy) : FeePolicy :=
  let rest : FeePolicy := {}
  ⟨partly.feePerByte.getD rest.feePerByte, partly.minimumFee.getD rest.minimumFee,
   partly.doubleSpentThresholdPct.getD rest.doubleSpentThresholdPct⟩

/-- No member has to be there, so an empty object is the default policy. -/
def decodeFeePolicy : Decoder FeePolicy :=
  .record PartialFeePolicy.fields {} fun partly => some partly.complete

def encodeStackLimits (limits : StackLimits) : Document :=
  .object (.ofList [("max_total_bytes", encodeWord limits.maxTotal),
    ("max_item_bytes", encodeWord limits.maxItem)])

/-- Stack limits as far as they are read. -/
structure PartialStackLimits where
  maxTotal : Option UInt64 := none
  maxItem : Option UInt64 := none

def PartialStackLimits.fields : List (Field ContentError PartialStackLimits) :=
  [.of "max_total_bytes" decodeWord maxTotal fun partly value =>
     { partly with maxTotal := some value },
   .of "max_item_bytes" decodeWord maxItem fun partly value =>
     { partly with maxItem := some value }]

/-- Either limit that was left out is the default one. -/
def PartialStackLimits.complete (partly : PartialStackLimits) : StackLimits :=
  let rest : StackLimits := {}
  ⟨partly.maxTotal.getD rest.maxTotal, partly.maxItem.getD rest.maxItem⟩

def decodeStackLimits : Decoder StackLimits :=
  .record PartialStackLimits.fields {} fun partly => some partly.complete

def encodeConfig (config : Config) : Document :=
  .object (.ofList [("fees", encodeFeePolicy config.fees),
    ("stack", encodeStackLimits config.stack)])

/-- The sections of a configuration as far as they are read. -/
structure PartialConfig where
  fees : Option FeePolicy := none
  stack : Option StackLimits := none

def PartialConfig.fields : List (Field ContentError PartialConfig) :=
  [.of "fees" decodeFeePolicy (fun partly => partly.fees) fun partly value =>
     { partly with fees := some value },
   .of "stack" decodeStackLimits (fun partly => partly.stack) fun partly value =>
     { partly with stack := some value }]

/-- A section that was left out is the default one as a whole. -/
def PartialConfig.complete (partly : PartialConfig) : Config :=
  ⟨partly.fees.getD {}, partly.stack.getD {}⟩

/-- Reads either section, both or none of them. -/
def decodeConfig : Decoder Config :=
  .record PartialConfig.fields {} fun partly => some partly.complete

end Wire

namespace Config

/-- Reads the content of a file; there is none when the file is missing. -/
def load : Option String → Except ConfigError Config
  | none => .error .missingFile
  | some content => (decodeConfig.run content.toList).mapError .content

/-- The content of the file that holds a configuration. -/
def save (config : Config) : String :=
  (encodeConfig config).write .indented

end Config

end UtxoLedger
