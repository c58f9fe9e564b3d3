import UtxoLedger.Config
import UtxoLedger.Proofs.Json.Omission
import UtxoLedger.Proofs.Wire.Scalar

/-!
# Configurations with members left out

A configuration file need not say everything. Its members are in two sections, and each section and
each member of a section can be left out: what is said is taken, and what is not said is as it is
by default, member by member, never more and never less.
-/
namespace UtxoLedger

open Json

def FeePolicy.keep (kept : Choice) (policy : FeePolicy) : FeePolicy :=
  let rest : FeePolicy := {}
  ⟨if kept ["fee_per_byte"] then policy.feePerByte else rest.feePerByte,
   if kept ["minimum_fee"] then policy.minimumFee else rest.minimumFee,
   if kept ["double_spent_threshold_pct"] then policy.doubleSpentThresholdPct
    else rest.doubleSpentThresholdPct⟩

def StackLimits.keep (kept : Choice) (limits : StackLimits) : StackLimits :=
  let rest : StackLimits := {}
  ⟨if kept ["max_total_bytes"] then limits.maxTotal else rest.maxTotal,
   if kept ["max_item_bytes"] then limits.maxItem else rest.maxItem⟩

namespace Config

def keep (kept : Choice) (config : Config) : Config :=
  ⟨if kept ["fees"] then config.fees.keep (kept.within "fees") else {},
   if kept ["stack"] then config.stack.keep (kept.within "stack") else {}⟩

inductive Member
  | feePerByte
  | minimumFee
  | doubleSpentThresholdPct
  | maxTotal
  | maxItem
  deriving DecidableEq, Repr

namespace Member

/-- The section of a member. -/
def area : Member → String
  | .feePerByte | .minimumFee | .doubleSpentThresholdPct => "fees"
  | .maxTotal | .maxItem => "stack"

/-- Its name in that section. -/
def name : Member → String
  | .feePerByte => "fee_per_byte"
  | .minimumFee => "minimum_fee"
  | .doubleSpentThresholdPct => "double_spent_threshold_pct"
  | .maxTotal => "max_total_bytes"
  | .maxItem => "max_item_bytes"

def value (config : Config) : Member → UInt64
  | .feePerByte => config.fees.feePerByte
  | .minimumFee => config.fees.minimumFee
  | .doubleSpentThresholdPct => config.fees.doubleSpentThresholdPct
  | .maxTotal => config.stack.maxTotal
  | .maxItem => config.stack.maxItem

/-- Still there when neither it nor its section is left out. -/
def stays (kept : Choice) (member : Member) : Bool :=
  kept [member.area] && kept [member.area, member.name]

theorem value_keep (kept : Choice) (config : Config) (member : Member) :
    member.value (config.keep kept) =
      if member.stays kept then member.value config else member.value {} := by
  cases member
  all_goals
    simp only [stays, area, name, value, keep, Bool.and_eq_true, ite_and]
    -- Without its section a member is left out, whatever is chosen within.
    split <;> rfl

end Member

end Config

namespace Wire

theorem reads_kept_word : ReadsKept decodeWord encodeWord fun _ word => word :=
  fun _ word => reads_word word

theorem reads_kept_feePolicy : ReadsKept decodeFeePolicy encodeFeePolicy FeePolicy.keep := by
  intro kept policy
  apply record_kept
  · apply members_kept reads_kept_word rfl rfl
    -- Whether or not the members before it stay, the next one is not given yet.
    apply members_kept reads_kept_word rfl (by split <;> rfl)
    apply members_kept reads_kept_word rfl (by split <;> split <;> rfl)
    exact members_done
  · unfold FeePolicy.keep
    split <;> split <;> split <;> rfl

theorem reads_kept_stackLimits :
    ReadsKept decodeStackLimits encodeStackLimits StackLimits.keep := by
  intro kept limits
  apply record_kept
  · apply members_kept reads_kept_word rfl rfl
    apply members_kept reads_kept_word rfl (by split <;> rfl)
    exact members_done
  · unfold StackLimits.keep
    split <;> split <;> rfl

theorem reads_kept_config : ReadsKept decodeConfig encodeConfig Config.keep := by
  intro kept config
  apply record_kept
  · apply members_kept reads_kept_feePolicy rfl rfl
    apply members_kept reads_kept_stackLimits rfl (by split <;> rfl)
    exact members_done
  · unfold Config.keep
    split <;> split <;> rfl

/-- Whatever is left out of a configuration that was written, the rest is loaded: every member that
stays has the value that was written, and every other member its default. -/
theorem load_overrides (layout : Layout) (kept : Choice) (config : Config) :
    ∃ loaded, Config.load (some (((encodeConfig config).keep kept).write layout)) = .ok loaded ∧
      ∀ member : Config.Member, member.value loaded =
        if member.stays kept then member.value config else member.value {} := by
  refine ⟨config.keep kept, ?_, fun member => member.value_keep kept config⟩
  rw [Config.load, reads_kept_config.run]
  rfl

end Wire

end UtxoLedger
