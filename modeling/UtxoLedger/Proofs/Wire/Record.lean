import UtxoLedger.Config
import UtxoLedger.Proofs.Wire.Scalar

/-!
# Records come back from the wire

Every record is written with all of its fields, each under a name of its own, so none is met twice
and none is left to its default. What is written for a transaction, for a list of unspent outputs
or for a configuration is decoded to it, in either layout.
-/
namespace UtxoLedger

namespace Wire

open Json

theorem reads_lock : Reads decodeLock encodeLock := by
  intro lock
  apply record_of_members
  · apply members_next reads_lockType rfl rfl
    apply members_next reads_bytes rfl rfl
    exact members_done
  · rfl

theorem reads_unlock : Reads decodeUnlock encodeUnlock := by
  intro unlock
  apply record_of_members
  · apply members_next reads_bytes rfl rfl
    exact members_done
  · rfl

theorem reads_input : Reads decodeInput encodeInput := by
  intro input
  apply record_of_members
  · apply members_next reads_digest rfl rfl
    apply members_next reads_unlock rfl rfl
    apply members_next reads_age rfl rfl
    exact members_done
  · rfl

theorem reads_output : Reads decodeOutput encodeOutput := by
  intro output
  apply record_of_members
  · apply members_next reads_outputType rfl rfl
    apply members_next reads_amount rfl rfl
    apply members_next reads_lock rfl rfl
    exact members_done
  · rfl

theorem reads_transaction : Reads decodeTransaction encodeTransaction := by
  intro tx
  apply record_of_members
  · apply members_next reads_input.list rfl rfl
    apply members_next reads_output.list rfl rfl
    apply members_next reads_bytes rfl rfl
    apply members_next reads_amount rfl rfl
    exact members_done
  · rfl

theorem reads_unspent : Reads decodeUnspent encodeUnspent := by
  intro entry
  apply record_of_members
  · apply members_next reads_digest rfl rfl
    apply members_next reads_outputType rfl rfl
    apply members_next reads_amount rfl rfl
    apply members_next reads_amount rfl rfl
    apply members_next reads_lock rfl rfl
    exact members_done
  · rfl

theorem reads_unspentList : Reads decodeUnspentList encodeUnspentList :=
  reads_unspent.list

theorem reads_feePolicy : Reads decodeFeePolicy encodeFeePolicy := by
  intro policy
  apply record_of_members
  · apply members_next reads_word rfl rfl
    apply members_next reads_word rfl rfl
    apply members_next reads_word rfl rfl
    exact members_done
  · rfl

theorem reads_stackLimits : Reads decodeStackLimits encodeStackLimits := by
  intro limits
  apply record_of_members
  · apply members_next reads_word rfl rfl
    apply members_next reads_word rfl rfl
    exact members_done
  · rfl

theorem reads_config : Reads decodeConfig encodeConfig := by
  intro config
  apply record_of_members
  · apply members_next reads_feePolicy rfl rfl
    apply members_next reads_stackLimits rfl rfl
    exact members_done
  · rfl

/-- Decoding undoes encoding, for everything that is stored, and in both layouts. A configuration
that was saved is loaded as it was. -/
theorem round_trip (layout : Layout) :
    (∀ tx, decodeTransaction.run ((encodeTransaction tx).write layout).toList = .ok tx) ∧
    (∀ entries,
      decodeUnspentList.run ((encodeUnspentList entries).write layout).toList = .ok entries) ∧
    (∀ config, decodeConfig.run ((encodeConfig config).write layout).toList = .ok config) ∧
    ∀ config : Config, Config.load (some config.save) = .ok config := by
  refine ⟨reads_transaction.run layout, reads_unspentList.run layout, reads_config.run layout,
    fun config => ?_⟩
  rw [Config.load, Config.save, reads_config.run .indented config]
  rfl

end Wire

end UtxoLedger
