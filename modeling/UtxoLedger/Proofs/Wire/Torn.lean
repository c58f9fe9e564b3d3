import UtxoLedger.Proofs.Json.Remnant
import UtxoLedger.Proofs.Wire.Record

/-!
# Torn records are refused

A text that breaks off is never read as a shorter record of the same kind. Texts and type codes
refuse to be torn, and so does every record and every list, whatever its last part is. So of a
transaction, of a list of unspent outputs and of a configuration, in either layout, no beginning is
read, and what is reported is that the text has ended.
-/
namespace UtxoLedger

namespace Wire

open Json Text

theorem refuses_digest : Refuses decodeDigest encodeDigest :=
  fun _ _ remnant => string_remnant remnant _

theorem refuses_bytes : Refuses decodeBytes encodeBytes :=
  fun _ _ remnant => string_remnant remnant _

theorem refuses_amount : Refuses decodeAmount encodeAmount :=
  fun _ _ remnant => string_remnant remnant _

theorem tolerates_word : Tolerates decodeWord encodeWord :=
  tolerates_natural UInt64.toNat_lt_size UInt64.ofNat

theorem tolerates_age : Tolerates decodeAge encodeAge :=
  tolerates_natural UInt32.toNat_lt_size UInt32.ofNat

theorem refuses_lockType : Refuses decodeLockType encodeLockType := by
  have single (kind : LockType) : kind.code.toNat < 10 := by cases kind <;> decide
  exact refuses_digit (fun kind => kind.code.toNat_lt_size) single _

theorem refuses_outputType : Refuses decodeOutputType encodeOutputType := by
  have single (kind : OutputType) : kind.code.toNat < 10 := by cases kind <;> decide
  exact refuses_digit (fun kind => kind.code.toNat_lt_size) single _

theorem refuses_lock : Refuses decodeLock encodeLock := by
  intro lock reading
  apply record_of_refuses
  apply refuses_next reads_lockType refuses_lockType.tolerates rfl rfl
  apply refuses_next reads_bytes refuses_bytes.tolerates rfl rfl
  exact refuses_done

theorem refuses_unlock : Refuses decodeUnlock encodeUnlock := by
  intro unlock reading
  apply record_of_refuses
  apply refuses_next reads_bytes refuses_bytes.tolerates rfl rfl
  exact refuses_done

theorem refuses_input : Refuses decodeInput encodeInput := by
  intro input reading
  apply record_of_refuses
  apply refuses_next reads_digest refuses_digest.tolerates rfl rfl
  apply refuses_next reads_unlock refuses_unlock.tolerates rfl rfl
  apply refuses_next reads_age tolerates_age rfl rfl
  exact refuses_done

theorem refuses_output : Refuses decodeOutput encodeOutput := by
  intro output reading
  apply record_of_refuses
  apply refuses_next reads_outputType refuses_outputType.tolerates rfl rfl
  apply refuses_next reads_amount refuses_amount.tolerates rfl rfl
  apply refuses_next reads_lock refuses_lock.tolerates rfl rfl
  exact refuses_done

theorem refuses_transaction : Refuses decodeTransaction encodeTransaction := by
  intro tx reading
  apply record_of_refuses
  apply refuses_next reads_input.list (refuses_input.tolerates.list reads_input).tolerates rfl rfl
  apply refuses_next reads_output.list (refuses_output.tolerates.list reads_output).tolerates rfl
    rfl
  apply refuses_next reads_bytes refuses_bytes.tolerates rfl rfl
  apply refuses_next reads_amount refuses_amount.tolerates rfl rfl
  exact refuses_done

theorem refuses_unspent : Refuses decodeUnspent encodeUnspent := by
  intro entry reading
  apply record_of_refuses
  apply refuses_next reads_digest refuses_digest.tolerates rfl rfl
  apply refuses_next reads_outputType refuses_outputType.tolerates rfl rfl
  apply refuses_next reads_amount refuses_amount.tolerates rfl rfl
  apply refuses_next reads_amount refuses_amount.tolerates rfl rfl
  apply refuses_next reads_lock refuses_lock.tolerates rfl rfl
  exact refuses_done

theorem refuses_unspentList : Refuses decodeUnspentList encodeUnspentList :=
  refuses_unspent.tolerates.list reads_unspent

theorem refuses_feePolicy : Refuses decodeFeePolicy encodeFeePolicy := by
  intro policy reading
  apply record_of_refuses
  apply refuses_next reads_word tolerates_word rfl rfl
  apply refuses_next reads_word tolerates_word rfl rfl
  apply refuses_next reads_word tolerates_word rfl rfl
  exact refuses_done

theorem refuses_stackLimits : Refuses decodeStackLimits encodeStackLimits := by
  intro limits reading
  apply record_of_refuses
  apply refuses_next reads_word tolerates_word rfl rfl
  apply refuses_next reads_word tolerates_word rfl rfl
  exact refuses_done

theorem refuses_config : Refuses decodeConfig encodeConfig := by
  intro config reading
  apply record_of_refuses
  apply refuses_next reads_feePolicy refuses_feePolicy.tolerates rfl rfl
  apply refuses_next reads_stackLimits refuses_stackLimits.tolerates rfl rfl
  exact refuses_done

/-- Of what was written no beginning is read, not even the empty one; it is found to have ended too
early. A configuration file that is cut off is not loaded. -/
theorem truncated_refused (layout : Layout) :
    (∀ tx text, Torn text ((encodeTransaction tx).write layout).toList →
      decodeTransaction.run text = .error (.fault .truncated)) ∧
    (∀ entries text, Torn text ((encodeUnspentList entries).write layout).toList →
      decodeUnspentList.run text = .error (.fault .truncated)) ∧
    (∀ config text, Torn text ((encodeConfig config).write layout).toList →
      decodeConfig.run text = .error (.fault .truncated)) ∧
    ∀ (config : Config) (content : String), Torn content.toList config.save.toList →
      Config.load (some content) = .error (.content (.fault .truncated)) := by
  refine ⟨fun _ _ => refuses_transaction.run, fun _ _ => refuses_unspentList.run,
    fun _ _ => refuses_config.run, fun config content torn => ?_⟩
  rw [Config.load, refuses_config.run torn]
  rfl

/-- The texts end behind the bracket of a list, within a number that would do without its last
digit, and before they have begun. -/
theorem truncated_refused_within :
    let tx : Transaction := { inputs := [], outputs := [] }
    let config : Config := { fees := { feePerByte := 250 } }
    let opened := "\x7b\"inputs\":[".toList
    let shortened := "\x7b\"fees\":\x7b\"fee_per_byte\":25".toList
    (Torn opened ((encodeTransaction tx).write .compact).toList ∧
      decodeTransaction.run opened = .error (.fault .truncated)) ∧
    (Torn ['['] ((encodeUnspentList []).write .compact).toList ∧
      decodeUnspentList.run ['['] = .error (.fault .truncated)) ∧
    (Torn shortened ((encodeConfig config).write .compact).toList ∧
      decodeConfig.run shortened = .error (.fault .truncated)) ∧
    Torn "".toList config.save.toList ∧
      Config.load (some "") = .error (.content (.fault .truncated)) := by
  intro tx config opened shortened
  obtain ⟨transaction, list, configuration, load⟩ := truncated_refused .compact
  -- The characters are compared, not the encoded strings.
  have inputs : Torn opened ((encodeTransaction tx).write .compact).toList := by
    simp only [opened, Document.write, String.toList_ofList]
    decide +kernel
  have bracket : Torn ['['] ((encodeUnspentList []).write .compact).toList := by
    simp only [Document.write, String.toList_ofList]
    decide +kernel
  have number : Torn shortened ((encodeConfig config).write .compact).toList := by
    simp only [shortened, Document.write, String.toList_ofList]
    decide +kernel
  have empty : Torn "".toList config.save.toList := by
    simp only [Config.save, Document.write, String.toList_ofList]
    decide +kernel
  exact ⟨⟨inputs, transaction tx opened inputs⟩, ⟨bracket, list [] _ bracket⟩,
    ⟨number, configuration config shortened number⟩, empty, load config "" empty⟩

end Wire

end UtxoLedger
