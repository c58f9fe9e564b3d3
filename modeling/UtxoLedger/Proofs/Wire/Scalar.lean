import UtxoLedger.Proofs.Json.Decoder
import UtxoLedger.Wire.Scalar

/-!
# Scalars come back from the wire

Every scalar is read as what was written for it: texts for digests, byte strings and amounts,
plain numbers for the words of a configuration, for ages and for the two type codes.
-/
namespace UtxoLedger.Wire

open Json

theorem reads_digest : Reads decodeDigest encodeDigest := by
  intro digest
  simp [decodeDigest, encodeDigest, Except.mapError_ok_iff]

theorem reads_bytes : Reads decodeBytes encodeBytes := by
  intro bytes
  simp [decodeBytes, encodeBytes, readBytes, Except.mapError_ok_iff]

theorem reads_amount : Reads decodeAmount encodeAmount := by
  intro amount
  simp [decodeAmount, encodeAmount, Except.mapError_ok_iff]

theorem reads_word : Reads decodeWord encodeWord := by
  intro word
  have below := word.toNat_lt_size
  simp [decodeWord, encodeWord, below, Except.map]

theorem reads_age : Reads decodeAge encodeAge := by
  intro age
  have below := age.toNat_lt_size
  simp [decodeAge, encodeAge, below, Except.map]

theorem reads_lockType : Reads decodeLockType encodeLockType := by
  intro kind
  have below := kind.code.toNat_lt_size
  rw [decodeLockType, encodeLockType, Decoder.refine, natural_reading below]
  cases kind <;> rfl

theorem reads_outputType : Reads decodeOutputType encodeOutputType := by
  intro kind
  have below := kind.code.toNat_lt_size
  rw [decodeOutputType, encodeOutputType, Decoder.refine, natural_reading below]
  cases kind <;> rfl

end UtxoLedger.Wire
