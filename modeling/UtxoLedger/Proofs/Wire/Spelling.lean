import UtxoLedger.Proofs.Text.Spelling
import UtxoLedger.Proofs.Wire.Scalar

/-!
# Spellings on the wire

A string on the wire stands for an amount, or for bytes, exactly where its text spells them, however
the string itself is escaped. Of all spellings the plain one is what is written.
-/
namespace UtxoLedger.Wire

open Json

theorem string_ok_iff {α : Type} {read : List Char → Except ContentError α} {literal : Literal}
    {text : List Char} {value : α} (said : literal.text = .ok text) :
    Decoder.string read (.string literal) = .ok value ↔ read text = .ok value := by
  rw [Decoder.string, said]
  exact Except.mapError_ok_iff

theorem readBytes_ok_iff {text : List Char} {bytes : Bytes} :
    readBytes text = .ok bytes ↔ ∃ body, Hex.Unmarked text body ∧ Hex.Spells body bytes := by
  simp [readBytes, Hex.decode_ok_iff, Hex.unmarked_iff]

theorem decodeAmount_ok_iff {literal : Literal} {text : List Char} {amount : Amount}
    (said : literal.text = .ok text) :
    decodeAmount (.string literal) = .ok amount ↔ Decimal.Spells text amount.toNat := by
  rw [decodeAmount, string_ok_iff said, Except.mapError_ok_iff, Decimal.read_ok_iff]

theorem decodeBytes_ok_iff {literal : Literal} {text : List Char} {bytes : Bytes}
    (said : literal.text = .ok text) :
    decodeBytes (.string literal) = .ok bytes ↔
      ∃ body, Hex.Unmarked text body ∧ Hex.Spells body bytes := by
  rw [decodeBytes, string_ok_iff said, Except.mapError_ok_iff, readBytes_ok_iff]

/-- Amounts and bytes are decoded from their spellings and from nothing else. What was encoded is
decoded again, in either layout, and no other plain text is accepted for it. -/
theorem scalars_spelled :
    (∀ (literal : Literal) (text : List Char), literal.text = .ok text →
      (∀ amount, decodeAmount (.string literal) = .ok amount ↔
        Decimal.Spells text amount.toNat) ∧
      ∀ bytes, decodeBytes (.string literal) = .ok bytes ↔
        ∃ body, Hex.Unmarked text body ∧ Hex.Spells body bytes) ∧
    (∀ layout amount, decodeAmount.run ((encodeAmount amount).write layout).toList = .ok amount) ∧
    (∀ layout bytes, decodeBytes.run ((encodeBytes bytes).write layout).toList = .ok bytes) ∧
    (∀ amount text, encodeAmount amount = .string text ↔
      decodeAmount (.string (.ofText text)) = .ok amount ∧ Decimal.Plain text) ∧
    ∀ bytes text, encodeBytes bytes = .string text ↔
      decodeBytes (.string (.ofText text)) = .ok bytes ∧ Hex.Plain text := by
  refine ⟨fun literal text said => ⟨fun _ => decodeAmount_ok_iff said, fun _ =>
    decodeBytes_ok_iff said⟩, reads_amount.run, reads_bytes.run, fun amount text => ?_,
    fun bytes text => ?_⟩
  · rw [decodeAmount_ok_iff (Literal.text_ofText text), ← Decimal.eq_toDigits_iff, encodeAmount,
      Document.string.injEq, Decimal.write, eq_comm]
  · rw [encodeBytes, Document.string.injEq]
    constructor
    · rintro rfl
      have unmarked : Hex.Unmarked (Hex.encode bytes) (Hex.encode bytes) :=
        Hex.unmarked_iff.mpr (Hex.dropMark_encode bytes)
      have decoded := (decodeBytes_ok_iff (Literal.text_ofText _)).mpr
        ⟨_, unmarked, Hex.spells_encode bytes⟩
      exact ⟨decoded, Hex.plain_encode bytes⟩
    · rintro ⟨decoded, plain⟩
      obtain ⟨body, marked | ⟨same, -⟩, spelled⟩ :=
        (decodeBytes_ok_iff (Literal.text_ofText text)).mp decoded
      · exact absurd marked (plain.unmarked body)
      · rw [same] at plain ⊢
        exact (Hex.eq_encode_iff.mpr ⟨spelled, plain.small⟩).symm

/-- The largest amount behind a sign and zeros, and a byte in letters of both cases. -/
theorem scalars_spelled_padded :
    let amount : Literal := .ofText "+00018446744073709551615".toList
    let byte : Literal := .ofText "0xaB".toList
    (amount.text = .ok "+00018446744073709551615".toList ∧
      decodeAmount (.string amount) = .ok 18446744073709551615) ∧
    byte.text = .ok "0xaB".toList ∧ decodeBytes (.string byte) = .ok [0xab] := by
  intro amount byte
  have padded : amount.text = .ok "+00018446744073709551615".toList := Literal.text_ofText _
  have mixed : byte.text = .ok "0xaB".toList := Literal.text_ofText _
  have spelledAmount : Decimal.Spells "+00018446744073709551615".toList
      (18446744073709551615 : UInt64).toNat :=
    ⟨"00018446744073709551615".toList, .inr rfl, by simp, by simp, by decide⟩
  have spelledByte : Hex.Spells ['a', 'B'] [0xab] := by
    unfold Hex.Spells
    decide
  exact ⟨⟨padded, ((scalars_spelled.1 amount _ padded).1 _).mpr spelledAmount⟩, mixed,
    ((scalars_spelled.1 byte _ mixed).2 _).mpr ⟨['a', 'B'], .inl rfl, spelledByte⟩⟩

end UtxoLedger.Wire
