import UtxoLedger.Digest

/-!
# Contributions to a hash

A record that takes part in an identity writes its fields, in a fixed order, as
bytes; the digest of the record is the digest of those bytes. What a record
writes is kept apart from how it is hashed, so that what an identity commits to
can be said without a word about the hash. Sequences write their elements and
no length.
-/
namespace UtxoLedger

/-- The bytes that a value adds to a hash. An instance fixes the order and the width of its
fields. -/
class Contributes (α : Type) where
  contribution : α → Bytes

export Contributes (contribution)

instance : Contributes UInt8 := ⟨fun value => [value]⟩
instance : Contributes UInt16 := ⟨fun value => Bytes.littleEndian 2 value.toNat⟩
instance : Contributes UInt32 := ⟨fun value => Bytes.littleEndian 4 value.toNat⟩
instance : Contributes UInt64 := ⟨fun value => Bytes.littleEndian 8 value.toNat⟩
instance : Contributes Int32 := ⟨fun value => contribution value.toUInt32⟩
instance : Contributes Int64 := ⟨fun value => contribution value.toUInt64⟩
instance : Contributes Bool := ⟨fun value => [if value then 1 else 0]⟩
instance : Contributes String := ⟨fun text => text.toList.flatMap String.utf8EncodeChar⟩
instance : Contributes Digest := ⟨Digest.bytes⟩
instance {α : Type} [Contributes α] : Contributes (List α) := ⟨List.flatMap contribution⟩

theorem contribution_bytes (bytes : Bytes) : contribution bytes = bytes := by
  induction bytes with
  | nil => rfl
  | cons byte rest ih =>
    simp only [contribution, List.flatMap_cons] at ih ⊢
    rw [ih]
    rfl

namespace Digest

variable {α β : Type} [Contributes α] [Contributes β]

/-- What identifies a record: the digest of its own bytes. -/
def ofRecord (record : α) : Digest :=
  ofMessage (contribution record)

/-- An absent record has the null digest. -/
def ofOption : Option α → Digest
  | some record => ofRecord record
  | none => null

/-- Two records in one digest, the first in front. -/
def ofPair (first : α) (second : β) : Digest :=
  ofMessage (contribution first ++ contribution second)

/-- Names output `index` of the transaction with digest `transaction`. -/
def utxoKey (transaction : Digest) (index : UInt64) : Digest :=
  ofPair transaction index

end Digest

end UtxoLedger
