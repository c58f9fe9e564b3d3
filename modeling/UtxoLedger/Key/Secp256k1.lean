import UtxoLedger.Curve.Nonce
import UtxoLedger.Key.Scheme

/-!
# Signature keys on secp256k1

A secret key is a number from 1 to the group order less one, in 32 bytes. A public
key is a point, written in 33 bytes: the parity of y and the whole of x. Reading
also takes 65 bytes with both coordinates, which may repeat the parity.
-/
namespace UtxoLedger

/-- A number by which the generator is multiplied. -/
structure SecretScalar where
  value : Nat
  positive : 0 < value
  below : value < Curve.groupOrder

namespace SecretScalar

/-- Refuses another length than 32 bytes, zero, and numbers from the group order on. -/
def ofBytes? (bytes : Bytes) : Option SecretScalar :=
  let value := Bytes.ofBigEndian bytes
  if h : bytes.length = 32 ∧ 0 < value ∧ value < Curve.groupOrder then
    some ⟨value, h.2.1, h.2.2⟩
  else none

def toBytes (secret : SecretScalar) : Bytes :=
  Bytes.bigEndian 32 secret.value

/-- With more than 32 random bytes the remainder is as good as uniform. -/
def ofEntropy (random : Bytes) : SecretScalar where
  value := Bytes.ofBigEndian random % (Curve.groupOrder - 1) + 1
  positive := Nat.succ_pos _
  below := by
    have bound := Nat.mod_lt (Bytes.ofBigEndian random)
      (show 0 < Curve.groupOrder - 1 by decide)
    have order : Curve.groupOrder - 1 + 1 = Curve.groupOrder := by decide
    omega

end SecretScalar

namespace Curve.Point

/-- The compressed form, which leaves out all of y but its parity. -/
def toBytes (point : Point) : Bytes :=
  (if point.y % 2 = 0 then 2 else 3) :: Bytes.bigEndian 32 point.x

/-- Reads every form. A point that is not on the curve is refused in all of them. -/
def ofBytes? (bytes : Bytes) : Option Point :=
  match bytes with
  | [] => none
  | mark :: rest =>
    let x := Bytes.ofBigEndian (rest.take 32)
    let y := Bytes.ofBigEndian (rest.drop 32)
    if rest.length = 32 then
      if mark = 2 ∨ mark = 3 then ofX? x (mark = 3) else none
    else if rest.length = 64 then
      let parityFits := mark = 4 ∨ (mark = 6 ∧ y % 2 = 0) ∨ (mark = 7 ∧ y % 2 = 1)
      if parityFits ∧ isValid ⟨x, y⟩ then some ⟨x, y⟩ else none
    else none

end Curve.Point

/-- A valid secret never leads to the neutral element, so the fallback stands for no key. -/
def secp256k1 : SignatureScheme where
  SecretKey := SecretScalar
  PublicKey := Curve.Point
  publicKeyEq := inferInstance
  publicKey secret := (Curve.Point.generator.scale? secret.value).getD ⟨0, 0⟩
  secretOfBytes? := SecretScalar.ofBytes?
  secretBytes := SecretScalar.toBytes
  secretOfEntropy := SecretScalar.ofEntropy
  publicOfBytes? := Curve.Point.ofBytes?
  publicBytes := Curve.Point.toBytes
  sign secret message extra := (Curve.sign secret.value message extra).toBytes
  verify? key message signature :=
    (Curve.Signature.ofBytes? signature).map fun signature => signature.verifies key message

end UtxoLedger
