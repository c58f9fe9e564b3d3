import UtxoLedger.Bytes
import UtxoLedger.Curve.Point

/-!
# Signatures over secp256k1

A signature is a pair of numbers below the group order, written as 64 bytes. Of
the two second halves that would fit a message only the smaller one is produced,
and only the smaller one is accepted.
-/
namespace UtxoLedger.Curve

/-- The x coordinate of a nonce, and the number that binds it to a key and a message. -/
structure Signature where
  r : Nat
  s : Nat
  deriving DecidableEq, Repr

namespace Signature

/-- Either half in 32 bytes, most significant byte first. -/
def toBytes (signature : Signature) : Bytes :=
  Bytes.bigEndian 32 signature.r ++ Bytes.bigEndian 32 signature.s

/-- Refuses another length than 64 bytes and numbers that are not below the group order. -/
def ofBytes? (bytes : Bytes) : Option Signature :=
  let r := Bytes.ofBigEndian (bytes.take 32)
  let s := Bytes.ofBigEndian (bytes.drop 32)
  if bytes.length = 64 ∧ r < groupOrder ∧ s < groupOrder then some ⟨r, s⟩ else none

/-- Neither half may be zero, and the second one has to be the smaller of the two that fit. -/
def verifies (signature : Signature) (publicKey : Point) (message : Bytes) : Bool :=
  if signature.r = 0 ∨ signature.s = 0 ∨ signature.s > groupOrder / 2 then false
  else
    -- The sum is the point of the nonce, of which the signature keeps only x.
    let inverse := Modular.inverse groupOrder signature.s
    let hashed := Bytes.ofBigEndian message * inverse % groupOrder
    let keyed := signature.r * inverse % groupOrder
    let sum := (Jacobian.scale hashed (.ofPoint .generator)).add
      (Jacobian.scale keyed (.ofPoint publicKey))
    match sum.toPoint? with
    | some point => point.x % groupOrder = signature.r
    | none => false

/-- Signs with the secret nonce `nonce`; a nonce for which either half vanishes is of no use. -/
def ofNonce? (secret nonce : Nat) (message : Bytes) : Option Signature :=
  if nonce = 0 ∨ nonce ≥ groupOrder then none
  else
    match Point.generator.scale? nonce with
    | none => none
    | some point =>
      let r := point.x % groupOrder
      let s := Modular.inverse groupOrder nonce * (Bytes.ofBigEndian message + r * secret)
        % groupOrder
      if r = 0 ∨ s = 0 then none
      -- The negative of s would verify too; the smaller of the two is taken.
      else some ⟨r, if s > groupOrder / 2 then groupOrder - s else s⟩

end Signature

end UtxoLedger.Curve
