import UtxoLedger.Curve.Signature
import UtxoLedger.Hash.Sha256

/-!
# Secret nonces

Nonces come from a generator that is seeded with the secret key, the message and
extra data. The same seed gives the same nonces; fresh extra data gives fresh ones,
and so a fresh signature of the same message.
-/
namespace UtxoLedger.Curve

/-- The state of the generator. Both halves change with everything that is fed to it. -/
structure Generator where
  key : Bytes
  value : Bytes

namespace Generator

/-- Feeds data to both halves of the state. -/
def rekey (generator : Generator) (data : Bytes) : Generator :=
  let key := Sha256.keyed generator.key (generator.value ++ data)
  ⟨key, Sha256.keyed key generator.value⟩

/-- Feeds the same data twice to a fixed state, behind a byte that differs. -/
def seed (data : Bytes) : Generator :=
  let start : Generator := ⟨List.replicate 32 0, List.replicate 32 1⟩
  (start.rekey (0 :: data)).rekey (1 :: data)

def next (generator : Generator) : Generator :=
  { generator with value := Sha256.keyed generator.key generator.value }

end Generator

/-- Signs with the first nonce that is of use. After so many useless ones in a row, which is out
of the question, the result is a pair of zeros, which verifies under no key. -/
def signFrom (secret : Nat) (message : Bytes) : Nat → Generator → Signature
  | 0, _ => ⟨0, 0⟩
  | attempts + 1, generator =>
    let drawn := generator.next
    match Signature.ofNonce? secret (Bytes.ofBigEndian drawn.value) message with
    | some signature => signature
    | none => signFrom secret message attempts (drawn.rekey [0])

/-- The signature depends on the secret, the message and the extra data, and on nothing else. -/
def sign (secret : Nat) (message extra : Bytes) : Signature :=
  signFrom secret message 64 (.seed (Bytes.bigEndian 32 secret ++ message ++ extra))

end UtxoLedger.Curve
