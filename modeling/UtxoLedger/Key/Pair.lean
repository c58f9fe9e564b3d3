import UtxoLedger.Key.Scheme
import UtxoLedger.Text.Hex
import UtxoLedger.Text.Blank
import UtxoLedger.Text.Base58
import UtxoLedger.Hash.Ripemd160

/-!
# Key pairs and addresses

A key pair is its secret key; the public key follows from it. Private and public
keys travel as hexadecimal digits, and a public key is shown to people as an
address: the hash of its bytes with a version byte and a checksum, in base 58.
-/
namespace UtxoLedger

/-- A secret key of the scheme, next to which the public key need not be kept. -/
structure KeyPair (S : SignatureScheme) where
  secret : S.SecretKey

/-- A public key in the form that people copy. -/
def address {S : SignatureScheme} (key : S.PublicKey) : String :=
  let body := 0 :: Ripemd160.hash (Sha256.hash (S.publicBytes key))
  let checksum := (Sha256.hash (Sha256.hash body)).take 4
  String.ofList (Base58.encode (body ++ checksum))

/-- Whatever is wrong with the digits or with what they write is one and the same error. -/
def publicKeyOfHex (S : SignatureScheme) (text : String) : Except KeyError S.PublicKey :=
  match Hex.toBytes text with
  | .error _ => .error .invalidPublicKey
  | .ok bytes => S.readPublicKey bytes

namespace KeyPair

variable {S : SignatureScheme}

/-- A new key pair from the first share of random bytes. -/
def generate (entropy : Entropy) : KeyPair S :=
  ⟨S.secretOfEntropy (entropy 0)⟩

/-- The pair of a private key in digits. What is wrong with the digits is not told apart. -/
def ofHex (S : SignatureScheme) (text : List Char) : Except KeyError (KeyPair S) :=
  match Hex.decode text with
  | .error _ => .error .invalidPrivateKey
  | .ok bytes =>
    match S.secretOfBytes? bytes with
    | some secret => .ok ⟨secret⟩
    | none => .error .invalidPrivateKey

/-- The secret key in digits, which give the pair away. -/
def privateHex (pair : KeyPair S) : List Char :=
  Hex.encode (S.secretBytes pair.secret)

def publicKey (pair : KeyPair S) : S.PublicKey :=
  S.publicKey pair.secret

def publicBytes (pair : KeyPair S) : Bytes :=
  S.publicBytes pair.publicKey

def publicHex (pair : KeyPair S) : String :=
  Hex.ofBytes pair.publicBytes

def address (pair : KeyPair S) : String :=
  UtxoLedger.address pair.publicKey

/-- Signs a message of any length, which is hashed unless it has 32 bytes. -/
def sign (pair : KeyPair S) (message extra : Bytes) : Except KeyError Bytes := do
  let reduced ← SignatureScheme.readMessage message
  return S.sign pair.secret reduced extra

theorem sign_eq (pair : KeyPair S) (message extra : Bytes) :
    pair.sign message extra = .ok (S.sign pair.secret (SignatureScheme.reduce message) extra) := by
  rw [sign, SignatureScheme.readMessage_eq]
  rfl

/-- Checks a signature against the public key of the pair. -/
def verify (pair : KeyPair S) (message signature : Bytes) : Except KeyError Bool :=
  S.verify pair.publicKey message signature

/-- The public half only. -/
def describe (pair : KeyPair S) : String :=
  "KeyPair \x7b public_key: \"" ++ pair.publicHex ++ "\", .. \x7d"

end KeyPair

/-- The parts of a text between commas; there is always at least one. -/
def commaParts : List Char → List (List Char)
  | [] => [[]]
  | ',' :: rest => [] :: commaParts rest
  | c :: rest =>
    match commaParts rest with
    | part :: parts => (c :: part) :: parts
    | [] => [[c]]

/-- Private keys between commas. Blanks around a key do not count, and neither do blank parts. -/
def keyPairsOfText (S : SignatureScheme) (text : List Char) : Except KeyError (List (KeyPair S)) :=
  (((commaParts text).map Text.trim).filter fun part => !part.isEmpty).mapM (KeyPair.ofHex S)

end UtxoLedger
