import UtxoLedger.Bytes

/-!
# SHA-256

The message schedule is a window of sixteen words that slides by one word each
round, so a round needs only its constant and the head of the window.
-/
namespace UtxoLedger.Sha256

/-- One constant for each of the 64 rounds. -/
def roundConstants : List UInt32 :=
  [0x428a2f98, 0x71374491, 0xb5c0fbcf, 0xe9b5dba5, 0x3956c25b, 0x59f111f1, 0x923f82a4, 0xab1c5ed5,
   0xd807aa98, 0x12835b01, 0x243185be, 0x550c7dc3, 0x72be5d74, 0x80deb1fe, 0x9bdc06a7, 0xc19bf174,
   0xe49b69c1, 0xefbe4786, 0x0fc19dc6, 0x240ca1cc, 0x2de92c6f, 0x4a7484aa, 0x5cb0a9dc, 0x76f988da,
   0x983e5152, 0xa831c66d, 0xb00327c8, 0xbf597fc7, 0xc6e00bf3, 0xd5a79147, 0x06ca6351, 0x14292967,
   0x27b70a85, 0x2e1b2138, 0x4d2c6dfc, 0x53380d13, 0x650a7354, 0x766a0abb, 0x81c2c92e, 0x92722c85,
   0xa2bfe8a1, 0xa81a664b, 0xc24b8b70, 0xc76c51a3, 0xd192e819, 0xd6990624, 0xf40e3585, 0x106aa070,
   0x19a4c116, 0x1e376c08, 0x2748774c, 0x34b0bcb5, 0x391c0cb3, 0x4ed8aa4a, 0x5b9cca4f, 0x682e6ff3,
   0x748f82ee, 0x78a5636f, 0x84c87814, 0x8cc70208, 0x90befffa, 0xa4506ceb, 0xbef9a3f7, 0xc67178f2]

/-- Eight words that are carried from block to block. -/
structure State where
  a : UInt32
  b : UInt32
  c : UInt32
  d : UInt32
  e : UInt32
  f : UInt32
  g : UInt32
  h : UInt32

def initial : State :=
  ⟨0x6a09e667, 0xbb67ae85, 0x3c6ef372, 0xa54ff53a,
   0x510e527f, 0x9b05688c, 0x1f83d9ab, 0x5be0cd19⟩

def rotateRight (word : UInt32) (count : UInt32) : UInt32 :=
  (word >>> count) ||| (word <<< (32 - count))

/-- Drops the head of the window and appends the next word of the schedule. -/
def slide (window : List UInt32) : List UInt32 :=
  let near := window.getD 1 0
  let far := window.getD 14 0
  let mixedNear := rotateRight near 7 ^^^ rotateRight near 18 ^^^ (near >>> 3)
  let mixedFar := rotateRight far 17 ^^^ rotateRight far 19 ^^^ (far >>> 10)
  window.tail ++ [window.headD 0 + mixedNear + window.getD 9 0 + mixedFar]

/-- Two of the eight words are new after a round, the others move on. -/
def round (s : State) (constant word : UInt32) : State :=
  let choice := (s.e &&& s.f) ^^^ (s.e.complement &&& s.g)
  let majority := (s.a &&& s.b) ^^^ (s.a &&& s.c) ^^^ (s.b &&& s.c)
  let low := rotateRight s.e 6 ^^^ rotateRight s.e 11 ^^^ rotateRight s.e 25
  let high := rotateRight s.a 2 ^^^ rotateRight s.a 13 ^^^ rotateRight s.a 22
  let first := s.h + low + choice + constant + word
  ⟨first + high + majority, s.a, s.b, s.c, s.d + first, s.e, s.f, s.g⟩

def compress (s : State) (block : Bytes) : State :=
  -- The block is the window of the first round; sliding makes the other words.
  let window := (block.blocks 4).map fun word => UInt32.ofNat (Bytes.ofBigEndian word)
  let mixed := (roundConstants.foldl
    (fun (state, window) constant => (round state constant (window.headD 0), slide window))
    (s, window)).1
  ⟨s.a + mixed.a, s.b + mixed.b, s.c + mixed.c, s.d + mixed.d,
   s.e + mixed.e, s.f + mixed.f, s.g + mixed.g, s.h + mixed.h⟩

/-- A one bit, zeros, and the length in bits, up to a multiple of 64 bytes. -/
def padding (length : Nat) : Bytes :=
  0x80 :: List.replicate ((119 - length % 64) % 64) 0 ++ Bytes.bigEndian 8 (length * 8)

def State.words (s : State) : List UInt32 :=
  [s.a, s.b, s.c, s.d, s.e, s.f, s.g, s.h]

def hash (message : Bytes) : Bytes :=
  let final := ((message ++ padding message.length).blocks 64).foldl compress initial
  final.words.flatMap fun word => Bytes.bigEndian 4 word.toNat

theorem hash_length (message : Bytes) : (hash message).length = 32 := by
  simp [hash, State.words, Bytes.bigEndian_length]

/-- Keyed hashing with a 64-byte block, for keys no longer than a block. -/
def keyed (key message : Bytes) : Bytes :=
  let block := key ++ List.replicate (64 - key.length) 0
  let inner := hash (block.map (· ^^^ 0x36) ++ message)
  hash (block.map (· ^^^ 0x5c) ++ inner)

end UtxoLedger.Sha256
