import UtxoLedger.Bytes

/-!
# RIPEMD-160

Two lines of eighty steps run over the same block, in different orders and with
different functions and rotations, and are added to the state crosswise.
-/
namespace UtxoLedger.Ripemd160

/-- Five words that are carried from block to block. -/
structure State where
  a : UInt32
  b : UInt32
  c : UInt32
  d : UInt32
  e : UInt32

def initial : State :=
  ⟨0x67452301, 0xefcdab89, 0x98badcfe, 0x10325476, 0xc3d2e1f0⟩

/-- Sixteen steps share one function and one constant, and name a word and a rotation each. -/
structure Stage where
  mixer : UInt32 → UInt32 → UInt32 → UInt32
  constant : UInt32
  words : List Nat
  rotations : List UInt32

/-- The bits that are set in one of the words or in all three. -/
def parity (x y z : UInt32) : UInt32 := x ^^^ y ^^^ z
/-- The first word says for each bit whether the second or the third one is taken. -/
def choose (x y z : UInt32) : UInt32 := (x &&& y) ||| (x.complement &&& z)
def orNot (x y z : UInt32) : UInt32 := (x ||| y.complement) ^^^ z
/-- The third word says for each bit whether the first or the second one is taken. -/
def chooseBy (x y z : UInt32) : UInt32 := (x &&& z) ||| (y &&& z.complement)
def notOr (x y z : UInt32) : UInt32 := x ^^^ (y ||| z.complement)

def leftLine : List Stage :=
  [⟨parity, 0x00000000,
    [0, 1, 2, 3, 4, 5, 6, 7, 8, 9, 10, 11, 12, 13, 14, 15],
    [11, 14, 15, 12, 5, 8, 7, 9, 11, 13, 14, 15, 6, 7, 9, 8]⟩,
   ⟨choose, 0x5a827999,
    [7, 4, 13, 1, 10, 6, 15, 3, 12, 0, 9, 5, 2, 14, 11, 8],
    [7, 6, 8, 13, 11, 9, 7, 15, 7, 12, 15, 9, 11, 7, 13, 12]⟩,
   ⟨orNot, 0x6ed9eba1,
    [3, 10, 14, 4, 9, 15, 8, 1, 2, 7, 0, 6, 13, 11, 5, 12],
    [11, 13, 6, 7, 14, 9, 13, 15, 14, 8, 13, 6, 5, 12, 7, 5]⟩,
   ⟨chooseBy, 0x8f1bbcdc,
    [1, 9, 11, 10, 0, 8, 12, 4, 13, 3, 7, 15, 14, 5, 6, 2],
    [11, 12, 14, 15, 14, 15, 9, 8, 9, 14, 5, 6, 8, 6, 5, 12]⟩,
   ⟨notOr, 0xa953fd4e,
    [4, 0, 5, 9, 7, 12, 2, 10, 14, 1, 3, 8, 11, 6, 15, 13],
    [9, 15, 5, 11, 6, 8, 13, 12, 5, 12, 13, 14, 11, 8, 5, 6]⟩]

/-- The stages of the right line, which takes the mixers in the other order. -/
def rightLine : List Stage :=
  [⟨notOr, 0x50a28be6,
    [5, 14, 7, 0, 9, 2, 11, 4, 13, 6, 15, 8, 1, 10, 3, 12],
    [8, 9, 9, 11, 13, 15, 15, 5, 7, 7, 8, 11, 14, 14, 12, 6]⟩,
   ⟨chooseBy, 0x5c4dd124,
    [6, 11, 3, 7, 0, 13, 5, 10, 14, 15, 8, 12, 4, 9, 1, 2],
    [9, 13, 15, 7, 12, 8, 9, 11, 7, 7, 12, 7, 6, 15, 13, 11]⟩,
   ⟨orNot, 0x6d703ef3,
    [15, 5, 1, 3, 7, 14, 6, 9, 11, 8, 12, 2, 10, 0, 4, 13],
    [9, 7, 15, 11, 8, 6, 6, 14, 12, 13, 5, 14, 13, 13, 7, 5]⟩,
   ⟨choose, 0x7a6d76e9,
    [8, 6, 4, 1, 3, 11, 15, 0, 5, 12, 2, 13, 9, 7, 10, 14],
    [15, 5, 8, 11, 14, 14, 6, 14, 6, 9, 12, 9, 12, 5, 15, 8]⟩,
   ⟨parity, 0x00000000,
    [12, 15, 10, 4, 1, 5, 8, 7, 6, 2, 13, 14, 0, 3, 9, 11],
    [8, 5, 12, 9, 12, 5, 14, 6, 8, 13, 6, 5, 15, 13, 11, 11]⟩]

def rotateLeft (word : UInt32) (count : UInt32) : UInt32 :=
  (word <<< count) ||| (word >>> (32 - count))

/-- The sixteen steps of a stage. Each step moves every word on by one place. -/
def Stage.run (block : List UInt32) (s : State) (stage : Stage) : State :=
  (stage.words.zip stage.rotations).foldl (fun s (word, rotation) =>
    let sum := s.a + stage.mixer s.b s.c s.d + block.getD word 0 + stage.constant
    ⟨s.e, rotateLeft sum rotation + s.e, s.b, rotateLeft s.c 10, s.d⟩) s

/-- Both lines start from the same state. -/
def compress (s : State) (block : Bytes) : State :=
  let words := (block.blocks 4).map fun word => UInt32.ofNat (Bytes.ofLittleEndian word)
  let left := leftLine.foldl (Stage.run words) s
  let right := rightLine.foldl (Stage.run words) s
  ⟨s.b + left.c + right.d, s.c + left.d + right.e, s.d + left.e + right.a,
   s.e + left.a + right.b, s.a + left.b + right.c⟩

/-- A one bit, zeros, and the length in bits, up to a multiple of 64 bytes. -/
def padding (length : Nat) : Bytes :=
  0x80 :: List.replicate ((119 - length % 64) % 64) 0 ++ Bytes.littleEndian 8 (length * 8)

def hash (message : Bytes) : Bytes :=
  let final := ((message ++ padding message.length).blocks 64).foldl compress initial
  [final.a, final.b, final.c, final.d, final.e].flatMap fun word =>
    Bytes.littleEndian 4 word.toNat

theorem hash_length (message : Bytes) : (hash message).length = 20 := by
  simp [hash, Bytes.littleEndian_length]

end UtxoLedger.Ripemd160
