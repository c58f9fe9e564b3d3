import UtxoLedger.Bytes

/-!
# BLAKE2b with a 512-bit output

Unkeyed. Every block is compressed together with the number of message bytes up
to its end; only the last block, which is filled up with zeros, is marked as such.
-/
namespace UtxoLedger.Blake2b

/-- The constants of the state, which enter every block once more. -/
def initial : Vector UInt64 8 :=
  #v[0x6a09e667f3bcc908, 0xbb67ae8584caa73b, 0x3c6ef372fe94f82b, 0xa54ff53a5f1d36f1,
   0x510e527fade682d1, 0x9b05688c2b3e6c1f, 0x1f83d9abfb41bd6b, 0x5be0cd19137e2179]

/-- The order in which a round takes the message words; ten orders, used in turn. -/
def orders : List (List (Fin 16)) :=
  [[0, 1, 2, 3, 4, 5, 6, 7, 8, 9, 10, 11, 12, 13, 14, 15],
   [14, 10, 4, 8, 9, 15, 13, 6, 1, 12, 0, 2, 11, 7, 5, 3],
   [11, 8, 12, 0, 5, 2, 15, 13, 10, 14, 3, 6, 7, 1, 9, 4],
   [7, 9, 3, 1, 13, 12, 11, 14, 2, 6, 5, 10, 4, 0, 15, 8],
   [9, 0, 5, 7, 2, 4, 10, 15, 14, 1, 11, 12, 6, 8, 3, 13],
   [2, 12, 6, 10, 0, 11, 8, 3, 4, 13, 7, 5, 15, 14, 1, 9],
   [12, 5, 1, 15, 14, 13, 4, 10, 0, 7, 6, 3, 9, 2, 8, 11],
   [13, 11, 7, 14, 12, 1, 3, 9, 5, 0, 15, 4, 8, 6, 2, 10],
   [6, 15, 14, 9, 11, 3, 0, 8, 12, 2, 13, 7, 1, 4, 10, 5],
   [10, 2, 8, 4, 7, 6, 1, 5, 15, 11, 9, 14, 3, 12, 13, 0]]

/-- The four words that each of a round's eight mixing steps works on: columns, then diagonals. -/
def lanes : List (Fin 16 × Fin 16 × Fin 16 × Fin 16) :=
  [(0, 4, 8, 12), (1, 5, 9, 13), (2, 6, 10, 14), (3, 7, 11, 15),
   (0, 5, 10, 15), (1, 6, 11, 12), (2, 7, 8, 13), (3, 4, 9, 14)]

def rotateRight (word : UInt64) (count : UInt64) : UInt64 :=
  (word >>> count) ||| (word <<< (64 - count))

/-- Two message words enter four words of the state, and each of the four depends on the others. -/
def mix (v : Vector UInt64 16) (a b c d : Fin 16) (x y : UInt64) : Vector UInt64 16 :=
  let a₁ := v[a] + v[b] + x
  let d₁ := rotateRight (v[d] ^^^ a₁) 32
  let c₁ := v[c] + d₁
  let b₁ := rotateRight (v[b] ^^^ c₁) 24
  let a₂ := a₁ + b₁ + y
  let d₂ := rotateRight (d₁ ^^^ a₂) 16
  let c₂ := c₁ + d₂
  let b₂ := rotateRight (b₁ ^^^ c₂) 63
  (((v.set a a₂).set b b₂).set c c₂).set d d₂

/-- Each mixing step takes the next two message words of the round's order. -/
def round (message v : Vector UInt64 16) (order : List (Fin 16)) : Vector UInt64 16 :=
  (lanes.foldl (fun (v, order) (a, b, c, d) =>
    match order with
    | first :: second :: rest => (mix v a b c d message[first] message[second], rest)
    | _ => (v, order)) (v, order)).1

/-- One block enters the state. `count` tells how many bytes there are up to its end. -/
def compress (h : Vector UInt64 8) (message : Vector UInt64 16) (count : Nat) (last : Bool) :
    Vector UInt64 8 :=
  -- The count is a number of two words.
  let low := UInt64.ofNat count
  let high := UInt64.ofNat (count / UInt64.size)
  let tail := ((initial.set 4 (initial[4] ^^^ low)).set 5 (initial[5] ^^^ high)).set 6
    (if last then initial[6].complement else initial[6])
  -- Twelve rounds, so the first two orders come twice.
  let v := (orders ++ orders.take 2).foldl (round message) (h ++ tail)
  Vector.ofFn fun i : Fin 8 => h[i] ^^^ v[i.val] ^^^ v[i.val + 8]

/-- The words of a block, with zeros for what it is short of. -/
def blockWords (block : Bytes) : Vector UInt64 16 :=
  Vector.ofFn fun i => UInt64.ofNat (Bytes.ofLittleEndian ((block.drop (8 * i.val)).take 8))

/-- Compresses the blocks in turn; the empty message is one block of zeros. -/
def absorb (h : Vector UInt64 8) (count : Nat) : List Bytes → Vector UInt64 8
  | [] => compress h (blockWords []) count true
  | [block] => compress h (blockWords block) (count + block.length) true
  | block :: rest =>
    absorb (compress h (blockWords block) (count + block.length) false) (count + block.length) rest

/-- The state holds the output length, 64 bytes, before anything is absorbed. -/
def hash (message : Bytes) : Bytes :=
  let start := initial.set 0 (initial[0] ^^^ 0x01010040)
  (absorb start 0 (message.blocks 128)).toList.flatMap fun word => Bytes.littleEndian 8 word.toNat

theorem hash_length (message : Bytes) : (hash message).length = 64 := by
  simp [hash, Bytes.littleEndian_length, List.map_const']

end UtxoLedger.Blake2b
