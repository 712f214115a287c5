/-
The hash function BLAKE3, in its plain mode.

The input is cut into chunks of 1024 bytes and a chunk into blocks of 64.  The
blocks of a chunk are compressed one after the other into a chaining value, and the
chaining values of the chunks are compressed in pairs, level by level, a value
without partner moving up as it is.  The last compression of all is marked as the
root.  Only the first 32 bytes of output are formed.
-/
namespace Verdict.Archive.Blake3

/-- A chaining value. -/
abbrev Chain := Vector UInt32 8

/-- A block of 64 bytes as words. -/
abbrev Block := Vector UInt32 16

/-- The chaining value in front of the first block. -/
def initial : Chain :=
  #v[0x6A09E667, 0xBB67AE85, 0x3C6EF372, 0xA54FF53A, 0x510E527F, 0x9B05688C, 0x1F83D9AB, 0x5BE0CD19]

/-! ## Marks of a compression -/

/-- The first block of a chunk. -/
def chunkStart : UInt32 := 1
/-- The last block of a chunk. -/
def chunkEnd : UInt32 := 2
/-- Two chaining values. -/
def parent : UInt32 := 4
/-- The last compression. -/
def root : UInt32 := 8

/-! ## Compression -/

/-- `x` with its bits moved `n` places to the right, around the end. -/
def rotateRight (x n : UInt32) : UInt32 :=
  (x >>> n) ||| (x <<< (32 - n))

/-- Mixes two words of the message into four words of the state. -/
def mix (v : Block) (a b c d : Fin 16) (x y : UInt32) : Block :=
  let v := v.set a (v[a] + v[b] + x)
  let v := v.set d (rotateRight (v[d] ^^^ v[a]) 16)
  let v := v.set c (v[c] + v[d])
  let v := v.set b (rotateRight (v[b] ^^^ v[c]) 12)
  let v := v.set a (v[a] + v[b] + y)
  let v := v.set d (rotateRight (v[d] ^^^ v[a]) 8)
  let v := v.set c (v[c] + v[d])
  v.set b (rotateRight (v[b] ^^^ v[c]) 7)

/-- The columns of the state, and then its diagonals, are mixed with the message. -/
def round (v m : Block) : Block :=
  let v := mix v 0 4 8 12 m[0] m[1]
  let v := mix v 1 5 9 13 m[2] m[3]
  let v := mix v 2 6 10 14 m[4] m[5]
  let v := mix v 3 7 11 15 m[6] m[7]
  let v := mix v 0 5 10 15 m[8] m[9]
  let v := mix v 1 6 11 12 m[10] m[11]
  let v := mix v 2 7 8 13 m[12] m[13]
  mix v 3 4 9 14 m[14] m[15]

/-- Where each word of the message comes from in the next round. -/
def schedule : Vector (Fin 16) 16 :=
  #v[2, 6, 3, 10, 7, 0, 4, 13, 1, 11, 12, 5, 9, 14, 15, 8]

/-- `n` rounds, the message being rearranged between them. -/
def rounds : (n : Nat) → (v m : Block) → Block
  | 0, v, _ => v
  | n + 1, v, m => rounds n (round v m) (schedule.map fun i => m[i])

/-- The chaining value after a block of `length` bytes; `counter` is the number of
its chunk. -/
def compress (chain : Chain) (block : Block) (counter : UInt64) (length marks : UInt32) : Chain :=
  let state : Block :=
    chain ++ #v[initial[0], initial[1], initial[2], initial[3], counter.toUInt32,
      (counter >>> 32).toUInt32, length, marks]
  let v := rounds 7 state block
  .ofFn fun i => v[i.castLE (by decide : 8 ≤ 16)] ^^^ v[i.natAdd 8]

/-! ## Chunks -/

/-- `items` in pieces of `size`, the last of which may be shorter; at least one. -/
def pieces {α : Type} (size : Nat) (items : List α) : List (List α) :=
  match _rest : items.drop size with
  | [] => [items]
  | next :: rest =>
    if 0 < size then items.take size :: pieces size (next :: rest) else [items]
termination_by items.length
decreasing_by
  have := congrArg List.length ‹items.drop size = _›
  simp only [List.length_drop, List.length_cons] at this ⊢
  omega

/-- The words of a block of at most 64 bytes, filled up with zeros. -/
def blockOf (bytes : List UInt8) : Block :=
  let a := bytes.toArray
  let byte (i : Nat) : UInt32 := (a.getD i 0).toUInt32
  .ofFn fun i =>
    byte (4 * i) ||| (byte (4 * i + 1) <<< 8) ||| (byte (4 * i + 2) <<< 16)
      ||| (byte (4 * i + 3) <<< 24)

/-- The chaining value after the blocks of a chunk.  `opening` marks the block that
comes next, `last` the last one. -/
def chainBlocks (counter : UInt64) (last : UInt32) (chain : Chain) (opening : UInt32) :
    List (List UInt8) → Chain
  | [] => chain
  | [bytes] =>
    compress chain (blockOf bytes) counter (.ofNat bytes.length) (opening ||| chunkEnd ||| last)
  | bytes :: rest =>
    chainBlocks counter last
      (compress chain (blockOf bytes) counter (.ofNat bytes.length) opening) 0 rest

/-- The chaining value of a chunk. -/
def chainChunk (counter : UInt64) (last : UInt32) (bytes : List UInt8) : Chain :=
  chainBlocks counter last initial chunkStart (pieces 64 bytes)

/-- The chaining value of two neighbours. -/
def chainPair (last : UInt32) (left right : Chain) : Chain :=
  compress initial (left ++ right) 0 64 (parent ||| last)

/-- The next level above chaining values. -/
def pairUp : List Chain → List Chain
  | left :: right :: rest => chainPair 0 left right :: pairUp rest
  | rest => rest

theorem length_pairUp_le (chains : List Chain) : (pairUp chains).length ≤ chains.length := by
  fun_induction pairUp chains with
  | case1 => simp only [List.length_cons]; omega
  | case2 => exact Nat.le_refl _

/-- The chaining value above a list of them. -/
def chainAll : List Chain → Chain
  | [] => initial
  | [chain] => chain
  | [left, right] => chainPair root left right
  | left :: right :: next :: rest =>
    chainAll (chainPair 0 left right :: pairUp (next :: rest))
termination_by chains => chains.length
decreasing_by
  have := length_pairUp_le (next :: rest)
  simp only [List.length_cons] at this ⊢
  omega

/-- The bytes of a word, the lowest first. -/
def wordBytes (w : UInt32) : List UInt8 :=
  [w.toUInt8, (w >>> 8).toUInt8, (w >>> 16).toUInt8, (w >>> 24).toUInt8]

/-- The hash of `bytes`, 32 bytes. -/
def hash (bytes : List UInt8) : List UInt8 :=
  let chain :=
    match pieces 1024 bytes with
    | [chunk] => chainChunk 0 root chunk
    | chunks => chainAll (chunks.mapIdx fun i chunk => chainChunk (.ofNat i) 0 chunk)
  chain.toList.flatMap wordBytes

end Verdict.Archive.Blake3
