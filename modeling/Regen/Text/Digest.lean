/-!
BLAKE3 digests.  A message is cut into chunks of 1024 bytes, a chunk into blocks
of 64 bytes.  The blocks of a chunk are chained through the compression
function; the chaining values of the chunks are the leaves of a binary tree
whose left subtrees are complete.  Such a tree is built level by level: join
neighbours in pairs and pass an odd last node up unchanged.
-/

namespace Regen.Text

/-- Cuts a list into pieces of `n + 1` elements; the last may be shorter. -/
def pieces {α : Type} (n : Nat) : List α → List (List α)
  | [] => []
  | a :: as => (a :: as.take n) :: pieces n (as.drop n)
termination_by as => as.length
decreasing_by simp only [List.length_drop, List.length_cons]; omega

namespace Digest

abbrev Chain := Vector UInt32 8

abbrev Block := Vector UInt32 16

def initial : Chain :=
  #v[0x6A09E667, 0xBB67AE85, 0x3C6EF372, 0xA54FF53A,
    0x510E527F, 0x9B05688C, 0x1F83D9AB, 0x5BE0CD19]

/-! ## Flags of a compression -/

def chunkStart : UInt32 := 1

def chunkEnd : UInt32 := 2

def parentNode : UInt32 := 4

def rootNode : UInt32 := 8

def rotateRight (w : UInt32) (n : UInt32) : UInt32 :=
  (w >>> n) ||| (w <<< (32 - n))

def mix (v : Block) (a b c d : Fin 16) (x y : UInt32) : Block :=
  let a₁ := v[a] + v[b] + x
  let d₁ := rotateRight (v[d] ^^^ a₁) 16
  let c₁ := v[c] + d₁
  let b₁ := rotateRight (v[b] ^^^ c₁) 12
  let a₂ := a₁ + b₁ + y
  let d₂ := rotateRight (d₁ ^^^ a₂) 8
  let c₂ := c₁ + d₂
  let b₂ := rotateRight (b₁ ^^^ c₂) 7
  (((v.set a a₂).set b b₂).set c c₂).set d d₂

def round (v m : Block) : Block :=
  let v := mix v 0 4 8 12 m[0] m[1]
  let v := mix v 1 5 9 13 m[2] m[3]
  let v := mix v 2 6 10 14 m[4] m[5]
  let v := mix v 3 7 11 15 m[6] m[7]
  let v := mix v 0 5 10 15 m[8] m[9]
  let v := mix v 1 6 11 12 m[10] m[11]
  let v := mix v 2 7 8 13 m[12] m[13]
  mix v 3 4 9 14 m[14] m[15]

def permute (m : Block) : Block :=
  #v[m[2], m[6], m[3], m[10], m[7], m[0], m[4], m[13],
    m[1], m[11], m[12], m[5], m[9], m[14], m[15], m[8]]

def rounds : Nat → Block → Block → Block
  | 0, v, _ => v
  | n + 1, v, m => rounds n (round v m) (permute m)

def compress (chain : Chain) (block : Block) (counter : UInt64)
    (size flags : UInt32) : Chain :=
  let v : Block :=
    #v[chain[0], chain[1], chain[2], chain[3],
      chain[4], chain[5], chain[6], chain[7],
      initial[0], initial[1], initial[2], initial[3],
      counter.toUInt32, (counter >>> 32).toUInt32, size, flags]
  let v := rounds 7 v block
  Vector.ofFn fun i : Fin 8 =>
    v.get ⟨i.val, by omega⟩ ^^^ v.get ⟨i.val + 8, by omega⟩

/-- The little-endian word at index `i`; bytes past the end count as zero. -/
def wordAt (bytes : Array UInt8) (i : Nat) : UInt32 :=
  let byte (k : Nat) : UInt32 := (bytes.getD (4 * i + k) 0).toUInt32
  byte 0 ||| (byte 1 <<< 8) ||| (byte 2 <<< 16) ||| (byte 3 <<< 24)

def blockOf (bytes : List UInt8) : Block :=
  let bytes := bytes.toArray
  Vector.ofFn fun i : Fin 16 => wordAt bytes i

/-- Chains the blocks of one chunk; `flags` go onto the last of them. -/
def chainBlocks (counter : UInt64) (flags : UInt32) :
    UInt32 → Chain → List (List UInt8) → Chain
  | _, chain, [] => chain
  | start, chain, [last] =>
      compress chain (blockOf last) counter last.length.toUInt32
        (start ||| chunkEnd ||| flags)
  | start, chain, b :: bs =>
      chainBlocks counter flags 0
        (compress chain (blockOf b) counter 64 start) bs

def chunkChain (flags : UInt32) (index : Nat) (bytes : List UInt8) : Chain :=
  let blocks := if bytes.isEmpty then [[]] else pieces 63 bytes
  chainBlocks index.toUInt64 flags chunkStart initial blocks

def parent (flags : UInt32) (left right : Chain) : Chain :=
  compress initial (left ++ right) 0 64 (parentNode ||| flags)

/-- One level up: neighbours are joined, an odd last node stays. -/
def joinLevel : List Chain → List Chain
  | left :: right :: rest => parent 0 left right :: joinLevel rest
  | rest => rest

theorem length_joinLevel_le (nodes : List Chain) :
    (joinLevel nodes).length ≤ nodes.length := by
  fun_induction joinLevel nodes with
  | case1 left right rest ih => simp; omega
  | case2 => simp

def joinAll : List Chain → Chain
  | [] => initial
  | [node] => node
  | [left, right] => parent rootNode left right
  | a :: b :: c :: rest => joinAll (joinLevel (a :: b :: c :: rest))
termination_by nodes => nodes.length
decreasing_by
  have := length_joinLevel_le (c :: rest)
  simp only [joinLevel, List.length_cons] at this ⊢
  omega

def words (message : List UInt8) : Chain :=
  match pieces 1023 message with
  | [] => chunkChain rootNode 0 []
  | [only] => chunkChain rootNode 0 only
  | chunks => joinAll (chunks.mapIdx (chunkChain 0))

def bytesOfWord (w : UInt32) : List UInt8 :=
  [w.toUInt8, (w >>> 8).toUInt8, (w >>> 16).toUInt8, (w >>> 24).toUInt8]

end Digest

structure Digest where
  bytes : List UInt8
  deriving DecidableEq, Repr

namespace Digest

def ofBytes (message : List UInt8) : Digest :=
  ⟨(words message).toList.flatMap bytesOfWord⟩

def ofText (s : String) : Digest :=
  ofBytes s.toUTF8.toList

def hexDigit (n : Nat) : Char :=
  Char.ofNat (if n < 10 then 48 + n else 87 + n)

def hexOfByte (b : UInt8) : List Char :=
  [hexDigit (b.toNat / 16), hexDigit (b.toNat % 16)]

def hexChars (d : Digest) : List Char :=
  d.bytes.flatMap hexOfByte

def hex (d : Digest) : String :=
  String.ofList d.hexChars

def brief (d : Digest) : String :=
  String.ofList (d.hexChars.take 12) ++ "…"

end Digest

end Regen.Text
