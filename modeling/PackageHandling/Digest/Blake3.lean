/-!
# The BLAKE3 digest

Messages are cut into chunks of 1024 bytes and those into blocks of 64; every block is
compressed into a chaining value of eight words.  Chunks are the leaves of a binary tree whose
left branches are complete; its root gives the digest.
-/

namespace PackageHandling
namespace Digest

def initial : Array UInt32 :=
  #[0x6A09E667, 0xBB67AE85, 0x3C6EF372, 0xA54FF53A, 0x510E527F, 0x9B05688C, 0x1F83D9AB, 0x5BE0CD19]

def permutation : List Nat := [2, 6, 3, 10, 7, 0, 4, 13, 1, 11, 12, 5, 9, 14, 15, 8]

def chunkStart : UInt32 := 1
def chunkEnd : UInt32 := 2
def parent : UInt32 := 4
def root : UInt32 := 8

def rotateRight (x : UInt32) (n : UInt32) : UInt32 := (x >>> n) ||| (x <<< (32 - n))

def word (a : Array UInt32) (i : Nat) : UInt32 := a.getD i 0

/-- Mix two message words into a column or diagonal of the state. -/
def mix (v : Array UInt32) (a b c d : Nat) (x y : UInt32) : Array UInt32 :=
  let va := word v a + word v b + x
  let vd := rotateRight (word v d ^^^ va) 16
  let vc := word v c + vd
  let vb := rotateRight (word v b ^^^ vc) 12
  let va := va + vb + y
  let vd := rotateRight (vd ^^^ va) 8
  let vc := vc + vd
  let vb := rotateRight (vb ^^^ vc) 7
  (((v.setIfInBounds a va).setIfInBounds b vb).setIfInBounds c vc).setIfInBounds d vd

def round (v m : Array UInt32) : Array UInt32 :=
  let v := mix v 0 4 8 12 (word m 0) (word m 1)
  let v := mix v 1 5 9 13 (word m 2) (word m 3)
  let v := mix v 2 6 10 14 (word m 4) (word m 5)
  let v := mix v 3 7 11 15 (word m 6) (word m 7)
  let v := mix v 0 5 10 15 (word m 8) (word m 9)
  let v := mix v 1 6 11 12 (word m 10) (word m 11)
  let v := mix v 2 7 8 13 (word m 12) (word m 13)
  mix v 3 4 9 14 (word m 14) (word m 15)

def permute (m : Array UInt32) : Array UInt32 := (permutation.map (word m)).toArray

def rounds : Nat → Array UInt32 → Array UInt32 → Array UInt32
  | 0, v, _ => v
  | n + 1, v, m => rounds n (round v m) (permute m)

/-- The chaining value after one block of sixteen words, `length` bytes of which count. -/
def compress (chain block : Array UInt32) (counter length : Nat) (flags : UInt32) : Array UInt32 :=
  let v := chain ++ initial.extract 0 4 ++
    #[counter.toUInt32, (counter / 0x100000000).toUInt32, length.toUInt32, flags]
  let v := rounds 7 v block
  ((List.range 8).map fun i => word v i ^^^ word v (i + 8)).toArray

/-- Little-endian words, sixteen to a block; missing bytes are zero. -/
def blockWords (bytes : List UInt8) : Array UInt32 :=
  let a := bytes.toArray
  let byte (i : Nat) : UInt32 := (a.getD i 0).toUInt32
  ((List.range 16).map fun i =>
    byte (4 * i) ||| (byte (4 * i + 1) <<< 8) ||| (byte (4 * i + 2) <<< 16) |||
      (byte (4 * i + 3) <<< 24)).toArray

/-- Pieces of at most `n + 1` elements; an empty list is one empty piece. -/
def pieces (n : Nat) (bytes : List UInt8) : List (List UInt8) :=
  if bytes.length ≤ n + 1 then [bytes]
  else bytes.take (n + 1) :: pieces n (bytes.drop (n + 1))
termination_by bytes.length
decreasing_by simp only [List.length_drop]; omega

/-- A node whose compression is still open to the root flag. -/
structure Node where
  chain : Array UInt32
  block : Array UInt32
  counter : Nat
  length : Nat
  flags : UInt32

def Node.value (n : Node) (extra : UInt32) : Array UInt32 :=
  compress n.chain n.block n.counter n.length (n.flags ||| extra)

def chunkNode (counter : Nat) : Array UInt32 → UInt32 → List (List UInt8) → Node
  | chain, flags, [] => ⟨chain, blockWords [], counter, 0, flags ||| chunkEnd⟩
  | chain, flags, [block] => ⟨chain, blockWords block, counter, block.length, flags ||| chunkEnd⟩
  | chain, flags, block :: rest =>
    chunkNode counter (compress chain (blockWords block) counter block.length flags) 0 rest

def parentNode (left right : Array UInt32) : Node := ⟨initial, left ++ right, 0, 64, parent⟩

/-- The largest power of two below `n`, at least one. -/
def leftSize (n : Nat) : Nat := Nat.pow 2 (n - 1).log2

theorem leftSize_pos (n : Nat) : 0 < leftSize n := Nat.pow_pos (by decide)

theorem leftSize_lt {n : Nat} (h : 1 < n) : leftSize n < n := by
  have h' : leftSize n ≤ n - 1 := Nat.log2_self_le (by omega)
  omega

/-- The tree over the chunks from `counter` on. -/
def treeNode (counter : Nat) (chunks : List (List UInt8)) : Node :=
  if chunks.length ≤ 1 then
    chunkNode counter initial chunkStart (pieces 63 (chunks.head?.getD []))
  else
    let n := leftSize chunks.length
    parentNode ((treeNode counter (chunks.take n)).value 0)
      ((treeNode (counter + n) (chunks.drop n)).value 0)
termination_by chunks.length
decreasing_by
  · have := leftSize_lt (n := chunks.length) (by omega)
    simp only [List.length_take]; omega
  · have := leftSize_pos chunks.length
    simp only [List.length_drop]; omega

def hexByte (n : Nat) : List Char := [Nat.digitChar (n / 16), Nat.digitChar (n % 16)]

def hexWord (w : UInt32) : List Char :=
  let n := w.toNat
  hexByte (n % 256) ++ hexByte (n / 256 % 256) ++ hexByte (n / 65536 % 256) ++
    hexByte (n / 16777216)

/-- The digest of a text's UTF-8 bytes, in lower-case hex digits. -/
def blake3Hex (text : String) : String :=
  let words := (treeNode 0 (pieces 1023 text.toUTF8.toList)).value root
  String.ofList (words.toList.flatMap hexWord)

end Digest
end PackageHandling
