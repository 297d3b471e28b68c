import Overseer.Text.Numeral

set_option autoImplicit false

/-! # The MD5 digest

Names of status files carry the beginning of the digest of the workspace root. Words have 32
bits and are stored with the lowest byte first. -/

namespace Overseer.Digest

/-- The additive constants of the 64 rounds. -/
def roundConstants : List UInt32 := [
    0xd76aa478, 0xe8c7b756, 0x242070db, 0xc1bdceee, 0xf57c0faf, 0x4787c62a,
    0xa8304613, 0xfd469501, 0x698098d8, 0x8b44f7af, 0xffff5bb1, 0x895cd7be,
    0x6b901122, 0xfd987193, 0xa679438e, 0x49b40821, 0xf61e2562, 0xc040b340,
    0x265e5a51, 0xe9b6c7aa, 0xd62f105d, 0x02441453, 0xd8a1e681, 0xe7d3fbc8,
    0x21e1cde6, 0xc33707d6, 0xf4d50d87, 0x455a14ed, 0xa9e3e905, 0xfcefa3f8,
    0x676f02d9, 0x8d2a4c8a, 0xfffa3942, 0x8771f681, 0x6d9d6122, 0xfde5380c,
    0xa4beea44, 0x4bdecfa9, 0xf6bb4b60, 0xbebfbc70, 0x289b7ec6, 0xeaa127fa,
    0xd4ef3085, 0x04881d05, 0xd9d4d039, 0xe6db99e5, 0x1fa27cf8, 0xc4ac5665,
    0xf4292244, 0x432aff97, 0xab9423a7, 0xfc93a039, 0x655b59c3, 0x8f0ccc92,
    0xffeff47d, 0x85845dd1, 0x6fa87e4f, 0xfe2ce6e0, 0xa3014314, 0x4e0811a1,
    0xf7537e82, 0xbd3af235, 0x2ad7d2bb, 0xeb86d391]

/-- The rotations of the 64 rounds. -/
def rotations : List UInt32 := [
    7, 12, 17, 22, 7, 12, 17, 22, 7, 12, 17, 22, 7, 12, 17, 22,
    5, 9, 14, 20, 5, 9, 14, 20, 5, 9, 14, 20, 5, 9, 14, 20,
    4, 11, 16, 23, 4, 11, 16, 23, 4, 11, 16, 23, 4, 11, 16, 23,
    6, 10, 15, 21, 6, 10, 15, 21, 6, 10, 15, 21, 6, 10, 15, 21]

/-- The four words that the digest is computed in. -/
structure Words where
  a : UInt32
  b : UInt32
  c : UInt32
  d : UInt32
  deriving DecidableEq, Repr

/-- The words before the first block. -/
def Words.start : Words := ⟨0x67452301, 0xefcdab89, 0x98badcfe, 0x10325476⟩

/-- Rotate a word to the left. -/
def rotateLeft (x n : UInt32) : UInt32 := (x <<< n) ||| (x >>> (32 - n))

/-- The mixing function of a round and the word of the block that it takes. -/
def mix (w : Words) (i : Nat) : UInt32 × Nat :=
  if i < 16 then ((w.b &&& w.c) ||| (~~~w.b &&& w.d), i)
  else if i < 32 then ((w.d &&& w.b) ||| (~~~w.d &&& w.c), (5 * i + 1) % 16)
  else if i < 48 then (w.b ^^^ w.c ^^^ w.d, (3 * i + 5) % 16)
  else (w.c ^^^ (w.b ||| ~~~w.d), (7 * i) % 16)

/-- One round. -/
def round (block : List UInt32) (w : Words) (i : Nat) (constant rotation : UInt32) : Words :=
  let (f, g) := mix w i
  let sum := w.a + f + constant + block.getD g 0
  ⟨w.d, w.b + rotateLeft sum rotation, w.b, w.c⟩

/-- The rounds of one block. -/
def compress (w : Words) (block : List UInt32) : Words :=
  let mixed := (roundConstants.zip rotations).zipIdx.foldl
    (fun w (r, i) => round block w i r.1 r.2) w
  ⟨w.a + mixed.a, w.b + mixed.b, w.c + mixed.c, w.d + mixed.d⟩

/-- A number in bytes, the lowest first. -/
def littleEndian (count n : Nat) : List UInt8 :=
  (List.range count).map fun i => (n >>> (8 * i)).toUInt8

/-- A message filled up to whole blocks of 64 bytes, with its length in bits at the end. -/
def padded (message : List UInt8) : List UInt8 :=
  let zeros := (119 - message.length % 64) % 64
  message ++ 0x80 :: List.replicate zeros 0 ++ littleEndian 8 (8 * message.length)

/-- Four bytes as a word. -/
def word (bytes : List UInt8) : UInt32 :=
  bytes.foldr (fun b n => n * 256 + b.toUInt32) 0

/-- Cut a list into pieces of a size; the bound is the number of pieces. -/
def pieces {α : Type} (size : Nat) : Nat → List α → List (List α)
  | 0, _ => []
  | bound + 1, l => if l.isEmpty then [] else l.take size :: pieces size bound (l.drop size)

/-- The blocks of a message as words. -/
def blocks (message : List UInt8) : List (List UInt32) :=
  let all := padded message
  (pieces 64 all.length all).map fun b => (pieces 4 16 b).map word

/-- The digest of a message in hexadecimal digits. -/
def md5 (message : List UInt8) : List Char :=
  let w := (blocks message).foldl compress Words.start
  ([w.a, w.b, w.c, w.d].flatMap fun x => littleEndian 4 x.toNat).flatMap fun b =>
    Text.digitsOfWidth 16 2 b.toNat

end Overseer.Digest
