/-! The MD5 digest of a text, by which an unchanged document is recognised. -/

namespace DesignLint.Digest

/-- The constants of the 64 steps: the leading 32 bits of the fractional part of the sine. -/
def sines : List UInt32 := [
  0xd76aa478, 0xe8c7b756, 0x242070db, 0xc1bdceee, 0xf57c0faf, 0x4787c62a, 0xa8304613, 0xfd469501,
  0x698098d8, 0x8b44f7af, 0xffff5bb1, 0x895cd7be, 0x6b901122, 0xfd987193, 0xa679438e, 0x49b40821,
  0xf61e2562, 0xc040b340, 0x265e5a51, 0xe9b6c7aa, 0xd62f105d, 0x02441453, 0xd8a1e681, 0xe7d3fbc8,
  0x21e1cde6, 0xc33707d6, 0xf4d50d87, 0x455a14ed, 0xa9e3e905, 0xfcefa3f8, 0x676f02d9, 0x8d2a4c8a,
  0xfffa3942, 0x8771f681, 0x6d9d6122, 0xfde5380c, 0xa4beea44, 0x4bdecfa9, 0xf6bb4b60, 0xbebfbc70,
  0x289b7ec6, 0xeaa127fa, 0xd4ef3085, 0x04881d05, 0xd9d4d039, 0xe6db99e5, 0x1fa27cf8, 0xc4ac5665,
  0xf4292244, 0x432aff97, 0xab9423a7, 0xfc93a039, 0x655b59c3, 0x8f0ccc92, 0xffeff47d, 0x85845dd1,
  0x6fa87e4f, 0xfe2ce6e0, 0xa3014314, 0x4e0811a1, 0xf7537e82, 0xbd3af235, 0x2ad7d2bb, 0xeb86d391]

def rotations : List (List UInt32) :=
  [[7, 12, 17, 22], [5, 9, 14, 20], [4, 11, 16, 23], [6, 10, 15, 21]]

structure Words where
  a : UInt32
  b : UInt32
  c : UInt32
  d : UInt32

def initial : Words := ⟨0x67452301, 0xefcdab89, 0x98badcfe, 0x10325476⟩

def rotate (x n : UInt32) : UInt32 :=
  (x <<< n) ||| (x >>> (32 - n))

/-- The mixed word of step `i` and the place of the message word that it takes. -/
def mix (w : Words) (i : Nat) : UInt32 × Nat :=
  if i < 16 then ((w.b &&& w.c) ||| (~~~w.b &&& w.d), i)
  else if i < 32 then ((w.d &&& w.b) ||| (~~~w.d &&& w.c), (5 * i + 1) % 16)
  else if i < 48 then (w.b ^^^ w.c ^^^ w.d, (3 * i + 5) % 16)
  else (w.c ^^^ (w.b ||| ~~~w.d), 7 * i % 16)

def step (block : Array UInt32) (w : Words) (i : Nat) (sine : UInt32) : Words :=
  let (f, g) := mix w i
  let turn := (((rotations[i / 16]?).getD [])[i % 4]?).getD 0
  ⟨w.d, w.b + rotate (w.a + f + sine + block.getD g 0) turn, w.b, w.c⟩

def addBlock (w : Words) (block : Array UInt32) : Words :=
  let v := sines.zipIdx.foldl (fun v (sine, i) => step block v i sine) w
  ⟨w.a + v.a, w.b + v.b, w.c + v.c, w.d + v.d⟩

def lowBytes : Nat → Nat → List UInt8
  | 0, _ => []
  | n + 1, x => UInt8.ofNat (x % 256) :: lowBytes n (x / 256)

/-- The message with its end mark, filled to whole blocks, and its length in bits. -/
def padded (bytes : List UInt8) : List UInt8 :=
  let size := bytes.length
  bytes ++ 0x80 :: List.replicate ((119 - size % 64) % 64) 0 ++ lowBytes 8 (8 * size)

def word (bytes : List UInt8) : UInt32 :=
  bytes.foldr (fun b w => w * 256 + b.toUInt32) 0

def pieces {α : Type} (n : Nat) : Nat → List α → List (List α)
  | 0, _ => []
  | fuel + 1, xs => if xs.isEmpty then [] else xs.take n :: pieces n fuel (xs.drop n)

def blocks (bytes : List UInt8) : List (Array UInt32) :=
  (pieces 64 bytes.length bytes).map fun b => ((pieces 4 16 b).map word).toArray

def hexByte (b : UInt8) : List Char :=
  [Nat.digitChar (b.toNat / 16), Nat.digitChar (b.toNat % 16)]

def md5 (bytes : List UInt8) : String :=
  let w := (blocks (padded bytes)).foldl addBlock initial
  String.ofList
    ([w.a, w.b, w.c, w.d].flatMap fun x => (lowBytes 4 x.toNat).flatMap hexByte)

def ofText (text : String) : String :=
  md5 text.toUTF8.toList

end DesignLint.Digest
