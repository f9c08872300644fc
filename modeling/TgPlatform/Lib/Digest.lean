import TgPlatform.Lib.Endian

/-! # Digests

The digests MD5 and SHA-1 of a message: each compresses the blocks of the padded
message, one after another, into the words of its state.
-/

namespace Digest

abbrev Word : Type := BitVec 32

/-- The message, a bit, zeros, and the length in bits: blocks of 64 bytes. -/
def padded (packLength : ℕ → List UInt8) (message : List UInt8) : List UInt8 :=
  message ++ 0x80 :: List.replicate ((119 - message.length % 64) % 64) 0 ++
    packLength (8 * message.length)

/-- The first `n` pieces of a size. -/
def chunks (size : ℕ) : ℕ → List UInt8 → List (List UInt8)
  | 0, _ => []
  | n + 1, xs => xs.take size :: chunks size n (xs.drop size)

def words (unpack : List UInt8 → ℕ) (block : List UInt8) : List Word :=
  (chunks 4 16 block).map fun w => BitVec.ofNat 32 (unpack w)

/-- The state after all blocks of a padded message. -/
def compressed {State : Type} (compress : State → List UInt8 → State) (start : State)
    (message : List UInt8) :
    State :=
  (chunks 64 (message.length / 64) message).foldl compress start

/-! ## MD5 -/

structure Md5 where
  a : Word
  b : Word
  c : Word
  d : Word

namespace Md5

def start : Md5 := ⟨0x67452301, 0xefcdab89, 0x98badcfe, 0x10325476⟩

def sines : List Word :=
  [0xd76aa478, 0xe8c7b756, 0x242070db, 0xc1bdceee, 0xf57c0faf, 0x4787c62a, 0xa8304613, 0xfd469501,
    0x698098d8, 0x8b44f7af, 0xffff5bb1, 0x895cd7be, 0x6b901122, 0xfd987193, 0xa679438e, 0x49b40821,
    0xf61e2562, 0xc040b340, 0x265e5a51, 0xe9b6c7aa, 0xd62f105d, 0x02441453, 0xd8a1e681, 0xe7d3fbc8,
    0x21e1cde6, 0xc33707d6, 0xf4d50d87, 0x455a14ed, 0xa9e3e905, 0xfcefa3f8, 0x676f02d9, 0x8d2a4c8a,
    0xfffa3942, 0x8771f681, 0x6d9d6122, 0xfde5380c, 0xa4beea44, 0x4bdecfa9, 0xf6bb4b60, 0xbebfbc70,
    0x289b7ec6, 0xeaa127fa, 0xd4ef3085, 0x04881d05, 0xd9d4d039, 0xe6db99e5, 0x1fa27cf8, 0xc4ac5665,
    0xf4292244, 0x432aff97, 0xab9423a7, 0xfc93a039, 0x655b59c3, 0x8f0ccc92, 0xffeff47d, 0x85845dd1,
    0x6fa87e4f, 0xfe2ce6e0, 0xa3014314, 0x4e0811a1, 0xf7537e82, 0xbd3af235, 0x2ad7d2bb, 0xeb86d391]

/-- How far the rounds of a quarter rotate, by the round modulo four. -/
def shifts : ℕ → List ℕ
  | 0 => [7, 12, 17, 22]
  | 1 => [5, 9, 14, 20]
  | 2 => [4, 11, 16, 23]
  | _ => [6, 10, 15, 21]

/-- What a round mixes of the other words, and the word of the block that it takes. -/
def mix (s : Md5) (i : ℕ) : Word × ℕ :=
  match i / 16 with
  | 0 => (s.b &&& s.c ||| ~~~s.b &&& s.d, i)
  | 1 => (s.d &&& s.b ||| ~~~s.d &&& s.c, (5 * i + 1) % 16)
  | 2 => (s.b ^^^ s.c ^^^ s.d, (3 * i + 5) % 16)
  | _ => (s.c ^^^ (s.b ||| ~~~s.d), 7 * i % 16)

def round (block : List Word) (s : Md5) (i : ℕ) : Md5 :=
  let (f, g) := s.mix i
  let sum := s.a + f + sines.getD i 0 + block.getD g 0
  ⟨s.d, s.b + sum.rotateLeft ((shifts (i / 16)).getD (i % 4) 0), s.b, s.c⟩

def compress (s : Md5) (block : List UInt8) : Md5 :=
  let t := (List.range 64).foldl (round (words ofLittleEndian block)) s
  ⟨s.a + t.a, s.b + t.b, s.c + t.c, s.d + t.d⟩

end Md5

def md5 (message : List UInt8) : List UInt8 :=
  let s := compressed Md5.compress Md5.start (padded (littleEndian 8) message)
  [s.a, s.b, s.c, s.d].flatMap fun w => littleEndian 4 w.toNat

theorem length_md5 (message : List UInt8) : (md5 message).length = 16 := by
  simp [md5]

-- the digest of `abc`
example : md5 [0x61, 0x62, 0x63] =
    [0x90, 0x01, 0x50, 0x98, 0x3c, 0xd2, 0x4f, 0xb0, 0xd6, 0x96, 0x3f, 0x7d, 0x28, 0xe1, 0x7f,
      0x72] := by
  decide +kernel

/-! ## SHA-1 -/

structure Sha1 where
  a : Word
  b : Word
  c : Word
  d : Word
  e : Word

namespace Sha1

def start : Sha1 := ⟨0x67452301, 0xefcdab89, 0x98badcfe, 0x10325476, 0xc3d2e1f0⟩

/-- The words of the rounds, from the next sixteen of them on. -/
def schedule : ℕ → List Word → List Word
  | 0, window => window
  | n + 1, window =>
    let next := window.getD 13 0 ^^^ window.getD 8 0 ^^^ window.getD 2 0 ^^^ window.getD 0 0
    window.getD 0 0 :: schedule n (window.tail ++ [next.rotateLeft 1])

def mix (s : Sha1) (i : ℕ) : Word :=
  match i / 20 with
  | 0 => (s.b &&& s.c ||| ~~~s.b &&& s.d) + 0x5a827999
  | 1 => (s.b ^^^ s.c ^^^ s.d) + 0x6ed9eba1
  | 2 => (s.b &&& s.c ||| s.b &&& s.d ||| s.c &&& s.d) + 0x8f1bbcdc
  | _ => (s.b ^^^ s.c ^^^ s.d) + 0xca62c1d6

def round (s : Sha1) (w : Word × ℕ) : Sha1 :=
  ⟨s.a.rotateLeft 5 + s.mix w.2 + s.e + w.1, s.a, s.b.rotateLeft 30, s.c, s.d⟩

def compress (s : Sha1) (block : List UInt8) : Sha1 :=
  let t := (schedule 64 (words ofBigEndian block)).zipIdx.foldl round s
  ⟨s.a + t.a, s.b + t.b, s.c + t.c, s.d + t.d, s.e + t.e⟩

end Sha1

def sha1 (message : List UInt8) : List UInt8 :=
  let s := compressed Sha1.compress Sha1.start (padded (bigEndian 8) message)
  [s.a, s.b, s.c, s.d, s.e].flatMap fun w => bigEndian 4 w.toNat

theorem length_sha1 (message : List UInt8) : (sha1 message).length = 20 := by
  simp [sha1]

-- the digest of `abc`
example : sha1 [0x61, 0x62, 0x63] =
    [0xa9, 0x99, 0x3e, 0x36, 0x47, 0x06, 0x81, 0x6a, 0xba, 0x3e, 0x25, 0x71, 0x78, 0x50, 0xc2, 0x6c,
      0x9c, 0xd0,
      0xd8, 0x9d] := by
  decide +kernel

end Digest
