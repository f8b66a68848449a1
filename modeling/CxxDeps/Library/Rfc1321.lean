import CxxDeps.Library.Blocks
import CxxDeps.Library.Fips180

/-! MD5 as in RFC 1321. -/

namespace CxxDeps.Library

/-- The bytes of a word, the low one first. -/
def toLe32 (x : UInt32) : List UInt8 :=
  [x.toUInt8, (x >>> 8).toUInt8, (x >>> 16).toUInt8, (x >>> 24).toUInt8]

namespace Rfc1321

/-- The four words of the buffer. -/
structure Words where
  a : UInt32
  b : UInt32
  c : UInt32
  d : UInt32
  deriving DecidableEq, Repr

def Words.add (s t : Words) : Words := ⟨s.a + t.a, s.b + t.b, s.c + t.c, s.d + t.d⟩

def Words.bytes (s : Words) : List UInt8 := toLe32 s.a ++ toLe32 s.b ++ toLe32 s.c ++ toLe32 s.d

/-- The function of step `t`. -/
def f (t : ℕ) (x y z : UInt32) : UInt32 :=
  if t < 16 then (x &&& y) ||| (~~~x &&& z)
  else if t < 32 then (x &&& z) ||| (y &&& ~~~z)
  else if t < 48 then x ^^^ y ^^^ z
  else y ^^^ (x ||| ~~~z)

/-- The word of the block that step `t` takes. -/
def index (t : ℕ) : ℕ :=
  if t < 16 then t
  else if t < 32 then (5 * t + 1) % 16
  else if t < 48 then (3 * t + 5) % 16
  else 7 * t % 16

/-- By how many bits step `t` rotates. -/
def shift (t : ℕ) : UInt32 :=
  if t < 16 then [7, 12, 17, 22].getD (t % 4) 0
  else if t < 32 then [5, 9, 14, 20].getD (t % 4) 0
  else if t < 48 then [4, 11, 16, 23].getD (t % 4) 0
  else [6, 10, 15, 21].getD (t % 4) 0

/-- The integer part of 4294967296 times the absolute sine of `t + 1`. -/
def sines : List UInt32 :=
  [0xd76aa478, 0xe8c7b756, 0x242070db, 0xc1bdceee, 0xf57c0faf, 0x4787c62a, 0xa8304613, 0xfd469501,
   0x698098d8, 0x8b44f7af, 0xffff5bb1, 0x895cd7be, 0x6b901122, 0xfd987193, 0xa679438e, 0x49b40821,
   0xf61e2562, 0xc040b340, 0x265e5a51, 0xe9b6c7aa, 0xd62f105d, 0x02441453, 0xd8a1e681, 0xe7d3fbc8,
   0x21e1cde6, 0xc33707d6, 0xf4d50d87, 0x455a14ed, 0xa9e3e905, 0xfcefa3f8, 0x676f02d9, 0x8d2a4c8a,
   0xfffa3942, 0x8771f681, 0x6d9d6122, 0xfde5380c, 0xa4beea44, 0x4bdecfa9, 0xf6bb4b60, 0xbebfbc70,
   0x289b7ec6, 0xeaa127fa, 0xd4ef3085, 0x04881d05, 0xd9d4d039, 0xe6db99e5, 0x1fa27cf8, 0xc4ac5665,
   0xf4292244, 0x432aff97, 0xab9423a7, 0xfc93a039, 0x655b59c3, 0x8f0ccc92, 0xffeff47d, 0x85845dd1,
   0x6fa87e4f, 0xfe2ce6e0, 0xa3014314, 0x4e0811a1, 0xf7537e82, 0xbd3af235, 0x2ad7d2bb, 0xeb86d391]

def round (x : ℕ → UInt32) (s : Words) (t : ℕ) : Words :=
  let sum := s.a + f t s.b s.c s.d + x (index t) + sines.getD t 0
  ⟨s.d, s.b + Fips180.rotl sum (shift t), s.b, s.c⟩

def word (block : List UInt8) (t : ℕ) : UInt32 :=
  le32 (block.getD (4 * t) 0) (block.getD (4 * t + 1) 0) (block.getD (4 * t + 2) 0)
    (block.getD (4 * t + 3) 0)

def compress (h : Words) (block : List UInt8) : Words :=
  h.add ((List.range 64).foldl (round (word block)) h)

def initial : Words := ⟨0x67452301, 0xefcdab89, 0x98badcfe, 0x10325476⟩

/-- The low 64 bits of a length, the low word first. -/
def lengthBytes (bits : ℕ) : List UInt8 :=
  toLe32 (UInt32.ofNat bits) ++ toLe32 (UInt32.ofNat (bits / 2 ^ 32))

/-- What a message of `n` bytes is padded with. -/
def padding (n : ℕ) : List UInt8 :=
  0x80 :: List.replicate ((119 - n % 64) % 64) 0 ++ lengthBytes (8 * n)

def md5 (message : List UInt8) : Words :=
  let padded := message ++ padding message.length
  blocks compress 64 (padded.length / 64) initial padded

@[simp] theorem length_lengthBytes (bits : ℕ) : (lengthBytes bits).length = 8 := rfl

theorem length_padding (n : ℕ) : (padding n).length = 9 + (119 - n % 64) % 64 := by
  rw [padding, List.length_append, List.length_cons, List.length_replicate, length_lengthBytes]
  omega

/-- The hash of a message, byte by byte. -/
theorem feed_padded (message : List UInt8) :
    feed compress 64 (initial, []) (message ++ padding message.length) = (md5 message, []) := by
  have hlen : (message ++ padding message.length).length =
      64 * ((message ++ padding message.length).length / 64) := by
    rw [List.length_append, length_padding]
    omega
  rw [feed_blocks (by decide) initial hlen]
  rfl

end Rfc1321

end CxxDeps.Library
