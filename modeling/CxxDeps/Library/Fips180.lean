import CxxDeps.Library.BigEndian
import CxxDeps.Library.Blocks

/-! SHA-1 as in FIPS 180, and HMAC as in RFC 2104. -/

namespace CxxDeps.Library

namespace Fips180

/-- The five words of a hash value, or the working variables. -/
structure Words where
  a : UInt32
  b : UInt32
  c : UInt32
  d : UInt32
  e : UInt32
  deriving DecidableEq, Repr

def Words.add (s t : Words) : Words := ⟨s.a + t.a, s.b + t.b, s.c + t.c, s.d + t.d, s.e + t.e⟩

def Words.bytes (s : Words) : List UInt8 :=
  toBe32 s.a ++ toBe32 s.b ++ toBe32 s.c ++ toBe32 s.d ++ toBe32 s.e

@[simp] theorem Words.length_bytes (s : Words) : s.bytes.length = 20 := rfl

def rotl (x n : UInt32) : UInt32 := (x <<< n) ||| (x >>> (32 - n))

def choose (x y z : UInt32) : UInt32 := (x &&& y) ^^^ (~~~x &&& z)

def parity (x y z : UInt32) : UInt32 := x ^^^ y ^^^ z

def majority (x y z : UInt32) : UInt32 := (x &&& y) ^^^ (x &&& z) ^^^ (y &&& z)

/-- The function of round `t`. -/
def f (t : ℕ) : UInt32 → UInt32 → UInt32 → UInt32 :=
  if t < 20 then choose else if t < 40 then parity else if t < 60 then majority else parity

/-- The constant of round `t`. -/
def k (t : ℕ) : UInt32 :=
  if t < 20 then 0x5a827999 else if t < 40 then 0x6ed9eba1 else if t < 60 then 0x8f1bbcdc
  else 0xca62c1d6

/-- The word of round `t`, of the sixteen words of the block. -/
def schedule (m : ℕ → UInt32) (t : ℕ) : UInt32 :=
  if t < 16 then m t
  else
    rotl (schedule m (t - 3) ^^^ schedule m (t - 8) ^^^ schedule m (t - 14) ^^^
      schedule m (t - 16)) 1

def round (w : ℕ → UInt32) (s : Words) (t : ℕ) : Words :=
  ⟨rotl s.a 5 + f t s.b s.c s.d + s.e + k t + w t, s.a, rotl s.b 30, s.c, s.d⟩

def word (block : List UInt8) (t : ℕ) : UInt32 :=
  be32 (block.getD (4 * t) 0) (block.getD (4 * t + 1) 0) (block.getD (4 * t + 2) 0)
    (block.getD (4 * t + 3) 0)

def compress (h : Words) (block : List UInt8) : Words :=
  h.add ((List.range 80).foldl (round (schedule (word block))) h)

def initial : Words := ⟨0x67452301, 0xefcdab89, 0x98badcfe, 0x10325476, 0xc3d2e1f0⟩

/-- A length in 64 bits. -/
def lengthBytes (bits : ℕ) : List UInt8 :=
  toBe32 (UInt32.ofNat (bits / 2 ^ 32)) ++ toBe32 (UInt32.ofNat bits)

/-- What a message of `n` bytes is padded with. -/
def padding (n : ℕ) : List UInt8 :=
  0x80 :: List.replicate ((119 - n % 64) % 64) 0 ++ lengthBytes (8 * n)

end Fips180

def Fips180.sha1 (message : List UInt8) : List UInt8 :=
  let padded := message ++ Fips180.padding message.length
  (blocks Fips180.compress 64 (padded.length / 64) Fips180.initial padded).bytes

/-- HMAC with a hash function that takes blocks of 64 bytes. -/
def hmac (hash : List UInt8 → List UInt8) (key text : List UInt8) : List UInt8 :=
  let key := if 64 < key.length then hash key else key
  let key := key ++ List.replicate (64 - key.length) 0
  hash (key.map (· ^^^ 0x5c) ++ hash (key.map (· ^^^ 0x36) ++ text))

namespace Fips180

theorem schedule_of_lt {t : ℕ} (ht : t < 16) (m : ℕ → UInt32) : schedule m t = m t := by
  rw [schedule, if_pos ht]

theorem schedule_of_le {t : ℕ} (ht : 16 ≤ t) (m : ℕ → UInt32) : schedule m t =
    rotl (schedule m (t - 3) ^^^ schedule m (t - 8) ^^^ schedule m (t - 14) ^^^
      schedule m (t - 16)) 1 := by
  rw [schedule, if_neg (by omega)]

@[simp] theorem length_lengthBytes (bits : ℕ) : (lengthBytes bits).length = 8 := rfl

theorem length_padding (n : ℕ) : (padding n).length = 9 + (119 - n % 64) % 64 := by
  rw [padding, List.length_append, List.length_cons, List.length_replicate, length_lengthBytes]
  omega

/-- The padded message is made of whole blocks. -/
theorem length_padded (n : ℕ) : (n + (padding n).length) % 64 = 0 := by
  rw [length_padding]
  omega

@[simp] theorem length_sha1 (message : List UInt8) : (sha1 message).length = 20 := rfl

/-- The hash of a message, byte by byte. -/
theorem feed_padded (message : List UInt8) :
    (feed compress 64 (initial, []) (message ++ padding message.length)).1.bytes =
      sha1 message := by
  have hmod := length_padded message.length
  have hlen : (message ++ padding message.length).length =
      64 * ((message ++ padding message.length).length / 64) := by
    rw [List.length_append]
    omega
  rw [feed_blocks (by decide) initial hlen]
  rfl

end Fips180

end CxxDeps.Library
