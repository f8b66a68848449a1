import CxxDeps.Library.Bits
import CxxDeps.Library.Fips180
import Mathlib.Logic.Function.Basic

/-! `sha1` and `hmac_sha1` of `sys2/security`, on a little-endian host. -/

namespace CxxDeps.Security

open Library
open Library.Fips180 (Words)

/-- `ROL32`. -/
def rol32 (value bits : UInt32) : UInt32 := (value <<< bits) ||| (value >>> (32 - bits))

/-! ### `sha1::transform` -/

/-- The words of `m_block`. -/
abbrev WorkspaceBlock := Fin 16 → UInt32

/-- The words as the machine loads them, the low byte first. -/
def WorkspaceBlock.ofBytes (buffer : List UInt8) : WorkspaceBlock := fun i =>
  le32 (buffer.getD (4 * i) 0) (buffer.getD (4 * i + 1) 0) (buffer.getD (4 * i + 2) 0)
    (buffer.getD (4 * i + 3) 0)

/-- `SHABLK0` of a word. -/
def swap (l : UInt32) : UInt32 := (rol32 l 24 &&& 0xff00ff00) ||| (rol32 l 8 &&& 0x00ff00ff)

/-- `SHABLK0` and `SHABLK`: what they assign to the word with the index `i & 15`. -/
def shablk (block : WorkspaceBlock) (i : ℕ) : UInt32 :=
  if i < 16 then swap (block (Fin.ofNat 16 i))
  else
    rol32 (block (Fin.ofNat 16 (i + 13)) ^^^ block (Fin.ofNat 16 (i + 8)) ^^^
      block (Fin.ofNat 16 (i + 2)) ^^^ block (Fin.ofNat 16 i)) 1

/-- What `_R0` to `_R4` add to `z`. -/
def term (i : ℕ) (v w x y word : UInt32) : UInt32 :=
  if i < 20 then ((w &&& (x ^^^ y)) ^^^ y) + word + 0x5a827999 + rol32 v 5
  else if i < 40 then (w ^^^ x ^^^ y) + word + 0x6ed9eba1 + rol32 v 5
  else if i < 60 then (((w ||| x) &&& y) ||| (w &&& x)) + word + 0x8f1bbcdc + rol32 v 5
  else (w ^^^ x ^^^ y) + word + 0xca62c1d6 + rol32 v 5

/-- The operation `i` of the 80. The five names go round, so that `z` is `e`, `d`, `c`, `b`, `a`
and `e` again. -/
def operation (s : Words × WorkspaceBlock) (i : ℕ) : Words × WorkspaceBlock :=
  let ⟨⟨a, b, c, d, e⟩, block⟩ := s
  let word := shablk block i
  let words : Words :=
    match i % 5 with
    | 0 => ⟨a, rol32 b 30, c, d, e + term i a b c d word⟩
    | 1 => ⟨rol32 a 30, b, c, d + term i e a b c word, e⟩
    | 2 => ⟨a, b, c + term i d e a b word, d, rol32 e 30⟩
    | 3 => ⟨a, b + term i c d e a word, c, rol32 d 30, e⟩
    | _ => ⟨a + term i b c d e word, b, rol32 c 30, d, e⟩
  (words, Function.update block (Fin.ofNat 16 i) word)

def transform (state : Words) (buffer : List UInt8) : Words :=
  state.add ((List.range 80).foldl operation (state, .ofBytes buffer)).1

/-! ### The operations and the rounds -/

theorem rol32_eq (x n : UInt32) : rol32 x n = Fips180.rotl x n := rfl

theorem and_or_distrib (x y z : UInt32) : (x ||| y) &&& z = (x &&& z) ||| (y &&& z) := by
  apply UInt32.toBitVec_inj.mp
  ext i hi
  simp only [UInt32.toBitVec_or, UInt32.toBitVec_and, BitVec.getElem_or, BitVec.getElem_and,
    Bool.and_or_distrib_right]

theorem or_or_or_comm (p q r t : UInt32) : (p ||| q) ||| (r ||| t) = (p ||| r) ||| (q ||| t) := by
  ac_rfl

theorem rol32_or (x y n : UInt32) : rol32 (x ||| y) n = rol32 x n ||| rol32 y n := by
  rw [rol32, UInt32.shiftLeft_or, UInt32.shiftRight_or, or_or_or_comm]
  rfl

theorem swap_or (x y : UInt32) : swap (x ||| y) = swap x ||| swap y := by
  rw [swap, rol32_or, rol32_or, and_or_distrib, and_or_distrib, or_or_or_comm]
  rfl

theorem swap_le32 (a b c d : UInt8) : swap (le32 a b c d) = be32 a b c d := by
  have ha : ∀ a : UInt8, swap a.toUInt32 = a.toUInt32 <<< 24 := forall_uint8 (by decide +kernel)
  have hb : ∀ b : UInt8, swap (b.toUInt32 <<< 8) = b.toUInt32 <<< 16 :=
    forall_uint8 (by decide +kernel)
  have hc : ∀ c : UInt8, swap (c.toUInt32 <<< 16) = c.toUInt32 <<< 8 :=
    forall_uint8 (by decide +kernel)
  have hd : ∀ d : UInt8, swap (d.toUInt32 <<< 24) = d.toUInt32 := forall_uint8 (by decide +kernel)
  rw [le32, swap_or, swap_or, swap_or, ha, hb, hc, hd, be32]

theorem choose_eq (x y z : UInt32) : (x &&& (y ^^^ z)) ^^^ z = Fips180.choose x y z := by
  apply UInt32.toBitVec_inj.mp
  ext i hi
  simp only [Fips180.choose, UInt32.toBitVec_xor, UInt32.toBitVec_and, UInt32.toBitVec_not,
    BitVec.getElem_xor, BitVec.getElem_and, BitVec.getElem_not]
  cases x.toBitVec[i] <;> cases y.toBitVec[i] <;> cases z.toBitVec[i] <;> rfl

theorem majority_eq (x y z : UInt32) :
    ((x ||| y) &&& z) ||| (x &&& y) = Fips180.majority x y z := by
  apply UInt32.toBitVec_inj.mp
  ext i hi
  simp only [Fips180.majority, UInt32.toBitVec_xor, UInt32.toBitVec_and, UInt32.toBitVec_or,
    BitVec.getElem_xor, BitVec.getElem_and, BitVec.getElem_or]
  cases x.toBitVec[i] <;> cases y.toBitVec[i] <;> cases z.toBitVec[i] <;> rfl

/-- What is added to `z` makes it the first word of the next round. -/
theorem add_term (i : ℕ) (v w x y z word : UInt32) : z + term i v w x y word =
    Fips180.rotl v 5 + Fips180.f i w x y + z + Fips180.k i + word := by
  have hsum : ∀ p q r : UInt32, z + (p + word + q + r) = r + p + z + q + word := by
    intro p q r
    ac_rfl
  unfold term Fips180.f Fips180.k
  split_ifs
  · rw [choose_eq]
    exact hsum _ _ _
  · exact hsum _ _ _
  · rw [majority_eq]
    exact hsum _ _ _
  · exact hsum _ _ _

/-- The five variables in the places that they have before the operation `i`. -/
def places (i : ℕ) (s : Words) : Words :=
  match i % 5 with
  | 0 => s
  | 1 => ⟨s.e, s.a, s.b, s.c, s.d⟩
  | 2 => ⟨s.d, s.e, s.a, s.b, s.c⟩
  | 3 => ⟨s.c, s.d, s.e, s.a, s.b⟩
  | _ => ⟨s.b, s.c, s.d, s.e, s.a⟩

/-- The words that the block has before the operation `i`, which is that of the round in which
they were or are to be used. -/
structure Scheduled (m : ℕ → UInt32) (i : ℕ) (block : WorkspaceBlock) : Prop where
  used : ∀ t, t < i → i ≤ t + 16 → block (Fin.ofNat 16 t) = Fips180.schedule m t
  unused : ∀ t, i ≤ t → t < 16 → swap (block (Fin.ofNat 16 t)) = m t

variable {m : ℕ → UInt32} {i : ℕ} {block : WorkspaceBlock}

theorem ofNat_eq_iff (t u : ℕ) : Fin.ofNat 16 t = Fin.ofNat 16 u ↔ t % 16 = u % 16 := by
  rw [Fin.ext_iff, Fin.val_ofNat, Fin.val_ofNat]

theorem Scheduled.shablk_eq (h : Scheduled m i block) : shablk block i = Fips180.schedule m i := by
  unfold shablk
  split
  case isTrue hi => rw [h.unused i (Nat.le_refl i) hi, Fips180.schedule_of_lt hi]
  case isFalse hi =>
    have hused : ∀ t u, t < i → i ≤ t + 16 → u = t + 16 →
        block (Fin.ofNat 16 u) = Fips180.schedule m t := by
      intro t u ht hle hu
      rw [(ofNat_eq_iff u t).mpr (by omega), h.used t ht hle]
    rw [Fips180.schedule_of_le (by omega), hused (i - 3) (i + 13) (by omega) (by omega) (by omega),
      hused (i - 8) (i + 8) (by omega) (by omega) (by omega),
      hused (i - 14) (i + 2) (by omega) (by omega) (by omega),
      hused (i - 16) i (by omega) (by omega) (by omega)]
    rfl

theorem Scheduled.update (h : Scheduled m i block) : Scheduled m (i + 1)
    (Function.update block (Fin.ofNat 16 i) (Fips180.schedule m i)) where
  used t ht hle := by
    rcases Nat.lt_succ_iff_lt_or_eq.mp ht with hlt | rfl
    · rw [Function.update_of_ne (by rw [Ne, ofNat_eq_iff]; omega), h.used t hlt (by omega)]
    · rw [Function.update_self]
  unused t hle ht := by
    rw [Function.update_of_ne (by rw [Ne, ofNat_eq_iff]; omega), h.unused t (by omega) ht]

/-- One operation is one round. -/
theorem places_operation (h : Scheduled m i block) (s : Words) :
    places (i + 1) (operation (s, block) i).1 =
      Fips180.round (Fips180.schedule m) (places i s) i ∧
    Scheduled m (i + 1) (operation (s, block) i).2 := by
  have hblock : (operation (s, block) i).2 =
      Function.update block (Fin.ofNat 16 i) (Fips180.schedule m i) := by
    rw [← h.shablk_eq]
    rfl
  refine ⟨?_, hblock ▸ h.update⟩
  obtain ⟨a, b, c, d, e⟩ := s
  have hword := h.shablk_eq
  obtain h5 | h5 | h5 | h5 | h5 : i % 5 = 0 ∨ i % 5 = 1 ∨ i % 5 = 2 ∨ i % 5 = 3 ∨ i % 5 = 4 := by
    omega
  all_goals
    simp only [operation, places, Fips180.round, hword, Nat.add_mod i 1 5, h5, add_term, rol32_eq]

theorem scheduled_ofBytes (buffer : List UInt8) :
    Scheduled (Fips180.word buffer) 0 (.ofBytes buffer) where
  used t ht := by omega
  unused t _ ht := by
    rw [WorkspaceBlock.ofBytes, swap_le32, Fips180.word, Fin.val_ofNat, Nat.mod_eq_of_lt ht]

/-- The loop in sixteen words is the 80 rounds. -/
theorem transform_eq (state : Words) (buffer : List UInt8) :
    transform state buffer = Fips180.compress state buffer := by
  have hrun : ∀ n, places n ((List.range n).foldl operation (state, .ofBytes buffer)).1 =
      (List.range n).foldl (Fips180.round (Fips180.schedule (Fips180.word buffer))) state ∧
      Scheduled (Fips180.word buffer) n
        ((List.range n).foldl operation (state, .ofBytes buffer)).2 := by
    intro n
    induction n with
    | zero => exact ⟨rfl, scheduled_ofBytes buffer⟩
    | succ n ih =>
      rw [List.range_succ, List.foldl_append, List.foldl_append, List.foldl_cons, List.foldl_nil,
        List.foldl_cons, List.foldl_nil, ← ih.1]
      exact places_operation ih.2 _
  have h80 := (hrun 80).1
  rw [transform, Fips180.compress, ← h80]
  rfl

/-! ### `sha1` -/

/-- The members of `sha1` between calls. -/
structure Sha1 where
  state : Words
  count₀ : UInt32 := 0
  count₁ : UInt32 := 0
  buffer : List UInt8
  deriving DecidableEq, Repr

namespace Sha1

/-- `reset`, which leaves the buffer. -/
def reset (s : Sha1) : Sha1 where
  state := ⟨0x67452301, 0xefcdab89, 0x98badcfe, 0x10325476, 0xc3d2e1f0⟩
  buffer := s.buffer

/-- The loop of `update` over the whole blocks from `i` on, with the state and `i` at its end.
All is in 32 bits. -/
def transforms (data : List UInt8) (len : ℕ) : ℕ → Words → ℕ →
    Words × ℕ
  | 0, state, i => (state, i)
  | fuel + 1, state, i =>
    if (i + 63) % 2 ^ 32 < len then
      transforms data len fuel (transform state ((data.drop i).take 64)) ((i + 64) % 2 ^ 32)
    else (state, i)

/-- The state and the buffer of `update`, from the place `j` in the buffer. -/
def absorb (s : Sha1) (data : List UInt8) (j len : ℕ) : Words × List UInt8 :=
  if 63 < (j + len) % 2 ^ 32 then
    let i := 64 - j
    let buffer := overwrite s.buffer (data.take i) j
    let (state, i) := transforms data len (len / 64 + 1) (transform s.state buffer) i
    (state, overwrite buffer (data.drop i) 0)
  else (s.state, overwrite s.buffer data j)

def update (s : Sha1) (data : List UInt8) : Sha1 :=
  let len := UInt32.ofNat data.length
  let j := ((s.count₀ >>> 3) &&& 63).toNat
  let count₀ := s.count₀ + (len <<< 3)
  let count₁ := if count₀ < len <<< 3 then s.count₁ + 1 else s.count₁
  let r := s.absorb data j len.toNat
  { state := r.1, count₀, count₁ := count₁ + (len >>> 29), buffer := r.2 }

/-- The zeros of `final`, one by one. -/
def zeros : ℕ → Sha1 → Sha1
  | 0, s => s
  | fuel + 1, s => if s.count₀ &&& 504 ≠ 448 then zeros fuel (s.update [0]) else s

/-- `final`, with the digest. The members are wiped. -/
def final (s : Sha1) : Sha1 × List UInt8 :=
  let finalcount := toBe32 s.count₁ ++ toBe32 s.count₀
  let s := s.update [0x80]
  let s := zeros 64 s
  let s := s.update finalcount
  let wiped : Words := ⟨0, 0, 0, 0, 0⟩
  let buffer := List.replicate 64 0
  ({ state := transform wiped buffer, buffer }, s.state.bytes)

/-! ### Messages in pieces -/

/-- The object has taken the message. -/
structure Holds (s : Sha1) (message : List UInt8) : Prop where
  count_eq : s.count₁.toNat * 2 ^ 32 + s.count₀.toNat = 8 * message.length % 2 ^ 64
  length_eq : s.buffer.length = 64
  fed : feed Fips180.compress 64 (Fips180.initial, []) message =
    (s.state, s.buffer.take (message.length % 64))

variable {s : Sha1} {message : List UInt8}

theorem holds_reset (hs : s.buffer.length = 64) : Holds s.reset [] where
  count_eq := by simp [reset]
  length_eq := hs
  fed := by
    rw [feed_nil, List.length_nil, Nat.zero_mod, List.take_zero]
    rfl

theorem Holds.toNat_count₀ (h : Holds s message) :
    s.count₀.toNat = 8 * message.length % 2 ^ 32 := by
  have hcount := h.count_eq
  have hlt := s.count₀.toNat_lt
  omega

/-- The place in the buffer. -/
theorem Holds.place_eq (h : Holds s message) :
    ((s.count₀ >>> 3) &&& 63).toNat = message.length % 64 := by
  have hcount := h.toNat_count₀
  rw [UInt32.toNat_and, UInt32.toNat_shiftRight, show (63 : UInt32).toNat = 2 ^ 6 - 1 from rfl,
    Nat.and_two_pow_sub_one_eq_mod, show (3 : UInt32).toNat % 32 = 3 from rfl,
    Nat.shiftRight_eq_div_pow]
  omega

theorem count₀_update (s : Sha1) (data : List UInt8) :
    (s.update data).count₀ = s.count₀ + UInt32.ofNat data.length <<< 3 := by
  unfold update
  generalize UInt32.ofNat data.length = len
  rfl

theorem count₁_update (s : Sha1) (data : List UInt8) :
    (s.update data).count₁ =
      (if s.count₀ + UInt32.ofNat data.length <<< 3 < UInt32.ofNat data.length <<< 3 then
        s.count₁ + 1 else s.count₁) + UInt32.ofNat data.length >>> 29 := by
  unfold update
  generalize UInt32.ofNat data.length = len
  rfl

/-- The sum of two numbers of two digits. -/
theorem digits_add {a b c₀ c₁ n : ℕ} (ha : c₁ * b + c₀ = a % (b * b)) (h₀ : c₀ < b) :
    (c₁ + (c₀ + n % b) / b + n / b) % b * b + (c₀ + n % b) % b = (a + n) % (b * b) := by
  have hlow : (c₀ + n % b) % b < b := Nat.mod_lt _ (Nat.zero_lt_of_lt h₀)
  have hsum : (c₁ + (c₀ + n % b) / b + n / b) * b + (c₀ + n % b) % b = c₁ * b + c₀ + n := by
    have hn := Nat.div_add_mod' n b
    have hc := Nat.div_add_mod' (c₀ + n % b) b
    rw [Nat.add_mul, Nat.add_mul]
    omega
  have hdigits := @Nat.mod_mul b b ((c₁ + (c₀ + n % b) / b + n / b) * b + (c₀ + n % b) % b)
  rw [Nat.mul_add_mod_of_lt hlow, Nat.mul_comm _ b, Nat.mul_add_div (Nat.zero_lt_of_lt h₀),
    Nat.div_eq_of_lt hlow, Nat.add_zero, Nat.mul_comm b, hsum, ha, Nat.mod_add_mod] at hdigits
  rw [hdigits, Nat.add_comm, Nat.mul_comm]

/-- The count of 64 bits. -/
theorem Holds.count_update (h : Holds s message) {data : List UInt8}
    (hdata : data.length < 2 ^ 32 - 64) :
    (s.update data).count₁.toNat * 2 ^ 32 + (s.update data).count₀.toNat =
      8 * (message ++ data).length % 2 ^ 64 := by
  have hcount := h.count_eq
  obtain ⟨len, hlen⟩ : ∃ len, len = UInt32.ofNat data.length := ⟨_, rfl⟩
  have hnat : len.toNat = data.length := by
    rw [hlen, UInt32.toNat_ofNat']
    omega
  have hshift : (len <<< 3).toNat = data.length * 8 % 2 ^ 32 := by
    rw [UInt32.toNat_shiftLeft, hnat, show (3 : UInt32).toNat % 32 = 3 from rfl,
      Nat.shiftLeft_eq]
  have hhigh : (len >>> 29).toNat = data.length / 2 ^ 29 := by
    rw [UInt32.toNat_shiftRight, hnat, show (29 : UInt32).toNat % 32 = 29 from rfl,
      Nat.shiftRight_eq_div_pow]
  have hlt₀ := s.count₀.toNat_lt
  have hlt₁ := s.count₁.toNat_lt
  have hlow : (s.count₀ + len <<< 3).toNat =
      (s.count₀.toNat + data.length * 8 % 2 ^ 32) % 2 ^ 32 := by
    rw [UInt32.toNat_add, hshift]
  have hdigits := digits_add (n := data.length * 8) hcount hlt₀
  have hdiv : data.length * 8 / 2 ^ 32 = data.length / 2 ^ 29 := by omega
  rw [hdiv] at hdigits
  rw [count₀_update, count₁_update, ← hlen, hlow, UInt32.toNat_add, hhigh, List.length_append,
    Nat.mul_add, Nat.mul_comm 8 data.length]
  refine Eq.trans ?_ hdigits
  split
  case isTrue hcarry =>
    rw [UInt32.lt_iff_toNat_lt, hlow, hshift] at hcarry
    have hquot : (s.count₀.toNat + data.length * 8 % 2 ^ 32) / 2 ^ 32 = 1 := by omega
    rw [UInt32.toNat_add, hquot, Nat.mod_add_mod]
    rfl
  case isFalse hcarry =>
    rw [UInt32.lt_iff_toNat_lt, hlow, hshift] at hcarry
    have hquot : (s.count₀.toNat + data.length * 8 % 2 ^ 32) / 2 ^ 32 = 0 := by omega
    rw [hquot, Nat.add_zero]

/-- The loop over the whole blocks takes them all. -/
theorem feed_transforms {data : List UInt8} (hdata : data.length < 2 ^ 32 - 64) (fuel : ℕ)
    (state : Words) {i : ℕ} (hi : i ≤ data.length) (hfuel : data.length - i < 64 * fuel) :
    let r := transforms data data.length fuel state i
    feed Fips180.compress 64 (state, []) (data.drop i) = (r.1, data.drop r.2) := by
  induction fuel generalizing state i with
  | zero => omega
  | succ fuel ih =>
    dsimp only
    rw [transforms]
    by_cases hmore : (i + 63) % 2 ^ 32 < data.length
    · have hnext : (i + 64) % 2 ^ 32 = i + 64 := by omega
      have hblock : feed Fips180.compress 64 (state, []) ((data.drop i).take 64) =
          (Fips180.compress state ((data.drop i).take 64), []) :=
        feed_of_eq state (by rw [List.length_take, List.length_drop, List.length_nil]; omega)
          (Nat.zero_lt_succ 63)
      have hsplit : data.drop i = (data.drop i).take 64 ++ data.drop (i + 64) := by
        rw [← List.drop_drop, List.take_append_drop]
      have hrest := ih (Fips180.compress state ((data.drop i).take 64)) (i := i + 64)
        (by omega) (by omega)
      rw [if_pos hmore, hnext, transform_eq]
      conv_lhs => rw [hsplit, feed_append, hblock]
      exact hrest
    · have hfew : ([] : List UInt8).length + (data.drop i).length < 64 := by
        rw [List.length_nil, List.length_drop]
        omega
      rw [if_neg hmore]
      exact feed_of_lt state hfew

/-- The state and the part of the buffer that is in use. -/
theorem feed_absorb (hs : s.buffer.length = 64) {j : ℕ} (hj : j < 64) {data : List UInt8}
    (hdata : data.length < 2 ^ 32 - 64) :
    let r := s.absorb data j data.length
    r.2.length = 64 ∧ ∃ n, feed Fips180.compress 64 (s.state, s.buffer.take j) data =
      (r.1, r.2.take n) ∧ n ≤ 64 := by
  dsimp only
  have htake : (s.buffer.take j).length = j := by
    rw [List.length_take]
    omega
  rw [absorb]
  by_cases hlong : 63 < (j + data.length) % 2 ^ 32
  · have hi : (data.take (64 - j)).length = 64 - j := by
      rw [List.length_take]
      omega
    have hcopy : overwrite s.buffer (data.take (64 - j)) j =
        s.buffer.take j ++ data.take (64 - j) := overwrite_of_eq (by omega)
    obtain ⟨full, hfull⟩ : ∃ full, full = s.buffer.take j ++ data.take (64 - j) := ⟨_, rfl⟩
    have hlength : full.length = 64 := by
      rw [hfull, List.length_append]
      omega
    have hfirst : feed Fips180.compress 64 (s.state, s.buffer.take j) (data.take (64 - j)) =
        (Fips180.compress s.state full, []) := by
      rw [hfull]
      exact feed_of_eq s.state (by omega) (by omega)
    have hrest := feed_transforms hdata (data.length / 64 + 1) (Fips180.compress s.state full)
      (i := 64 - j) (by omega) (by omega)
    obtain ⟨r, hr⟩ : ∃ r, r = transforms data data.length (data.length / 64 + 1)
      (Fips180.compress s.state full) (64 - j) := ⟨_, rfl⟩
    have hshort := @length_feed _ _ Fips180.compress 64 (Fips180.compress s.state full, [])
      (Nat.zero_lt_succ 63) (data.drop (64 - j))
    dsimp only at hrest
    rw [← hr] at hrest
    rw [hrest] at hshort
    have hlt : (data.drop r.2).length < 64 := by
      rw [hshort]
      exact Nat.mod_lt _ (Nat.zero_lt_succ 63)
    rw [if_pos hlong]
    dsimp only
    rw [hcopy, ← hfull, transform_eq, ← hr]
    refine ⟨(length_overwrite (by omega)).trans hlength, (data.drop r.2).length, ?_, by omega⟩
    have hsplit : data = data.take (64 - j) ++ data.drop (64 - j) :=
      (List.take_append_drop _ _).symm
    conv_lhs => rw [hsplit, feed_append, hfirst, hrest]
    rw [overwrite, List.take_zero, List.nil_append, List.take_left]
  · have hfew : (s.buffer.take j).length + data.length < 64 := by omega
    rw [if_neg hlong]
    refine ⟨(length_overwrite (by omega)).trans hs, (s.buffer.take j ++ data).length, ?_, ?_⟩
    · rw [feed_of_lt s.state hfew, overwrite, List.take_left]
    · rw [List.length_append]
      omega

theorem Holds.update (h : Holds s message) (data : List UInt8)
    (hdata : data.length < 2 ^ 32 - 64) : Holds (s.update data) (message ++ data) := by
  have hlen : (UInt32.ofNat data.length).toNat = data.length := by
    rw [UInt32.toNat_ofNat']
    omega
  obtain ⟨hlength, n, hfeed, hn⟩ := feed_absorb h.length_eq
    (Nat.mod_lt message.length (Nat.zero_lt_succ 63)) hdata
  have hstate : (s.update data).state =
      (s.absorb data (message.length % 64) data.length).1 := by
    rw [← h.place_eq]
    conv_rhs => rw [← hlen]
    rfl
  have hbuffer : (s.update data).buffer =
      (s.absorb data (message.length % 64) data.length).2 := by
    rw [← h.place_eq]
    conv_rhs => rw [← hlen]
    rfl
  rw [← h.fed, ← feed_append, ← hstate, ← hbuffer] at hfeed
  rw [← hbuffer] at hlength
  have hcount := @length_feed _ _ Fips180.compress 64 (Fips180.initial, [])
    (Nat.zero_lt_succ 63) (message ++ data)
  rw [hfeed, List.length_take, hlength, Nat.min_eq_left hn, List.length_nil, Nat.zero_add] at hcount
  exact ⟨h.count_update hdata, hlength, by rw [hfeed, hcount]⟩

theorem Holds.and_504_iff (h : Holds s message) :
    s.count₀ &&& 504 = 448 ↔ message.length % 64 = 56 := by
  have hplace := h.place_eq
  have hand : (s.count₀ &&& 504).toNat = message.length % 64 * 8 := by
    have hmask := and_mask_shiftRight s.count₀.toNat 3 6 0 (Nat.zero_le 3)
    rw [Nat.shiftRight_zero, Nat.sub_zero, bits, h.toNat_count₀] at hmask
    rw [UInt32.toNat_and, show (504 : UInt32).toNat = (2 ^ 6 - 1) <<< 3 from rfl, h.toNat_count₀,
      hmask, Nat.shiftLeft_eq]
    omega
  rw [← UInt32.toNat_inj, hand, show (448 : UInt32).toNat = 448 from rfl]
  omega

/-- The zeros go up to eight bytes before the end of a block. -/
theorem Holds.zeros (h : Holds s message) (fuel : ℕ)
    (hfuel : (120 - message.length % 64) % 64 ≤ fuel) :
    Holds (zeros fuel s)
      (message ++ List.replicate ((120 - message.length % 64) % 64) 0) := by
  induction fuel generalizing s message with
  | zero =>
    obtain hzero : (120 - message.length % 64) % 64 = 0 := by omega
    rw [hzero, List.replicate_zero, List.append_nil]
    exact h
  | succ fuel ih =>
    rw [Sha1.zeros]
    by_cases hend : s.count₀ &&& 504 = 448
    · have hzero : (120 - message.length % 64) % 64 = 0 := by
        rw [h.and_504_iff.mp hend]
      rw [if_neg (not_not_intro hend), hzero, List.replicate_zero, List.append_nil]
      exact h
    · have hmod : message.length % 64 ≠ 56 := fun heq => hend (h.and_504_iff.mpr heq)
      have hone : (message ++ [0]).length = message.length + 1 := by
        rw [List.length_append, List.length_singleton]
      have hcount : (120 - message.length % 64) % 64 =
          (120 - (message ++ [0]).length % 64) % 64 + 1 := by
        rw [hone]
        omega
      have hrest := ih (h.update [0] (by decide)) (by omega)
      rw [if_pos hend, hcount, List.replicate_succ]
      rwa [List.append_assoc, List.singleton_append] at hrest

/-- The digest is that of the message, and the object can be used again. -/
theorem Holds.final (h : Holds s message) :
    s.final.2 = Fips180.sha1 message ∧ s.final.1.buffer.length = 64 := by
  have hcount := h.count_eq
  have hlt₀ := s.count₀.toNat_lt
  have hlt₁ := s.count₁.toNat_lt
  have hlength : toBe32 s.count₁ ++ toBe32 s.count₀ = Fips180.lengthBytes (8 * message.length) := by
    have h₁ : UInt32.ofNat (8 * message.length / 2 ^ 32) = s.count₁ := by
      rw [← UInt32.toNat_inj, UInt32.toNat_ofNat']
      omega
    have h₀ : UInt32.ofNat (8 * message.length) = s.count₀ := by
      rw [← UInt32.toNat_inj, UInt32.toNat_ofNat']
      omega
    rw [Fips180.lengthBytes, h₁, h₀]
  have hone : (message ++ [0x80]).length = message.length + 1 := by
    rw [List.length_append, List.length_singleton]
  have hmark := h.update [0x80] (by decide)
  have hzeros := hmark.zeros 64 (by omega)
  have hend := hzeros.update (Fips180.lengthBytes (8 * message.length))
    (by rw [Fips180.length_lengthBytes]; decide)
  have hpadded : message ++ [0x80] ++
      List.replicate ((120 - (message ++ [0x80]).length % 64) % 64) 0 ++
      Fips180.lengthBytes (8 * message.length) =
      message ++ Fips180.padding message.length := by
    have hcount : (120 - (message.length + 1) % 64) % 64 = (119 - message.length % 64) % 64 := by
      omega
    rw [Fips180.padding, hone, hcount]
    simp
  rw [hpadded] at hend
  have hdigest := Fips180.feed_padded message
  rw [hend.fed] at hdigest
  refine ⟨?_, rfl⟩
  rw [← hdigest, Sha1.final, hlength]

/-- The object gives the hash of FIPS 180, in whatever pieces it gets the message, and whatever
it was used for before. -/
theorem sha1_eq_fips (hs : s.buffer.length = 64) {pieces : List (List UInt8)}
    (hpieces : ∀ piece ∈ pieces, piece.length < 2 ^ 32 - 64) :
    (pieces.foldl Sha1.update s.reset).final.2 = Fips180.sha1 pieces.flatten := by
  have hrun : ∀ {s : Sha1} {message : List UInt8}, Holds s message →
      ∀ pieces : List (List UInt8), (∀ piece ∈ pieces, piece.length < 2 ^ 32 - 64) →
        Holds (pieces.foldl Sha1.update s) (message ++ pieces.flatten) := by
    intro s message h pieces hpieces
    induction pieces generalizing s message with
    | nil => rwa [List.flatten_nil, List.append_nil]
    | cons piece pieces ih =>
      obtain ⟨hpiece, hpieces⟩ := List.forall_mem_cons.mp hpieces
      have := ih (h.update piece hpiece) hpieces
      rwa [List.append_assoc, ← List.flatten_cons] at this
  exact (hrun (holds_reset hs) pieces hpieces).final.1

theorem sha1_eq_fips_two :
    ([[0x61], [0x62, 0x63]].foldl Sha1.update
      (reset ⟨⟨0, 0, 0, 0, 0⟩, 8, 0, List.replicate 64 0⟩)).final.2 =
        Fips180.sha1 [[0x61], [0x62, 0x63]].flatten :=
  sha1_eq_fips (List.length_replicate ..) (by decide)

/-! ### `hmac_sha1` -/

/-- `reset`, `update`, `final` and `get_hash`. -/
def hash (s : Sha1) (data : List UInt8) : Sha1 × List UInt8 := (s.reset.update data).final

/-- `hmac_sha1::make_bytes`: `none` where it writes behind `AppendBuf1`, which has
`HMAC_BUF_LEN` bytes. -/
def makeBytes (s : Sha1) (text key : List UInt8) : Option (Sha1 × List UInt8) :=
  let (s, key) := if 64 < key.length then s.hash key else (s, key)
  let key := key ++ List.replicate (64 - key.length) 0
  let ipad := key.map (0x36 ^^^ ·)
  if 4096 < ipad.length + text.length then none
  else
    let (s, report) := s.hash (ipad ++ text)
    let opad := key.map (0x5c ^^^ ·)
    some (s.hash (opad ++ report))

theorem hash_eq (hs : s.buffer.length = 64) (data : List UInt8)
    (hdata : data.length < 2 ^ 32 - 64) :
    (s.hash data).2 = Fips180.sha1 data ∧ (s.hash data).1.buffer.length = 64 :=
  ((holds_reset hs).update data hdata).final

/-- A key that is longer than a block is hashed. -/
theorem shortened (hs : s.buffer.length = 64) {key : List UInt8} (hkey : key.length < 2 ^ 31)
    {r : Sha1 × List UInt8} (hr : r = if 64 < key.length then s.hash key else (s, key)) :
    r.2 = (if 64 < key.length then Fips180.sha1 key else key) ∧
      r.1.buffer.length = 64 ∧ r.2.length ≤ 64 := by
  rw [hr]
  obtain ⟨hdigest, hbuffer⟩ := hash_eq hs key (by omega)
  split
  case isTrue => exact ⟨hdigest, hbuffer, by rw [hdigest, Fips180.length_sha1]; decide⟩
  case isFalse hshort => exact ⟨rfl, hs, Nat.le_of_not_lt hshort⟩

/-- The code is that of RFC 2104 where it is defined. -/
theorem makeBytes_of_le (hs : s.buffer.length = 64) {text key : List UInt8}
    (hkey : key.length < 2 ^ 31) (htext : text.length ≤ 4032) :
    (s.makeBytes text key).map Prod.snd = some (hmac Fips180.sha1 key text) := by
  obtain ⟨r, hr⟩ : ∃ r, r = if 64 < key.length then s.hash key else (s, key) := ⟨_, rfl⟩
  obtain ⟨hkeyed, hbuffer, hle⟩ := shortened hs hkey hr
  obtain ⟨block, hblock⟩ : ∃ block, block = r.2 ++ List.replicate (64 - r.2.length) 0 := ⟨_, rfl⟩
  have hlength : ∀ b : UInt8, (block.map (b ^^^ ·)).length = 64 := by
    intro b
    rw [List.length_map, hblock, List.length_append, List.length_replicate]
    omega
  have hpad : ∀ b : UInt8, block.map (b ^^^ ·) = block.map (· ^^^ b) := fun b =>
    List.map_congr_left fun x _ => UInt8.xor_comm b x
  obtain ⟨hinner, hbuffer'⟩ := hash_eq hbuffer (block.map (0x36 ^^^ ·) ++ text)
    (by rw [List.length_append, hlength]; omega)
  have houter := (hash_eq hbuffer'
    (block.map (0x5c ^^^ ·) ++ Fips180.sha1 (block.map (0x36 ^^^ ·) ++ text))
    (by rw [List.length_append, hlength, Fips180.length_sha1]; decide)).1
  unfold makeBytes
  dsimp only
  rw [← hr, ← hblock, hlength, if_neg (by omega), Option.map_some, hinner, houter, hpad, hpad, hmac,
    hblock, hkeyed]

/-- A text of more than 4032 bytes is written behind its buffer. -/
theorem makeBytes_of_lt (hs : s.buffer.length = 64) {text key : List UInt8}
    (hkey : key.length < 2 ^ 31) (htext : 4032 < text.length) :
    s.makeBytes text key = none := by
  obtain ⟨r, hr⟩ : ∃ r, r = if 64 < key.length then s.hash key else (s, key) := ⟨_, rfl⟩
  obtain ⟨-, -, hle⟩ := shortened hs hkey hr
  unfold makeBytes
  dsimp only
  rw [← hr, List.length_map, List.length_append, List.length_replicate, if_pos (by omega)]

/-- The code is that of RFC 2104, exactly if the text is no longer than 4032 bytes: a longer one
is written behind its buffer. -/
theorem make_bytes_eq_rfc (hs : s.buffer.length = 64) (text : List UInt8) {key : List UInt8}
    (hkey : key.length < 2 ^ 31) :
    (s.makeBytes text key).map Prod.snd =
      if text.length ≤ 4032 then some (hmac Fips180.sha1 key text) else none := by
  split
  case isTrue htext => exact makeBytes_of_le hs hkey htext
  case isFalse htext => rw [makeBytes_of_lt hs hkey (Nat.lt_of_not_le htext), Option.map_none]

theorem make_bytes_eq_rfc_short :
    (makeBytes ⟨⟨0, 0, 0, 0, 0⟩, 0, 0, List.replicate 64 0⟩ [0x61] [0x62]).map Prod.snd =
      some (hmac Fips180.sha1 [0x62] [0x61]) :=
  make_bytes_eq_rfc (List.length_replicate ..) [0x61] (by decide)

end Sha1

end CxxDeps.Security
