import CxxDeps.H264.BitReader

/-! The `bit_reader` with its position as the source keeps it, a byte and a bit of that byte,
and what a read does to the position. A read that finds too few bits puts the position back
to where it began.

`read_ue` computes `1 << zeros` as an `int`, which is defined for fewer than 31 zero bits;
the shift here takes the count modulo 32. -/

namespace CxxDeps.H264.ExpGolomb

open Library

/-- The members of `bit_reader`. -/
structure BitReader where
  buffer : List UInt8
  bytePos : ℕ
  bitPos : ℕ
  deriving DecidableEq, Repr

namespace BitReader

/-- `++bit_pos_`, with the step to the next byte. -/
def advance (r : BitReader) : BitReader :=
  if r.bitPos + 1 = 8 then { r with bytePos := r.bytePos + 1, bitPos := 0 }
  else { r with bitPos := r.bitPos + 1 }

/-- The position is put back to an old one. -/
def restore (r old : BitReader) : BitReader :=
  { r with bytePos := old.bytePos, bitPos := old.bitPos }

/-- The loop of `read_bits`: whether there were enough bits, and what is in `val` then. -/
def readBitsLoop : ℕ → UInt32 → BitReader → Bool × UInt32 × BitReader
  | 0, val, r => (true, val, r)
  | n + 1, val, r =>
    if r.bytePos ≥ r.buffer.length then (false, val <<< 1, r)
    else
      let bit := r.buffer.getD r.bytePos 0 >>> UInt8.ofNat (7 - r.bitPos) &&& 1
      readBitsLoop n (val <<< 1 ||| bit.toUInt32) r.advance

def readBits (bitCount : ℕ) (r : BitReader) : Bool × UInt32 × BitReader :=
  match readBitsLoop bitCount 0 r with
  | (true, val, r') => (true, val, r')
  | (false, val, r') => (false, val, r'.restore r)

/-- The first loop of `read_ue`. It ends with the bits, before the fuel does. -/
def countZeros : ℕ → UInt32 → BitReader → Bool × UInt32 × BitReader
  | 0, zeros, r => (false, zeros, r)
  | fuel + 1, zeros, r =>
    match readBits 1 r with
    | (false, _, r') => (false, zeros, r')
    | (true, v, r') => if v ≠ 0 then (true, zeros, r') else countZeros fuel (zeros + 1) r'

/-- `read_ue`, with what is in `val` before. -/
def readUe (val : UInt32) (r : BitReader) : Bool × UInt32 × BitReader :=
  match countZeros (8 * r.buffer.length + 1) 0 r with
  | (false, _, r') => (false, val, r'.restore r)
  | (true, zeros, r') =>
    let val := 1 <<< zeros - 1
    match readBits zeros.toNat r' with
    | (false, _, r'') => (false, val, r''.restore r)
    | (true, v, r'') => (true, val + v, r'')

def readSe (r : BitReader) : Bool × Int32 × BitReader :=
  match readUe 0 r with
  | (false, _, r') => (false, 0, r')
  | (true, ueVal, r') =>
    let sign : Int32 := if ueVal &&& 1 = 0 then -1 else 1
    (true, (((ueVal + 1) >>> 1) * sign.toUInt32).toInt32, r')

/-- The position in bits. -/
def position (r : BitReader) : ℕ := 8 * r.bytePos + r.bitPos

def moveTo (r : BitReader) (pos : ℕ) : BitReader :=
  { r with bytePos := pos / 8, bitPos := pos % 8 }

/-! ### A failed read -/

variable {r : BitReader}

@[simp] theorem advance_buffer (r : BitReader) : r.advance.buffer = r.buffer := by
  unfold advance
  split_ifs <;> rfl

theorem restore_eq {r' : BitReader} (h : r'.buffer = r.buffer) : r'.restore r = r := by
  rw [restore, h]

theorem readBitsLoop_buffer (n : ℕ) (val : UInt32) (r : BitReader) :
    (readBitsLoop n val r).2.2.buffer = r.buffer := by
  induction n generalizing val r with
  | zero => rfl
  | succ n ih =>
    rw [readBitsLoop]
    split_ifs
    · rfl
    · rw [ih, advance_buffer]

theorem readBits_buffer (n : ℕ) (r : BitReader) : (readBits n r).2.2.buffer = r.buffer := by
  have h := readBitsLoop_buffer n 0 r
  unfold readBits
  split
  · next hloop => rwa [hloop] at h
  · next hloop => rwa [hloop] at h

theorem readBits_failed {n : ℕ} (h : (readBits n r).1 = false) : (readBits n r).2.2 = r := by
  have hbuffer := readBitsLoop_buffer n 0 r
  unfold readBits at h ⊢
  split at h
  · cases h
  · next hloop =>
    rw [hloop] at hbuffer
    exact restore_eq hbuffer

theorem countZeros_buffer (fuel : ℕ) (zeros : UInt32) (r : BitReader) :
    (countZeros fuel zeros r).2.2.buffer = r.buffer := by
  induction fuel generalizing zeros r with
  | zero => rfl
  | succ fuel ih =>
    have hbuffer := readBits_buffer 1 r
    rw [countZeros]
    split
    · next hread => rwa [hread] at hbuffer
    · next hread =>
      rw [hread] at hbuffer
      split_ifs
      · exact hbuffer
      · rw [ih, hbuffer]

theorem readUe_failed (val : UInt32) (h : (readUe val r).1 = false) :
    (readUe val r).2.2 = r := by
  have hcount := countZeros_buffer (8 * r.buffer.length + 1) 0 r
  unfold readUe at h ⊢
  split at h
  · next hzeros =>
    rw [hzeros] at hcount
    exact restore_eq hcount
  · next zeros r' hzeros =>
    rw [hzeros] at hcount
    have hread := readBits_buffer zeros.toNat r'
    dsimp only at h ⊢
    split at h
    · next hbits =>
      rw [hbits] at hread
      exact restore_eq (hread.trans hcount)
    · cases h

theorem readSe_failed (h : (readSe r).1 = false) : (readSe r).2.2 = r := by
  unfold readSe at h ⊢
  split at h
  · next r' hue =>
    have hfailed := readUe_failed (r := r) 0 (by rw [hue])
    rw [hue] at hfailed
    exact hfailed
  · cases h

/-! ### The position that counts bits -/

@[simp] theorem moveTo_buffer (r : BitReader) (pos : ℕ) : (r.moveTo pos).buffer = r.buffer := rfl

theorem moveTo_position (r : BitReader) (pos : ℕ) : (r.moveTo pos).position = pos :=
  Nat.div_add_mod pos 8

/-- A reader is known by its bytes and its position. -/
theorem eq_moveTo {r' : BitReader} (hbuffer : r'.buffer = r.buffer) (h : r'.bitPos < 8) :
    r' = r.moveTo r'.position := by
  have hdiv : (8 * r'.bytePos + r'.bitPos) / 8 = r'.bytePos := by omega
  have hmod : (8 * r'.bytePos + r'.bitPos) % 8 = r'.bitPos := by omega
  rw [moveTo, position, hdiv, hmod, ← hbuffer]

theorem advance_position (r : BitReader) : r.advance.position = r.position + 1 := by
  unfold advance
  split_ifs
  · simp only [position]
    omega
  · rfl

theorem advance_bitPos (h : r.bitPos < 8) : r.advance.bitPos < 8 := by
  unfold advance
  split_ifs
  · exact Nat.succ_pos 7
  · simp only
    omega

/-- What a read gives, as the reader of positions has it. -/
def outcome : Bool × UInt32 × BitReader → Option (UInt32 × ℕ)
  | (true, val, r) => some (val, r.position)
  | (false, _, _) => none

/-- The loop is the one of the reader of positions. -/
theorem outcome_readBitsLoop (limit n : ℕ) (val : UInt32) (h : r.bitPos < 8) :
    outcome (readBitsLoop n val r) =
        (H264.BitReader.readBitsFrom limit n val).value r.buffer r.position ∧
      (readBitsLoop n val r).2.2.bitPos < 8 := by
  induction n generalizing val r with
  | zero => exact ⟨rfl, h⟩
  | succ n ih =>
    have hdiv : r.position / 8 = r.bytePos := by
      rw [position]
      omega
    have hmod : r.position % 8 = r.bitPos := by
      rw [position]
      omega
    rw [readBitsLoop, H264.BitReader.readBitsFrom, Reader.value_bind, Reader.value,
      H264.BitReader.readBit, hdiv, hmod]
    split_ifs
    · exact ⟨rfl, h⟩
    · obtain ⟨hvalue, hbit⟩ := ih (val <<< 1 |||
        (r.buffer.getD r.bytePos 0 >>> UInt8.ofNat (7 - r.bitPos) &&& 1).toUInt32)
        (advance_bitPos h)
      rw [advance_buffer, advance_position] at hvalue
      exact ⟨hvalue, hbit⟩

theorem outcome_readBits (limit n : ℕ) (h : r.bitPos < 8) :
    outcome (readBits n r) = (H264.BitReader.readBits limit n).value r.buffer r.position ∧
      (readBits n r).2.2.bitPos < 8 := by
  obtain ⟨hvalue, hbit⟩ := outcome_readBitsLoop limit n 0 h
  rw [H264.BitReader.readBits, ← hvalue]
  unfold readBits
  split
  · next hloop =>
    rw [hloop] at hbit ⊢
    exact ⟨rfl, hbit⟩
  · next hloop =>
    rw [hloop]
    exact ⟨rfl, h⟩

theorem outcome_countZeros (limit fuel : ℕ) (zeros : UInt32) (h : r.bitPos < 8) :
    outcome (countZeros fuel zeros r) =
        (H264.BitReader.countZeros limit fuel zeros).value r.buffer r.position ∧
      (countZeros fuel zeros r).2.2.bitPos < 8 := by
  induction fuel generalizing zeros r with
  | zero => exact ⟨rfl, h⟩
  | succ fuel ih =>
    obtain ⟨hvalue, hbit⟩ := outcome_readBits limit 1 h
    have hbuffer := readBits_buffer 1 r
    rw [countZeros, H264.BitReader.countZeros, Reader.value_bind, ← hvalue]
    cases hread : readBits 1 r with
    | mk ok result =>
      obtain ⟨v, r'⟩ := result
      rw [hread] at hbit hbuffer
      cases ok with
      | false => exact ⟨rfl, hbit⟩
      | true =>
        simp only [outcome, Option.bind_some]
        by_cases hv : v ≠ 0
        · rw [if_pos hv, if_pos hv]
          exact ⟨rfl, hbit⟩
        · rw [if_neg hv, if_neg hv, ← hbuffer]
          exact ih (zeros + 1) hbit

/-- And so `read_ue` is the one of the reader of positions, whatever limit that notes its
accesses against. -/
theorem outcome_readUe (limit : ℕ) (val : UInt32) (h : r.bitPos < 8) :
    outcome (readUe val r) = (H264.BitReader.readUe limit).value r.buffer r.position ∧
      (readUe val r).2.2.buffer = r.buffer ∧ (readUe val r).2.2.bitPos < 8 := by
  obtain ⟨hvalue, hbit⟩ := outcome_countZeros limit (8 * r.buffer.length + 1) 0 h
  have hbuffer := countZeros_buffer (8 * r.buffer.length + 1) 0 r
  rw [readUe, H264.BitReader.readUe, Reader.value_bind, Reader.value_size, Option.bind_some,
    Reader.value_bind, ← hvalue]
  cases hcount : countZeros (8 * r.buffer.length + 1) 0 r with
  | mk ok result =>
    obtain ⟨zeros, r'⟩ := result
    rw [hcount] at hbit hbuffer
    cases ok with
    | false => exact ⟨rfl, hbuffer, h⟩
    | true =>
      obtain ⟨hvalue', hbit'⟩ := outcome_readBits limit zeros.toNat hbit
      have hbuffer' := readBits_buffer zeros.toNat r'
      simp only [outcome, Option.bind_some]
      rw [Reader.value_bind, Reader.value_note, Option.bind_some, Reader.value_bind, ← hbuffer,
        ← hvalue']
      cases hread : readBits zeros.toNat r' with
      | mk ok result =>
        obtain ⟨v, r''⟩ := result
        rw [hread] at hbit' hbuffer'
        cases ok with
        | false => exact ⟨rfl, hbuffer', h⟩
        | true => exact ⟨rfl, hbuffer', hbit'⟩

end BitReader

/-! ### Codes -/

/-- The lowest `w` bits of a number, the highest one first. -/
def toBits (w n : ℕ) : List Bool := (List.range w).map fun i => n.testBit (w - 1 - i)

/-- The code `ue(v)`: as many zero bits as `v + 1` has bits behind its first one, and then
`v + 1`. -/
def ueCode (v : ℕ) : List Bool :=
  List.replicate (v + 1).log2 false ++ toBits ((v + 1).log2 + 1) (v + 1)

/-- The number that stands for a signed one in `se(v)`. -/
def seIndex (k : ℤ) : ℕ := if 0 < k then (2 * k - 1).toNat else (-2 * k).toNat

@[simp] theorem length_toBits (w n : ℕ) : (toBits w n).length = w := by simp [toBits]

theorem toBits_succ (w n : ℕ) : toBits (w + 1) n = n.testBit w :: toBits w n := by
  simp only [toBits, List.range_succ_eq_map, List.map_cons, List.map_map]
  congr 1
  apply List.map_congr_left
  intro i hi
  have := List.mem_range.mp hi
  rw [Function.comp_apply, show w + 1 - 1 - (i + 1) = w - 1 - i by omega]

theorem toBits_concat (w n : ℕ) : toBits (w + 1) n = toBits w (n / 2) ++ [n.testBit 0] := by
  simp only [toBits, List.range_succ, List.map_append, List.map_singleton]
  congr 1
  · apply List.map_congr_left
    intro i hi
    have := List.mem_range.mp hi
    rw [Nat.testBit_div_two, show w - 1 - i + 1 = w + 1 - 1 - i by omega]
  · rw [Nat.add_sub_cancel, Nat.sub_self]

theorem ofBits_toBits (w n : ℕ) : ofBits (toBits w n) = n % 2 ^ w := by
  induction w generalizing n with
  | zero => rw [pow_zero, Nat.mod_one]; rfl
  | succ w ih =>
    have hlow : (n.testBit 0).toNat = n % 2 := by
      rw [Nat.testBit_zero]
      rcases Nat.mod_two_eq_zero_or_one n with h | h <;> simp [h]
    have hbits : ofBits (toBits (w + 1) n) = 2 * ofBits (toBits w (n / 2)) + n % 2 := by
      rw [toBits_concat, ofBits, List.foldl_append, ← hlow]
      rfl
    rw [hbits, ih, pow_succ', Nat.mod_mul, Nat.add_comm]

/-- A code begins with its zero bits and a one. -/
theorem ueCode_eq (v : ℕ) :
    ueCode v =
      List.replicate (v + 1).log2 false ++ true :: toBits (v + 1).log2 (v + 1) := by
  have htop : (v + 1).testBit (v + 1).log2 = true := Nat.testBit_log2 (by omega)
  rw [ueCode, toBits_succ, htop]

theorem length_ueCode (v : ℕ) : (ueCode v).length = 2 * (v + 1).log2 + 1 := by
  rw [ueCode, List.length_append, List.length_replicate, length_toBits]
  omega

/-- What the bits behind the one add to. -/
theorem ue_value (v : ℕ) : 2 ^ (v + 1).log2 - 1 + (v + 1) % 2 ^ (v + 1).log2 = v := by
  have hlow : 2 ^ (v + 1).log2 ≤ v + 1 := Nat.log2_self_le (by omega)
  have hhigh : v + 1 < 2 ^ ((v + 1).log2 + 1) := Nat.lt_log2_self
  rw [pow_succ] at hhigh
  rw [Nat.mod_eq_sub_mod hlow, Nat.mod_eq_of_lt (by omega)]
  have := Nat.two_pow_pos (v + 1).log2
  omega

namespace BitReader

variable {r : BitReader} {rest : List Bool}

/-- The reader of positions reads a code of at most 30 zero bits at any position. -/
theorem value_readUe {buffer : List UInt8} {pos v : ℕ}
    (hbits : (bitsOf buffer).drop pos = ueCode v ++ rest) (hv : (v + 1).log2 ≤ 30) :
    ∃ val, (H264.BitReader.readUe buffer.length).value buffer pos =
      some (val, pos + (ueCode v).length) ∧ val.toNat = v := by
  obtain ⟨z, hz⟩ : ∃ z, z = (v + 1).log2 := ⟨_, rfl⟩
  have hvalue := ue_value v
  rw [length_ueCode]
  rw [ueCode_eq, List.append_assoc, List.cons_append] at hbits
  rw [← hz] at hbits hv hvalue ⊢
  have hlen : pos + z + 1 + z ≤ 8 * buffer.length := by
    have := congrArg List.length hbits
    rw [List.length_drop, length_bitsOf, List.length_append, List.length_replicate,
      List.length_cons, List.length_append, length_toBits] at this
    omega
  have hz' : (UInt32.ofNat z).toNat = z := UInt32.toNat_ofNat_of_lt' (show z < 4294967296 by omega)
  have hcount :
      (H264.BitReader.countZeros buffer.length (8 * buffer.length + 1) 0).value buffer pos =
        some (0 + UInt32.ofNat z, pos + z + 1) :=
    (H264.BitReader.countZeros_eq (by omega) hbits (by omega) 0).1
  rw [UInt32.zero_add] at hcount
  have hinfo : (bitsOf buffer).drop (pos + z + 1) = toBits z (v + 1) ++ rest := by
    rw [Nat.add_assoc, ← List.drop_drop, hbits, ← List.drop_drop,
      List.drop_left' List.length_replicate]
    rfl
  obtain ⟨x, hx, hnat⟩ :
      ∃ x, (H264.BitReader.readBitsFrom buffer.length (toBits z (v + 1)).length 0).value buffer
          (pos + z + 1) = some (x, pos + z + 1 + (toBits z (v + 1)).length) ∧
        x.toNat = ofBits (toBits z (v + 1)) :=
    H264.BitReader.value_readBitsFrom hinfo (show (0 : UInt32).toNat < 2 ^ 0 by decide)
      (by rw [length_toBits]; omega)
  rw [length_toBits] at hx
  have hnat : x.toNat = (v + 1) % 2 ^ z := by
    rw [hnat, ofBits_toBits]
  have hlt : x.toNat < 2 ^ z := by
    rw [hnat]
    exact Nat.mod_lt _ (Nat.two_pow_pos z)
  refine ⟨1 <<< UInt32.ofNat z - 1 + x, ?_, ?_⟩
  · rw [H264.BitReader.readUe, Reader.value_bind, Reader.value_size, Option.bind_some,
      Reader.value_bind, hcount, Option.bind_some, Reader.value_bind, Reader.value_note,
      Option.bind_some, Reader.value_bind, H264.BitReader.readBits, hz', hx, Option.bind_some,
      show pos + z + 1 + z = pos + (2 * z + 1) by omega]
    rfl
  · rw [H264.BitReader.toNat_ue (by omega) hlt, hnat, hvalue]

theorem readUe_eq {v : ℕ} (val : UInt32) (h : r.bitPos < 8)
    (hbits : (bitsOf r.buffer).drop r.position = ueCode v ++ rest) (hv : (v + 1).log2 ≤ 30) :
    readUe val r =
      (true, UInt32.ofNat v, r.moveTo (r.position + (ueCode v).length)) := by
  obtain ⟨x, hx, hnat⟩ := value_readUe hbits hv
  obtain ⟨hvalue, hbuffer, hbit⟩ := outcome_readUe r.buffer.length val h
  rw [hx] at hvalue
  have hx' : UInt32.ofNat v = x := by rw [← hnat, UInt32.ofNat_toNat]
  cases hread : readUe val r with
  | mk ok result =>
    obtain ⟨v', r'⟩ := result
    rw [hread] at hvalue hbuffer hbit
    cases ok with
    | false => cases hvalue
    | true =>
      have hsame := Option.some.inj hvalue
      rw [Prod.mk.injEq] at hsame
      rw [hx', ← hsame.1, ← hsame.2]
      exact congrArg (fun r' => (true, v', r')) (eq_moveTo hbuffer hbit)

/-- A product of 32 bits, as a signed number. -/
theorem toInt_mul_sign (a : UInt32) (ha : a.toNat < 2 ^ 31) :
    (a * (1 : Int32).toUInt32).toInt32.toInt = a.toNat ∧
      (a * (-1 : Int32).toUInt32).toInt32.toInt = -a.toNat := by
  have hone : (1 : Int32).toUInt32 = 1 := rfl
  have hminus : (-1 : Int32).toUInt32 = -1 := rfl
  have hsigned (x : UInt32) : x.toInt32.toInt = (x.toNat : ℤ).bmod (2 ^ 32) :=
    BitVec.toInt_eq_toNat_bmod x.toBitVec
  constructor
  · rw [hone, UInt32.mul_one, hsigned, Int.bmod_def]
    omega
  · have hneg : (-a).toNat = (4294967296 - a.toNat) % 4294967296 := UInt32.toNat_neg a
    rw [hminus, UInt32.mul_neg, UInt32.mul_one, hsigned, hneg, Int.bmod_def]
    omega

/-- An odd number is the one above it, halved; an even number is its half, below zero. -/
theorem toInt_se {k : ℤ} (hk : (seIndex k + 1).log2 ≤ 30) :
    (((UInt32.ofNat (seIndex k) + 1) >>> 1) *
      (if UInt32.ofNat (seIndex k) &&& 1 = 0 then (-1 : Int32) else 1).toUInt32).toInt32.toInt =
        k := by
  obtain ⟨n, hn⟩ : ∃ n, n = seIndex k := ⟨_, rfl⟩
  rw [← hn] at hk ⊢
  have hlt : n + 1 < 2 ^ 31 := (Nat.log2_lt (by omega)).mp (by omega)
  have hnat : (UInt32.ofNat n).toNat = n := UInt32.toNat_ofNat_of_lt' (show n < 4294967296 by omega)
  have hhalf : ((UInt32.ofNat n + 1) >>> 1).toNat = (n + 1) / 2 := by
    rw [UInt32.toNat_shiftRight, UInt32.toNat_add, hnat, UInt32.toNat_one,
      Nat.mod_eq_of_lt (by omega)]
    rfl
  have heven : UInt32.ofNat n &&& 1 = 0 ↔ n % 2 = 0 := by
    rw [← UInt32.toNat_inj, UInt32.toNat_and, hnat, UInt32.toNat_one, Nat.and_one_is_mod]
    rfl
  obtain ⟨hplus, hminus⟩ := toInt_mul_sign ((UInt32.ofNat n + 1) >>> 1) (by rw [hhalf]; omega)
  unfold seIndex at hn
  by_cases h : n % 2 = 0
  · rw [if_pos (heven.mpr h), hminus, hhalf]
    split_ifs at hn <;> omega
  · rw [if_neg (fun h' => h (heven.mp h')), hplus, hhalf]
    split_ifs at hn <;> omega

theorem readSe_eq {k : ℤ} (h : r.bitPos < 8)
    (hbits : (bitsOf r.buffer).drop r.position = ueCode (seIndex k) ++ rest)
    (hk : (seIndex k + 1).log2 ≤ 30) :
    ∃ val, readSe r = (true, val, r.moveTo (r.position + (ueCode (seIndex k)).length)) ∧
      val.toInt = k := by
  refine ⟨_, ?_, toInt_se hk⟩
  rw [readSe, readUe_eq 0 h hbits hk]

/-- A code of at most 30 zero bits is read at any position and passed over, also as a signed
number, and a read that fails leaves the reader as it was. Behind 31 zero bits or more `1 << zeros`
is not defined; the position, which is all that is said of a failed read, does not depend on it. -/
theorem reads_codes (r : BitReader) :
    (∀ v rest val, r.bitPos < 8 → (v + 1).log2 ≤ 30 →
      (bitsOf r.buffer).drop r.position = ueCode v ++ rest →
      readUe val r = (true, UInt32.ofNat v, r.moveTo (r.position + (ueCode v).length)) ∧
        (UInt32.ofNat v).toNat = v) ∧
    (∀ k rest, r.bitPos < 8 → (seIndex k + 1).log2 ≤ 30 →
      (bitsOf r.buffer).drop r.position = ueCode (seIndex k) ++ rest →
      ∃ val, readSe r = (true, val, r.moveTo (r.position + (ueCode (seIndex k)).length)) ∧
        val.toInt = k) ∧
    (∀ n, (readBits n r).1 = false → (readBits n r).2.2 = r) ∧
    (∀ val, (readUe val r).1 = false → (readUe val r).2.2 = r) ∧
    ((readSe r).1 = false → (readSe r).2.2 = r) := by
  refine ⟨?_, ?_, fun n => readBits_failed, readUe_failed, readSe_failed⟩
  · intro v rest val h hv hbits
    have hlt : v + 1 < 2 ^ 31 := (Nat.log2_lt (by omega)).mp (by omega)
    exact ⟨readUe_eq val h hbits hv,
      UInt32.toNat_ofNat_of_lt' (show v < 4294967296 by omega)⟩
  · intro k rest h hk hbits
    exact readSe_eq h hbits hk

/-- The code of 5, which is also that of 3 as a signed number, from one byte on into the next;
behind it there are only zero bits. -/
theorem reads_codes_across :
    readUe 0 ⟨[0xF9, 0x80], 0, 5⟩ = (true, 5, ⟨[0xF9, 0x80], 1, 2⟩) ∧
      (∃ val, readSe ⟨[0xF9, 0x80], 0, 5⟩ = (true, val, ⟨[0xF9, 0x80], 1, 2⟩) ∧ val.toInt = 3) ∧
      (readUe 0 ⟨[0xF9, 0x80], 1, 2⟩).2.2 = ⟨[0xF9, 0x80], 1, 2⟩ := by
  obtain ⟨hue, hse, -, -, -⟩ := reads_codes ⟨[0xF9, 0x80], 0, 5⟩
  obtain ⟨-, -, -, hfailed, -⟩ := reads_codes ⟨[0xF9, 0x80], 1, 2⟩
  refine ⟨?_, ?_, hfailed 0 (by decide)⟩
  · exact (hue 5 (List.replicate 6 false) 0 (by decide) (by decide) (by decide)).1
  · exact hse 3 (List.replicate 6 false) (by decide) (by decide) (by decide)

end BitReader

end CxxDeps.H264.ExpGolomb
