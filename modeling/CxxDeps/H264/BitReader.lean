import CxxDeps.Library.Bits
import CxxDeps.Library.Reader

/-! The `bit_reader` of `h264/bit_reader.cpp`, as a reader whose position counts bits: byte
`byte_pos_` and bit `bit_pos_` of it are position `8 * byte_pos_ + bit_pos_`. The reader may
be given more bytes than there are to read; the accesses are noted against the bytes that
there are, and `1 << zeros` as an `int`.

`read_ue` reads an Exp-Golomb code: some zero bits, a one, and as many bits again. -/

namespace CxxDeps.H264

open Library

/-- The bits of bytes, from the highest one of each on. -/
def bitsOf (bytes : List UInt8) : List Bool :=
  bytes.flatMap fun b => (List.range 8).map fun i => b.toNat.testBit (7 - i)

/-- The number with these bits, the highest one first. -/
def ofBits (bits : List Bool) : ℕ := bits.foldl (fun n b => 2 * n + b.toNat) 0

/-- The value of the Exp-Golomb code that the bits begin with. -/
def ue (bits : List Bool) : Option ℕ :=
  let zeros := bits.findIdx id
  let info := (bits.drop (zeros + 1)).take zeros
  if zeros < bits.length ∧ info.length = zeros then some (2 ^ zeros - 1 + ofBits info) else none

namespace BitReader

variable (limit : ℕ)

/-- A round of the loop of `read_bits`; `limit` is the number of bytes that there are. -/
def readBit : Reader UInt32 := fun buffer pos =>
  if pos / 8 ≥ buffer.length then ([], none)
  else ([.access ⟨limit, pos / 8, pos / 8 + 1⟩],
    some ((buffer.getD (pos / 8) 0 >>> UInt8.ofNat (7 - pos % 8) &&& 1).toUInt32, pos + 1))

def readBitsFrom : ℕ → UInt32 → Reader UInt32
  | 0, val => pure val
  | n + 1, val => do
    let b ← readBit limit
    readBitsFrom n (val <<< 1 ||| b)

def readBits (bitCount : ℕ) : Reader UInt32 := readBitsFrom limit bitCount 0

/-- The first loop of `read_ue`. It ends with the bits, before the fuel does. -/
def countZeros : ℕ → UInt32 → Reader UInt32
  | 0, _ => Reader.giveUp
  | fuel + 1, zeros => do
    let v ← readBits limit 1
    if v ≠ 0 then return zeros
    else countZeros fuel (zeros + 1)

def readUe : Reader UInt32 := do
  let size ← Reader.size
  let zeros ← countZeros limit (8 * size + 1) 0
  Reader.note (2 ^ zeros.toNat)
  let v ← readBits limit zeros.toNat
  return (1 <<< zeros - 1) + v

end BitReader

/-! ### Bits of bytes -/

theorem length_bitsOf (bytes : List UInt8) : (bitsOf bytes).length = 8 * bytes.length := by
  induction bytes with
  | nil => rfl
  | cons b bytes ih =>
    rw [bitsOf, List.flatMap_cons, List.length_append, ← bitsOf, ih]
    simp
    omega

theorem bitsOf_append (bytes bytes' : List UInt8) :
    bitsOf (bytes ++ bytes') = bitsOf bytes ++ bitsOf bytes' := List.flatMap_append

theorem getElem?_bitsOf (bytes : List UInt8) (pos : ℕ) :
    (bitsOf bytes)[pos]? = (bytes[pos / 8]?).map fun b => b.toNat.testBit (7 - pos % 8) := by
  induction bytes generalizing pos with
  | nil => simp [bitsOf]
  | cons b bytes ih =>
    rw [bitsOf, List.flatMap_cons, ← bitsOf]
    by_cases hpos : pos < 8
    · rw [List.getElem?_append_left (by simpa using hpos), Nat.div_eq_of_lt hpos,
        Nat.mod_eq_of_lt hpos]
      simp [hpos]
    · obtain ⟨pos, rfl⟩ := Nat.exists_eq_add_of_le' (Nat.not_lt.mp hpos)
      rw [List.getElem?_append_right (by simp), Nat.add_div_right _ (by decide), Nat.add_mod_right]
      simpa using ih pos

/-! ### Exp-Golomb codes -/

theorem zeros_or_one (bits : List Bool) :
    bits = List.replicate bits.length false ∨
      ∃ z rest, bits = List.replicate z false ++ true :: rest := by
  induction bits with
  | nil => exact .inl rfl
  | cons b bits ih =>
    cases b with
    | true => exact .inr ⟨0, bits, rfl⟩
    | false =>
      rcases ih with hzeros | ⟨z, rest, hone⟩
      · exact .inl (congrArg (false :: ·) hzeros)
      · exact .inr ⟨z + 1, rest, congrArg (false :: ·) hone⟩

theorem findIdx_replicate (z : ℕ) (rest : List Bool) :
    (List.replicate z false ++ rest).findIdx id = z + rest.findIdx id := by
  induction z with
  | zero => simp
  | succ z ih =>
    rw [List.replicate_succ, List.cons_append, List.findIdx_cons]
    simp only [id_eq, cond_false, ih]
    omega

theorem ue_zeros (z : ℕ) : ue (List.replicate z false) = none := by
  have hidx := findIdx_replicate z []
  rw [List.append_nil, List.findIdx_nil, Nat.add_zero] at hidx
  rw [ue, hidx, List.length_replicate, if_neg (fun h => Nat.lt_irrefl z h.1)]

theorem ue_one (z : ℕ) (rest : List Bool) :
    ue (List.replicate z false ++ true :: rest) =
      if z ≤ rest.length then some (2 ^ z - 1 + ofBits (rest.take z)) else none := by
  have hidx : (List.replicate z false ++ true :: rest).findIdx id = z := by
    rw [findIdx_replicate, List.findIdx_cons]
    rfl
  have hdrop : (List.replicate z false ++ true :: rest).drop (z + 1) = rest := by
    rw [← List.drop_drop, List.drop_left' List.length_replicate]
    rfl
  rw [ue, hidx, hdrop]
  refine if_congr ?_ rfl rfl
  rw [List.length_append, List.length_replicate, List.length_cons, List.length_take]
  omega

theorem ofBits_lt (bits : List Bool) : ofBits bits < 2 ^ bits.length := by
  have h : ∀ n, bits.foldl (fun n b => 2 * n + b.toNat) n < (n + 1) * 2 ^ bits.length := by
    induction bits with
    | nil => simp
    | cons b bits ih =>
      intro n
      have hb := b.toNat_le
      have hnext := ih (2 * n + b.toNat)
      rw [List.foldl_cons, List.length_cons, pow_succ]
      calc _ < (2 * n + b.toNat + 1) * 2 ^ bits.length := hnext
        _ ≤ (2 * (n + 1)) * 2 ^ bits.length := Nat.mul_le_mul_right _ (by omega)
        _ = _ := by ring
  simpa [ofBits] using h 0

namespace BitReader

variable {limit : ℕ} {buffer : List UInt8} {pos : ℕ}

theorem shifted_bit (b : UInt8) {k : ℕ} (hk : k < 8) :
    (b >>> UInt8.ofNat k &&& 1).toUInt32 = (b.toNat.testBit k).toUInt32 := by
  have hbit : (b >>> UInt8.ofNat k &&& 1).toNat = b.toNat / 2 ^ k % 2 := by
    rw [UInt8.toNat_and, UInt8.toNat_shiftRight, UInt8.toNat_ofNat_of_lt' (hk.trans (by decide)),
      Nat.mod_eq_of_lt hk, Nat.shiftRight_eq_div_pow]
    exact Nat.and_one_is_mod _
  apply UInt32.toNat_inj.mp
  rw [UInt8.toNat_toUInt32, hbit, Nat.testBit_eq_decide_div_mod_eq]
  rcases Nat.mod_two_eq_zero_or_one (b.toNat / 2 ^ k) with h | h
  · rw [h]
    rfl
  · rw [h]
    rfl

theorem value_readBit : (readBit limit).value buffer pos =
    ((bitsOf buffer)[pos]?).map fun b => (b.toUInt32, pos + 1) := by
  rw [getElem?_bitsOf, Reader.value, readBit]
  by_cases hpos : pos / 8 ≥ buffer.length
  · rw [if_pos hpos, List.getElem?_eq_none hpos]
    rfl
  · rw [if_neg hpos, List.getD_eq_getElem?_getD, List.getElem?_eq_getElem (Nat.not_le.mp hpos)]
    simp [shifted_bit _ (show 7 - pos % 8 < 8 by omega)]

theorem uses_readBit (h : pos < 8 * buffer.length) :
    (readBit limit).uses buffer pos = [.access ⟨limit, pos / 8, pos / 8 + 1⟩] := by
  rw [Reader.uses, readBit, if_neg (by omega)]

/-- The accumulator of a loop of `read_bits`, which has room for the bits to come. -/
theorem toNat_push {val : UInt32} (hval : val.toNat < 2 ^ 31) (b : Bool) :
    (val <<< 1 ||| b.toUInt32).toNat = 2 * val.toNat + b.toNat := by
  have hshift : (val <<< 1).toNat = val.toNat <<< 1 := by
    rw [UInt32.toNat_shiftLeft, Nat.mod_eq_of_lt]
    · rfl
    · rw [Nat.shiftLeft_eq]
      simp
      omega
  have hb : b.toUInt32.toNat = b.toNat := by cases b <;> rfl
  rw [UInt32.toNat_or, hshift, hb, ← Nat.shiftLeft_add_eq_or_of_lt b.toNat_lt, Nat.shiftLeft_eq]
  omega

theorem value_readBitsFrom {bits rest : List Bool} (h : (bitsOf buffer).drop pos = bits ++ rest)
    {val : UInt32} {k : ℕ} (hval : val.toNat < 2 ^ k) (hk : k + bits.length ≤ 32) :
    ∃ v, (readBitsFrom limit bits.length val).value buffer pos = some (v, pos + bits.length) ∧
      v.toNat = bits.foldl (fun n b => 2 * n + b.toNat) val.toNat := by
  induction bits generalizing pos val k with
  | nil => exact ⟨val, rfl, rfl⟩
  | cons b bits ih =>
    rw [List.length_cons] at hk
    have hroom : 2 ^ k ≤ 2 ^ 31 := Nat.pow_le_pow_right (by decide) (by omega)
    have hpush : (val <<< 1 ||| b.toUInt32).toNat = 2 * val.toNat + b.toNat :=
      toNat_push (by omega) b
    have hbit : (bitsOf buffer)[pos]? = some b := by
      rw [← Nat.add_zero pos, ← List.getElem?_drop, h]
      rfl
    have hrest : (bitsOf buffer).drop (pos + 1) = bits ++ rest := by
      rw [← List.drop_drop, h]
      rfl
    have hval' : (val <<< 1 ||| b.toUInt32).toNat < 2 ^ (k + 1) := by
      rw [hpush, pow_succ]
      have := b.toNat_le
      omega
    obtain ⟨v, hv, hnat⟩ := ih hrest hval' (by omega)
    refine ⟨v, ?_, ?_⟩
    · rw [List.length_cons, readBitsFrom, Reader.value_bind, value_readBit, hbit]
      simp only [Option.map_some, Option.bind_some]
      rw [hv, Nat.add_assoc, Nat.add_comm 1]
    · rw [hnat, hpush, List.foldl_cons]

theorem allOk_readBitsFrom (hlimit : limit < buffer.length) (n : ℕ) (hpos : pos ≤ 8 * limit)
    (val : UInt32) :
    AllOk ((readBitsFrom limit n val).uses buffer pos) ↔ pos + n ≤ 8 * limit := by
  induction n generalizing pos val with
  | zero => simpa [readBitsFrom] using hpos
  | succ n ih =>
    have hin : pos < 8 * buffer.length := by omega
    obtain ⟨b, hb⟩ : ∃ b, (bitsOf buffer)[pos]? = some b :=
      ⟨_, List.getElem?_eq_getElem (by rwa [length_bitsOf])⟩
    rw [readBitsFrom, Reader.uses_bind, uses_readBit hin, value_readBit, hb]
    simp only [Option.map_some, List.singleton_append, allOk_cons, Use.Ok, Access.InRange]
    by_cases hlt : pos < 8 * limit
    · rw [ih hlt]
      omega
    · omega

theorem value_readBits_one : (readBits limit 1).value buffer pos =
    ((bitsOf buffer)[pos]?).map fun b => (b.toUInt32, pos + 1) := by
  rw [readBits, readBitsFrom, Reader.value_bind, value_readBit]
  cases (bitsOf buffer)[pos]? with
  | none => rfl
  | some b =>
    have hb : (0 : UInt32) <<< 1 ||| b.toUInt32 = b.toUInt32 := by cases b <;> decide
    simp only [Option.map_some, Option.bind_some, readBitsFrom, hb]
    rfl

theorem uses_readBits_one (h : pos < 8 * buffer.length) :
    (readBits limit 1).uses buffer pos = [.access ⟨limit, pos / 8, pos / 8 + 1⟩] := by
  rw [readBits, readBitsFrom, Reader.uses_bind, uses_readBit h]
  cases (readBit limit).value buffer pos <;> rfl

/-- A zero bit is counted. -/
theorem countZeros_zero (h : (bitsOf buffer)[pos]? = some false) (fuel : ℕ) (zeros : UInt32) :
    (countZeros limit (fuel + 1) zeros).value buffer pos =
        (countZeros limit fuel (zeros + 1)).value buffer (pos + 1) ∧
    (countZeros limit (fuel + 1) zeros).uses buffer pos = .access ⟨limit, pos / 8, pos / 8 + 1⟩ ::
        (countZeros limit fuel (zeros + 1)).uses buffer (pos + 1) := by
  have hpos : pos < 8 * buffer.length := by
    rw [← length_bitsOf]
    exact (List.getElem?_eq_some_iff.mp h).1
  constructor
  · rw [countZeros, Reader.value_bind, value_readBits_one, h]
    rfl
  · rw [countZeros, Reader.uses_bind, value_readBits_one, uses_readBits_one hpos, h]
    rfl

/-- The count stops at a one. -/
theorem countZeros_one (h : (bitsOf buffer)[pos]? = some true) (fuel : ℕ) (zeros : UInt32) :
    (countZeros limit (fuel + 1) zeros).value buffer pos = some (zeros, pos + 1) ∧
    (countZeros limit (fuel + 1) zeros).uses buffer pos =
      [.access ⟨limit, pos / 8, pos / 8 + 1⟩] := by
  have hpos : pos < 8 * buffer.length := by
    rw [← length_bitsOf]
    exact (List.getElem?_eq_some_iff.mp h).1
  constructor
  · rw [countZeros, Reader.value_bind, value_readBits_one, h]
    rfl
  · rw [countZeros, Reader.uses_bind, value_readBits_one, uses_readBits_one hpos, h]
    rfl

theorem getElem?_of_drop {bits rest : List Bool} {b : Bool} (h : bits.drop pos = b :: rest) :
    bits[pos]? = some b ∧ bits.drop (pos + 1) = rest := by
  constructor
  · rw [← Nat.add_zero pos, ← List.getElem?_drop, h]
    rfl
  · rw [← List.drop_drop, h]
    rfl

/-- Zero bits up to a one that is among the bytes. -/
theorem countZeros_eq {z fuel : ℕ} {rest : List Bool} (hfuel : z < fuel)
    (h : (bitsOf buffer).drop pos = List.replicate z false ++ true :: rest)
    (hin : pos + z < 8 * limit) (zeros : UInt32) :
    (countZeros limit fuel zeros).value buffer pos =
        some (zeros + UInt32.ofNat z, pos + z + 1) ∧
    AllOk ((countZeros limit fuel zeros).uses buffer pos) := by
  obtain ⟨fuel, rfl⟩ := Nat.exists_eq_add_of_le' (Nat.one_le_of_lt hfuel)
  have hok : (Use.access ⟨limit, pos / 8, pos / 8 + 1⟩).Ok := ⟨Nat.le_succ _, by simp only; omega⟩
  induction z generalizing pos fuel zeros with
  | zero =>
    obtain ⟨hone, -⟩ := getElem?_of_drop h
    rw [(countZeros_one hone fuel zeros).1, (countZeros_one hone fuel zeros).2]
    exact ⟨by simp, allOk_cons.mpr ⟨hok, allOk_nil⟩⟩
  | succ z ih =>
    obtain ⟨hzero, hrest⟩ := getElem?_of_drop h
    obtain ⟨fuel, rfl⟩ := Nat.exists_eq_add_of_le' (show 1 ≤ fuel by omega)
    obtain ⟨hv, hu⟩ := ih hrest (by omega) (zeros + 1) fuel (by omega)
      ⟨Nat.le_succ _, by simp only; omega⟩
    rw [(countZeros_zero hzero (fuel + 1) zeros).1, (countZeros_zero hzero (fuel + 1) zeros).2, hv]
    refine ⟨?_, allOk_cons.mpr ⟨hok, hu⟩⟩
    rw [UInt32.ofNat_add, Nat.add_assoc pos, Nat.add_comm 1, UInt32.add_assoc,
      UInt32.add_comm 1]
    rfl

/-- With zero bits only, the byte behind the last one is read. -/
theorem not_allOk_countZeros {z fuel : ℕ} {rest : List Bool} (hlimit : limit < buffer.length)
    (hfuel : z < fuel) (h : (bitsOf buffer).drop pos = List.replicate z false ++ rest)
    (hend : pos + z = 8 * limit) (zeros : UInt32) :
    ¬ AllOk ((countZeros limit fuel zeros).uses buffer pos) := by
  obtain ⟨fuel, rfl⟩ := Nat.exists_eq_add_of_le' (Nat.one_le_of_lt hfuel)
  induction z generalizing pos fuel zeros with
  | zero =>
    have hpos : pos < 8 * buffer.length := by omega
    obtain ⟨b, hbit⟩ : ∃ b, (bitsOf buffer)[pos]? = some b :=
      ⟨_, List.getElem?_eq_getElem (by rwa [length_bitsOf])⟩
    intro hall
    have hmem : Use.access ⟨limit, pos / 8, pos / 8 + 1⟩ ∈
        (countZeros limit (fuel + 1) zeros).uses buffer pos := by
      cases b with
      | false => rw [(countZeros_zero hbit fuel zeros).2]; exact List.mem_cons_self
      | true => rw [(countZeros_one hbit fuel zeros).2]; exact List.mem_cons_self
    have hok := (hall _ hmem).2
    simp only at hok
    omega
  | succ z ih =>
    obtain ⟨hzero, hrest⟩ := getElem?_of_drop h
    obtain ⟨fuel, rfl⟩ := Nat.exists_eq_add_of_le' (show 1 ≤ fuel by omega)
    rw [(countZeros_zero hzero (fuel + 1) zeros).2, allOk_cons]
    exact fun hall => ih hrest (by omega) (zeros + 1) fuel (by omega) hall.2

theorem uses_bind_pure {α β : Type} (p : Reader α) (g : α → β) :
    (p >>= fun a => pure (g a)).uses buffer pos = p.uses buffer pos := by
  rw [Reader.uses_bind]
  cases p.value buffer pos <;> exact List.append_nil _

/-- `1 << k` is an `int`. -/
theorem length_pow_ok (k : ℕ) : (Use.length (2 ^ k)).Ok ↔ 2 ^ k < 2 ^ 31 := by
  have hcast : (2 : ℤ) ^ k = ((2 ^ k : ℕ) : ℤ) := by push_cast; rfl
  rw [Use.Ok, hcast]
  exact ⟨fun h => Int.ofNat_lt.mp h.2, fun h => ⟨Int.natCast_nonneg _, Int.ofNat_lt.mpr h⟩⟩

section

variable {nal : List UInt8} {z : ℕ} {rest : List Bool}

/-- The number of zero bits is known, and so many bits are read behind the one. -/
theorem readUe_of_one (past : UInt8)
    (h : bitsOf nal = List.replicate z false ++ true :: rest) :
    (readUe nal.length).value (nal ++ [past]) 0 =
        ((readBits nal.length (UInt32.ofNat z).toNat).value (nal ++ [past]) (z + 1)).map
          (fun r => ((1 <<< UInt32.ofNat z - 1) + r.1, r.2)) ∧
    (AllOk ((readUe nal.length).uses (nal ++ [past]) 0) ↔
      2 ^ (UInt32.ofNat z).toNat < 2 ^ 31 ∧ z + 1 + (UInt32.ofNat z).toNat ≤
        8 * nal.length) := by
  have hlen : 8 * nal.length = z + 1 + rest.length := by
    rw [← length_bitsOf, h, List.length_append, List.length_replicate, List.length_cons]
    omega
  have hbuffer : (nal ++ [past]).length = nal.length + 1 := List.length_append
  have hbits : (bitsOf (nal ++ [past])).drop 0 =
      List.replicate z false ++ true :: (rest ++ bitsOf [past]) := by
    rw [List.drop_zero, bitsOf_append, h, List.append_assoc, List.cons_append]
  obtain ⟨hvalue, huses⟩ :
      (countZeros nal.length (8 * (nal.length + 1) + 1) 0).value (nal ++ [past]) 0 =
          some (0 + UInt32.ofNat z, 0 + z + 1) ∧
        AllOk ((countZeros nal.length (8 * (nal.length + 1) + 1) 0).uses (nal ++ [past]) 0) :=
    countZeros_eq (by omega) hbits (by omega) 0
  rw [UInt32.zero_add, Nat.zero_add] at hvalue
  constructor
  · rw [readUe, Reader.value_bind, Reader.value_size, Option.bind_some, Reader.value_bind, hbuffer,
      hvalue, Option.bind_some, Reader.value_bind, Reader.value_note, Option.bind_some,
      Reader.value_bind, Option.map_eq_bind]
    rfl
  · rw [readUe, Reader.uses_bind, Reader.value_size, Reader.uses_size, List.nil_append]
    dsimp only
    rw [Reader.uses_bind, hbuffer, hvalue, allOk_append]
    dsimp only
    rw [Reader.uses_bind, Reader.value_note, Reader.uses_note, allOk_append, allOk_cons]
    dsimp only
    rw [uses_bind_pure, readBits, allOk_readBitsFrom (by omega) _ (by omega) _]
    simp only [huses, length_pow_ok, allOk_nil, true_and, and_true]

end

/-- A shift by fewer than 31 bits, and what is added to it. -/
theorem toNat_ue {z : ℕ} (hz : z < 31) {x : UInt32} (hx : x.toNat < 2 ^ z) :
    ((1 <<< UInt32.ofNat z - 1) + x).toNat = 2 ^ z - 1 + x.toNat := by
  have hroom : 2 ^ z ≤ 2 ^ 30 := Nat.pow_le_pow_right (by decide) (by omega)
  have hpos := Nat.two_pow_pos z
  have hz' : (UInt32.ofNat z).toNat = z := UInt32.toNat_ofNat_of_lt' (show z < 4294967296 by omega)
  have hshift : ((1 : UInt32) <<< UInt32.ofNat z).toNat = 2 ^ z := by
    rw [UInt32.toNat_shiftLeft, hz', Nat.mod_eq_of_lt (by omega : z < 32), UInt32.toNat_one,
      Nat.one_shiftLeft, Nat.mod_eq_of_lt (by omega)]
  have hsub : ((1 : UInt32) <<< UInt32.ofNat z - 1).toNat = 2 ^ z - 1 := by
    have hle : 1 ≤ (1 : UInt32) <<< UInt32.ofNat z :=
      UInt32.le_iff_toNat_le.mpr (by rw [hshift]; exact hpos)
    rw [UInt32.toNat_sub_of_le _ _ hle, hshift]
    rfl
  rw [UInt32.toNat_add, hsub, Nat.mod_eq_of_lt (by omega)]

/-- A code with fewer than 31 zero bits is read within its bytes. -/
theorem readUe_eq {nal : List UInt8} (past : UInt8) {v : ℕ} (h : ue (bitsOf nal) = some v)
    (hv : v + 1 < 2 ^ 31) :
    AllOk ((readUe nal.length).uses (nal ++ [past]) 0) ∧
      ∃ val pos, (readUe nal.length).value (nal ++ [past]) 0 = some (val, pos) ∧
        val.toNat = v := by
  rcases zeros_or_one (bitsOf nal) with hzeros | ⟨z, rest, hbits⟩
  · rw [hzeros, ue_zeros] at h
    cases h
  rw [hbits, ue_one] at h
  obtain ⟨hle, hval⟩ := Option.ite_none_right_eq_some.mp h
  have hval := Option.some.inj hval
  have hpos := Nat.two_pow_pos z
  have hz : z < 31 := (Nat.pow_lt_pow_iff_right (by decide)).mp
    (show 2 ^ z < 2 ^ 31 by omega)
  have hz' : (UInt32.ofNat z).toNat = z := UInt32.toNat_ofNat_of_lt' (show z < 4294967296 by omega)
  obtain ⟨hvalue, huses⟩ := readUe_of_one past hbits
  have hlen : 8 * nal.length = z + 1 + rest.length := by
    rw [← length_bitsOf, hbits, List.length_append, List.length_replicate, List.length_cons]
    omega
  rw [hz'] at hvalue huses
  refine ⟨huses.mpr ⟨?_, by omega⟩, ?_⟩
  · exact Nat.pow_lt_pow_right (by decide) hz
  have hdrop : (bitsOf (nal ++ [past])).drop (z + 1) =
      rest.take z ++ (rest.drop z ++ bitsOf [past]) := by
    rw [bitsOf_append, hbits, List.append_assoc, ← List.drop_drop,
      List.drop_left' List.length_replicate, ← List.append_assoc, List.take_append_drop]
    rfl
  have hinfo : (rest.take z).length = z := by rw [List.length_take]; omega
  obtain ⟨x, hx, hnat⟩ :
      ∃ x, (readBitsFrom nal.length (rest.take z).length 0).value (nal ++ [past]) (z + 1) =
          some (x, z + 1 + (rest.take z).length) ∧ x.toNat = ofBits (rest.take z) :=
    value_readBitsFrom hdrop (show (0 : UInt32).toNat < 2 ^ 0 by decide) (by omega)
  have hlt : x.toNat < 2 ^ z := by
    rw [hnat]
    exact (ofBits_lt _).trans_eq (by rw [hinfo])
  rw [hinfo] at hx
  refine ⟨_, _, by rw [hvalue, readBits, hx, Option.map_some], ?_⟩
  rw [toNat_ue hz hlt, hnat, hval]

/-- A code that does not end in the bytes, or has more zero bits, is not read in order. -/
theorem readUe_in_order {nal : List UInt8} (past : UInt8) (hlen : nal.length < 2 ^ 29)
    (h : AllOk ((readUe nal.length).uses (nal ++ [past]) 0)) :
    ∃ v, ue (bitsOf nal) = some v ∧ v + 1 < 2 ^ 31 := by
  rcases zeros_or_one (bitsOf nal) with hzeros | ⟨z, rest, hbits⟩
  · have hcount : (bitsOf (nal ++ [past])).drop 0 =
        List.replicate (8 * nal.length) false ++ bitsOf [past] := by
      rw [List.drop_zero, bitsOf_append, hzeros, length_bitsOf]
    rw [readUe, Reader.uses_bind, Reader.value_size, Reader.uses_size, List.nil_append] at h
    dsimp only at h
    rw [Reader.uses_bind, allOk_append] at h
    refine absurd h.1 (not_allOk_countZeros ?_ ?_ hcount (Nat.zero_add _) 0)
    · rw [List.length_append]
      exact Nat.lt_succ_self _
    · rw [List.length_append, List.length_singleton]
      omega
  · obtain ⟨-, huses⟩ := readUe_of_one past hbits
    have hbytes : 8 * nal.length = z + 1 + rest.length := by
      rw [← length_bitsOf, hbits, List.length_append, List.length_replicate, List.length_cons]
      omega
    have hz' : (UInt32.ofNat z).toNat = z :=
      UInt32.toNat_ofNat_of_lt' (show z < 4294967296 by omega)
    obtain ⟨hpow, hle⟩ := huses.mp h
    rw [hz'] at hpow hle
    have hz : z < 31 := (Nat.pow_lt_pow_iff_right (by decide)).mp hpow
    refine ⟨2 ^ z - 1 + ofBits (rest.take z), by rw [hbits, ue_one, if_pos (by omega)], ?_⟩
    have hlt := ofBits_lt (rest.take z)
    rw [List.length_take, Nat.min_eq_left (by omega)] at hlt
    have hroom : 2 ^ z ≤ 2 ^ 30 := Nat.pow_le_pow_right (by decide) (by omega)
    have hpos := Nat.two_pow_pos z
    omega

end BitReader

end CxxDeps.H264
