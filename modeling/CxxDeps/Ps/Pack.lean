import CxxDeps.Ps.Frame
import CxxDeps.Ps.SystemHeader

/-! The parsers of a pack with the fields that they set and what they use of the buffer
(rtpx/mpeg/psh2.cpp, ps_block.cpp, ps_frame.cpp), and the pack as its writer makes it.

The writer sets the lowest bit of the first byte, which is a bit of the clock, and the
reader takes the extension from the byte before it. Two bytes more than the stuffing are
asked for, which only a block behind the header provides. -/

namespace CxxDeps.Ps

open Library Reader

/-- `psh2`, by the first five bytes of its clock, the three of its rate and the last one.
The sixth byte is not looked at. -/
def Psh.ofBytes (b₀ b₁ b₂ b₃ b₄ r₀ r₁ r₂ s : UInt8) : Psh where
  flag := .ofNat ((b₀.toNat &&& 0xC0) >>> 6)
  timestamp := .ofNat ((b₀.toNat &&& 0x38) <<< 27 ||| (b₀.toNat &&& 0x3) <<< 28 |||
    b₁.toNat <<< 20 ||| (b₂.toNat &&& 0xf8) <<< 12 ||| (b₂.toNat &&& 0x03) <<< 13 |||
    b₃.toNat <<< 5 ||| (b₄.toNat &&& 0xf8) >>> 3)
  timestampEx := .ofNat ((b₄.toNat &&& 0x03) <<< 7 ||| (b₄.toNat &&& 0xfe) >>> 1)
  programMuxRate := .ofNat (r₀.toNat <<< 14 ||| r₁.toNat <<< 6 ||| (r₂.toNat &&& 0xFC) >>> 2)
  packStuffingLength := .ofNat (s.toNat &&& 0x07)

/-- `psh2::deserialize`; it gives up where the source returns 0. -/
def Psh.read : Reader Psh := do
  need 8
  let b₀ ← byte 0
  let b₁ ← byte 1
  let b₂ ← byte 2
  let b₃ ← byte 3
  let b₄ ← byte 4
  skip 6
  let r₀ ← byte 0
  let r₁ ← byte 1
  let r₂ ← byte 2
  skip 3
  let s ← next
  let psh := Psh.ofBytes b₀ b₁ b₂ b₃ b₄ r₀ r₁ r₂ s
  let size ← size
  if psh.packStuffingLength.toNat + 12 > size then giveUp
  else
    skip psh.packStuffingLength.toNat
    return psh

/-- `ps_block::deserialize`. -/
def Block.read : Reader Block := do
  need 6
  let startCode ← byte 3
  let l₀ ← byte 4
  let l₁ ← byte 5
  skip 6
  need (be16 l₀ l₁).toNat
  let block ← take (be16 l₀ l₁).toNat
  return ⟨startCode, block⟩

/-- The loop of `ps_frame::deserialize`. -/
def readPacks : ℕ → PsFrame → Reader PsFrame
  | 0, frame => pure frame
  | n + 1, frame => do
    let pos ← position
    let size ← size
    if pos + 4 > size then return frame
    else
      let startCode ← byte 3
      if startCode = packHeader then
        skip 4
        let psh ← within Psh.read
        readPacks n { frame with psh }
      else
        let block ← within Block.read
        readPacks n { frame with blocks := frame.blocks ++ [block] }

/-- `ps_frame::deserialize`. Every round takes a byte, so the size bounds the rounds. -/
def PsFrame.read : Reader PsFrame := do
  let size ← size
  readPacks size {}

/-! ### The pack header -/

/-- The parts of a clock of 33 bits, as they are in `psh2` and in a PES header. -/
theorem clock_join {t : ℕ} (h : t < 2 ^ 33) :
    bits t 30 3 <<< 30 ||| bits t 28 2 <<< 28 ||| bits t 20 8 <<< 20 ||| bits t 15 5 <<< 15 |||
      bits t 13 2 <<< 13 ||| bits t 5 8 <<< 5 ||| bits t 0 5 = t := by
  have h₀ := bits_or t 0 5 28 0
  rw [Nat.shiftLeft_zero, Nat.shiftLeft_zero] at h₀
  rw [bits_or t 28 2 3 28, bits_or t 20 8 5 20, bits_or t 15 5 13 15, bits_or t 13 2 18 13,
    bits_or t 5 8 20 5, h₀]
  exact bits_of_lt h

/-- The fields in their widths. -/
structure Psh.Fits (psh : Psh) : Prop where
  flag : psh.flag.toNat < 2 ^ 2
  timestamp : psh.timestamp.toNat < 2 ^ 33
  timestampEx : psh.timestampEx.toNat < 2 ^ 9
  programMuxRate : psh.programMuxRate.toNat < 2 ^ 22
  packStuffingLength : psh.packStuffingLength.toNat < 2 ^ 3

/-- What the reader makes of the extension. -/
def Psh.readEx (psh : Psh) : ℕ :=
  bits psh.timestampEx.toNat 7 2 <<< 7 |||
    (bits psh.timestamp.toNat 0 5 <<< 2 ||| 2 ||| bits psh.timestampEx.toNat 7 2 >>> 1)

/-- The header that is read where this one was written. -/
def Psh.readBack (psh : Psh) : Psh :=
  { psh with
    timestamp := .ofNat (psh.timestamp.toNat ||| 2 ^ 28)
    timestampEx := .ofNat psh.readEx }

theorem toUInt8_field (x m k : UInt64) :
    ((x &&& m) >>> k).toUInt8 = .ofNat ((x.toNat &&& m.toNat) >>> (k.toNat % 64)) := by
  apply UInt8.toNat_inj.mp
  simp

theorem toUInt8_eq_ofNat (x : UInt64) : x.toUInt8 = .ofNat x.toNat := by
  apply UInt8.toNat_inj.mp
  simp

theorem ofNat_or (m n : ℕ) : UInt8.ofNat (m ||| n) = UInt8.ofNat m ||| UInt8.ofNat n := by
  apply UInt8.toNat_inj.mp
  rw [UInt8.toNat_or, UInt8.toNat_ofNat', UInt8.toNat_ofNat', UInt8.toNat_ofNat',
    Nat.or_mod_two_pow]

/-- The bytes of the header, field by field. -/
theorem Psh.serialize_eq {psh : Psh} (h : psh.Fits) :
    psh.serialize =
      [.ofNat (psh.flag.toNat <<< 6 ||| bits psh.timestamp.toNat 30 3 <<< 3 ||| 1 |||
          bits psh.timestamp.toNat 28 2),
        .ofNat (bits psh.timestamp.toNat 20 8),
        .ofNat (bits psh.timestamp.toNat 15 5 <<< 3 ||| 4 ||| bits psh.timestamp.toNat 13 2),
        .ofNat (bits psh.timestamp.toNat 5 8),
        .ofNat (bits psh.timestamp.toNat 0 5 <<< 3 ||| 4 ||| bits psh.timestampEx.toNat 7 2),
        .ofNat (bits psh.timestampEx.toNat 0 7 <<< 1 ||| 1),
        .ofNat (bits psh.programMuxRate.toNat 14 8),
        .ofNat (bits psh.programMuxRate.toNat 6 8),
        .ofNat (bits psh.programMuxRate.toNat 0 6 <<< 2 ||| 3),
        .ofNat psh.packStuffingLength.toNat] ++
      List.replicate psh.packStuffingLength.toNat 0xFF := by
  have hflag := h.flag
  have hshift : (psh.flag <<< 6).toNat = psh.flag.toNat <<< 6 := by
    rw [UInt64.toNat_shiftLeft]
    exact Nat.mod_eq_of_lt (by rw [Nat.shiftLeft_eq]; show _ * 2 ^ 6 < _; omega)
  have hfield (x : UInt64) (m : UInt64) (s w k : ℕ) (hk : k ≤ s) (hk' : k < 64)
      (hm : m.toNat = (2 ^ w - 1) <<< s) :
      ((x &&& m) >>> UInt64.ofNat k).toUInt8 = .ofNat (bits x.toNat s w <<< (s - k)) := by
    have hkn : (UInt64.ofNat k).toNat % 64 = k := by
      rw [UInt64.toNat_ofNat', Nat.mod_eq_of_lt (by omega : k < 2 ^ 64), Nat.mod_eq_of_lt hk']
    rw [toUInt8_field, hm, hkn, and_mask_shiftRight x.toNat s w k hk]
  have hlow (x : UInt64) (m : UInt64) (w k : ℕ) (hw : w ≤ 8) (hk : k < 8)
      (hm : m.toNat = 2 ^ w - 1) :
      ((x &&& m) <<< UInt64.ofNat k).toUInt8 = .ofNat (bits x.toNat 0 w <<< k) := by
    have hkn : (UInt64.ofNat k).toNat % 64 = k := by
      rw [UInt64.toNat_ofNat', Nat.mod_eq_of_lt (by omega : k < 2 ^ 64),
        Nat.mod_eq_of_lt (by omega)]
    rw [toUInt8_eq_ofNat, UInt64.toNat_shiftLeft, UInt64.toNat_and, hm, hkn, and_mask]
    apply UInt8.toNat_inj.mp
    rw [UInt8.toNat_ofNat', UInt8.toNat_ofNat', Nat.mod_mod_of_dvd _ (by decide)]
  have f₀ : ((psh.timestamp &&& 0x1c0000000) >>> 27).toUInt8 =
      .ofNat (bits psh.timestamp.toNat 30 3 <<< 3) :=
    hfield _ _ 30 3 27 (by decide) (by decide) rfl
  have f₁ : ((psh.timestamp &&& 0x30000000) >>> 28).toUInt8 =
      .ofNat (bits psh.timestamp.toNat 28 2) := hfield _ _ 28 2 28 le_rfl (by decide) rfl
  have f₂ : ((psh.timestamp &&& 0xff00000) >>> 20).toUInt8 =
      .ofNat (bits psh.timestamp.toNat 20 8) := hfield _ _ 20 8 20 le_rfl (by decide) rfl
  have f₃ : ((psh.timestamp &&& 0xf8000) >>> 12).toUInt8 =
      .ofNat (bits psh.timestamp.toNat 15 5 <<< 3) :=
    hfield _ _ 15 5 12 (by decide) (by decide) rfl
  have f₄ : ((psh.timestamp &&& 0x6000) >>> 13).toUInt8 =
      .ofNat (bits psh.timestamp.toNat 13 2) := hfield _ _ 13 2 13 le_rfl (by decide) rfl
  have f₅ : ((psh.timestamp &&& 0x1fe0) >>> 5).toUInt8 =
      .ofNat (bits psh.timestamp.toNat 5 8) := hfield _ _ 5 8 5 le_rfl (by decide) rfl
  have f₆ : ((psh.timestamp &&& 0x1f) <<< 3).toUInt8 =
      .ofNat (bits psh.timestamp.toNat 0 5 <<< 3) := hlow _ _ 5 3 (by decide) (by decide) rfl
  have f₇ : ((psh.timestampEx &&& 0x180) >>> 7).toUInt8 =
      .ofNat (bits psh.timestampEx.toNat 7 2) := hfield _ _ 7 2 7 le_rfl (by decide) rfl
  have f₈ : ((psh.timestampEx &&& 0x7f) <<< 1).toUInt8 =
      .ofNat (bits psh.timestampEx.toNat 0 7 <<< 1) := hlow _ _ 7 1 (by decide) (by decide) rfl
  have f₉ : ((psh.programMuxRate &&& 0x3FC000) >>> 14).toUInt8 =
      .ofNat (bits psh.programMuxRate.toNat 14 8) := hfield _ _ 14 8 14 le_rfl (by decide) rfl
  have g₀ : ((psh.programMuxRate &&& 0x3FC0) >>> 6).toUInt8 =
      .ofNat (bits psh.programMuxRate.toNat 6 8) := hfield _ _ 6 8 6 le_rfl (by decide) rfl
  have g₁ : ((psh.programMuxRate &&& 0x3F) <<< 2).toUInt8 =
      .ofNat (bits psh.programMuxRate.toNat 0 6 <<< 2) := hlow _ _ 6 2 (by decide) (by decide) rfl
  have g₂ : (psh.flag <<< 6).toUInt8 = .ofNat (psh.flag.toNat <<< 6) := by
    rw [toUInt8_eq_ofNat, hshift]
  rw [serialize]
  simp only [UInt64.toUInt8_or, ofNat_or, f₀, f₁, f₂, f₃, f₄, f₅, f₆, f₇, f₈, f₉, g₀, g₁, g₂,
    toUInt8_eq_ofNat psh.packStuffingLength]
  rfl

/-- The reader takes the fields apart again; one bit of the clock and the extension are not
what they were. -/
theorem Psh.ofBytes_serialize {psh : Psh} (h : psh.Fits) :
    ∃ b₀ b₁ b₂ b₃ b₄ b₅ r₀ r₁ r₂ s,
      psh.serialize = [b₀, b₁, b₂, b₃, b₄, b₅, r₀, r₁, r₂, s] ++
        List.replicate psh.packStuffingLength.toNat 0xFF ∧
      Psh.ofBytes b₀ b₁ b₂ b₃ b₄ r₀ r₁ r₂ s = psh.readBack := by
  refine ⟨_, _, _, _, _, _, _, _, _, _, serialize_eq h, ?_⟩
  have hfirst : ∀ (flag : Fin 4) (high : Fin 8) (low : Fin 4),
      let b := (UInt8.ofNat (flag.val <<< 6 ||| high.val <<< 3 ||| 1 ||| low.val)).toNat
      (b &&& 0xC0) >>> 6 = flag.val ∧ (b &&& 0x38) <<< 27 = high.val <<< 30 ∧
        (b &&& 0x3) <<< 28 = low.val <<< 28 ||| 2 ^ 28 := by decide
  have hthird : ∀ (high : Fin 32) (low : Fin 4),
      let b := (UInt8.ofNat (high.val <<< 3 ||| 4 ||| low.val)).toNat
      (b &&& 0xf8) <<< 12 = high.val <<< 15 ∧ (b &&& 0x03) <<< 13 = low.val <<< 13 ∧
        (b &&& 0xf8) >>> 3 = high.val ∧ (b &&& 0x03) <<< 7 = low.val <<< 7 ∧
          (b &&& 0xfe) >>> 1 = high.val <<< 2 ||| 2 ||| low.val >>> 1 := by decide
  have hrate : ∀ low : Fin 64, ((UInt8.ofNat (low.val <<< 2 ||| 3)).toNat &&& 0xFC) >>> 2 =
      low.val := by decide
  have hstuffing : ∀ n : Fin 8, (UInt8.ofNat n.val).toNat &&& 0x07 = n.val := by decide
  have hbyte (x s : ℕ) : (UInt8.ofNat (bits x s 8)).toNat = bits x s 8 :=
    UInt8.toNat_ofNat_of_lt' (bits_lt x s 8)
  obtain ⟨hflag, hhigh, hlow⟩ := hfirst ⟨_, h.flag⟩ ⟨_, bits_lt psh.timestamp.toNat 30 3⟩
    ⟨_, bits_lt psh.timestamp.toNat 28 2⟩
  obtain ⟨hhigh₂, hlow₂, -⟩ := hthird ⟨_, bits_lt psh.timestamp.toNat 15 5⟩
    ⟨_, bits_lt psh.timestamp.toNat 13 2⟩
  obtain ⟨-, -, hlow₃, hex, hex'⟩ := hthird ⟨_, bits_lt psh.timestamp.toNat 0 5⟩
    ⟨_, bits_lt psh.timestampEx.toNat 7 2⟩
  have hclock : bits psh.timestamp.toNat 30 3 <<< 30 |||
      (bits psh.timestamp.toNat 28 2 <<< 28 ||| 2 ^ 28) ||| bits psh.timestamp.toNat 20 8 <<< 20 |||
      bits psh.timestamp.toNat 15 5 <<< 15 ||| bits psh.timestamp.toNat 13 2 <<< 13 |||
      bits psh.timestamp.toNat 5 8 <<< 5 ||| bits psh.timestamp.toNat 0 5 =
      psh.timestamp.toNat ||| 2 ^ 28 := by
    have hmove (a b c d e f g m : ℕ) : a ||| (b ||| m) ||| c ||| d ||| e ||| f ||| g =
        (a ||| b ||| c ||| d ||| e ||| f ||| g) ||| m := by ac_rfl
    rw [hmove, clock_join h.timestamp]
  have hmux : bits psh.programMuxRate.toNat 14 8 <<< 14 |||
      bits psh.programMuxRate.toNat 6 8 <<< 6 ||| bits psh.programMuxRate.toNat 0 6 =
      psh.programMuxRate.toNat := by
    have h₀ := bits_or psh.programMuxRate.toNat 0 6 16 0
    rw [Nat.shiftLeft_zero, Nat.shiftLeft_zero] at h₀
    rw [bits_or psh.programMuxRate.toNat 6 8 8 6, h₀]
    exact bits_of_lt h.programMuxRate
  simp only [ofBytes, hflag, hhigh, hlow, hbyte, hhigh₂, hlow₂, hlow₃, hex, hex', hclock, hmux,
    hrate ⟨_, bits_lt psh.programMuxRate.toNat 0 6⟩, hstuffing ⟨_, h.packStuffingLength⟩,
    UInt64.ofNat_toNat]
  rfl

/-- Two bytes behind the stuffing are needed. -/
theorem Psh.read_serialize {psh : Psh} (h : psh.Fits) (rest : List UInt8) :
    Psh.read.value (psh.serialize ++ rest) 0 =
      if rest.length < 2 then none else some (psh.readBack, psh.serialize.length) := by
  obtain ⟨b₀, b₁, b₂, b₃, b₄, b₅, r₀, r₁, r₂, s, hbytes, hof⟩ := ofBytes_serialize h
  have hlength : psh.serialize.length = 10 + psh.packStuffingLength.toNat := by
    rw [hbytes, List.length_append, List.length_replicate]
    rfl
  have hstuffing : psh.readBack.packStuffingLength = psh.packStuffingLength := rfl
  have hneed : ¬ 0 + 8 > (psh.serialize ++ rest).length := by
    rw [List.length_append, hlength]
    omega
  have hget (i : ℕ) (hi : i < 10) : (psh.serialize ++ rest).getD i 0 =
      [b₀, b₁, b₂, b₃, b₄, b₅, r₀, r₁, r₂, s].getD i 0 := by
    rw [hbytes, List.append_assoc, List.getD_eq_getElem?_getD,
      List.getElem?_append_left (by simpa using hi), List.getD_eq_getElem?_getD]
  rw [read, value_bind, value_need, if_neg hneed]
  simp only [value_bind, value_byte, value_skip, value_next, value_size, Option.bind_some,
    Nat.zero_add, Nat.reduceAdd, hget, Nat.reduceLT, List.getD_cons_zero, List.getD_cons_succ, hof,
    hstuffing]
  by_cases hrest : rest.length < 2
  · rw [if_pos hrest, if_pos (by rw [List.length_append, hlength]; omega), value_giveUp]
  · rw [if_neg hrest, if_neg (by rw [List.length_append, hlength]; omega), value_bind, value_skip,
      Option.bind_some, value_pure, hlength]

/-- The bit of the clock is set that the writer sets, and the extension is what the reader
takes it for. -/
structure Psh.Survives (psh : Psh) : Prop where
  timestamp : psh.timestamp.toNat.testBit 28 = true
  timestampEx : psh.timestampEx.toNat = psh.readEx

instance (psh : Psh) : Decidable psh.Survives :=
  decidable_of_iff (_ ∧ _) ⟨fun h => ⟨h.1, h.2⟩, fun h => ⟨h.1, h.2⟩⟩

theorem or_two_pow_eq_self (t n : ℕ) : t ||| 2 ^ n = t ↔ t.testBit n = true := by
  constructor
  · intro h
    rw [← h, Nat.testBit_or, Nat.testBit_two_pow_self, Bool.or_true]
  · intro h
    apply Nat.eq_of_testBit_eq
    intro i
    rw [Nat.testBit_or, Nat.testBit_two_pow]
    by_cases hi : n = i
    · rw [← hi, h, Bool.true_or]
    · rw [decide_eq_false hi, Bool.or_false]

theorem Psh.readEx_lt (psh : Psh) : psh.readEx < 2 ^ 64 := by
  have hsmall : ∀ (e : Fin 4) (d : Fin 32),
      (e.val <<< 7 ||| (d.val <<< 2 ||| 2 ||| e.val >>> 1)) < 2 ^ 64 := by decide
  exact hsmall ⟨_, bits_lt psh.timestampEx.toNat 7 2⟩ ⟨_, bits_lt psh.timestamp.toNat 0 5⟩

theorem Psh.readBack_eq_iff (psh : Psh) : psh.readBack = psh ↔ psh.Survives := by
  have hclock : psh.timestamp.toNat ||| 2 ^ 28 < 2 ^ 64 :=
    Nat.or_lt_two_pow psh.timestamp.toNat_lt (by decide)
  have hnat (n : ℕ) (hn : n < 2 ^ 64) (x : UInt64) : UInt64.ofNat n = x ↔ x.toNat = n := by
    rw [← UInt64.toNat_inj, UInt64.toNat_ofNat', Nat.mod_eq_of_lt hn, eq_comm]
  constructor
  · intro heq
    have ht := congrArg Psh.timestamp heq
    have hex := congrArg Psh.timestampEx heq
    exact ⟨(or_two_pow_eq_self _ 28).mp ((hnat _ hclock _).mp ht).symm,
      (hnat _ psh.readEx_lt _).mp hex⟩
  · intro hs
    have ht := (hnat _ hclock psh.timestamp).mpr ((or_two_pow_eq_self _ 28).mpr hs.timestamp).symm
    have hex := (hnat _ psh.readEx_lt psh.timestampEx).mpr hs.timestampEx
    rw [readBack, ht, hex]

/-! ### Blocks -/

theorem Block.reads_serialize {b : Block} (h : b.block.length ≤ 65535) :
    Block.read.Reads b.serialize b := by
  obtain ⟨startCode, block⟩ := b
  let length := UInt16.ofNat block.length
  have hlength : block.length = length.toNat := by
    rw [UInt16.toNat_ofNat', Nat.mod_eq_of_lt (by simp only at h; omega)]
  have htake : (do let block ← take length.toNat; return ⟨startCode, block⟩ : Reader Block).Reads
      block ⟨startCode, block⟩ := by
    have h := (reads_take hlength).bind (f := fun block => pure (Block.mk startCode block))
      (reads_pure _)
    rwa [List.append_nil] at h
  have hskip : (skip 6).Reads [0, 0, 1, startCode, (length >>> 8).toUInt8, length.toUInt8] () :=
    reads_skip rfl
  have hbody := hskip.bind (f := fun _ => do
    need length.toNat
    let block ← take length.toNat
    return Block.mk startCode block) (.need hlength.ge htake)
  have hsix : 6 ≤ (Block.serialize ⟨startCode, block⟩).length := by
    simp only [serialize, List.length_append, List.length_cons, List.length_nil, length_toBe16]
    omega
  refine .need hsix (.byte rfl (.byte rfl (.byte rfl ?_)))
  rw [be16_toBe16]
  exact hbody

theorem Block.length_serialize (b : Block) : b.serialize.length = 6 + b.block.length := by
  simp only [serialize, List.length_append, List.length_cons, List.length_nil, length_toBe16]

/-- Blocks are read to the end of the buffer. -/
theorem readPacks_blocks {n : ℕ} (blocks : List Block) (hn : blocks.length ≤ n)
    (hblocks : ∀ b ∈ blocks, b.block.length ≤ 65535 ∧ b.startCode ≠ packHeader)
    (before : List UInt8) (frame : PsFrame) :
    (readPacks n frame).value (before ++ blocks.flatMap Block.serialize) before.length =
      some ({ frame with blocks := frame.blocks ++ blocks },
        before.length + (blocks.flatMap Block.serialize).length) := by
  induction blocks generalizing n before frame with
  | nil =>
    cases n with
    | zero => simp [readPacks]
    | succ n => simp [readPacks, value_bind]
  | cons b blocks ih =>
    obtain ⟨n, rfl⟩ : ∃ m, n = m + 1 := ⟨n - 1, by simp only [List.length_cons] at hn; omega⟩
    obtain ⟨⟨hlength, hcode⟩, hblocks⟩ := List.forall_mem_cons.mp hblocks
    have hread := (Block.reads_serialize hlength).within before (blocks.flatMap Block.serialize)
    have hrest := ih (Nat.le_of_succ_le_succ hn) hblocks (before ++ b.serialize)
      { frame with blocks := frame.blocks ++ [b] }
    have hmore : ¬ before.length + 4 >
        (before ++ b.serialize ++ blocks.flatMap Block.serialize).length := by
      simp only [List.length_append, b.length_serialize]
      omega
    have hstart : (before ++ b.serialize ++ blocks.flatMap Block.serialize).getD
        (before.length + 3) 0 = b.startCode := by
      rw [List.append_assoc, getD_append_add]
      rfl
    rw [List.flatMap_cons, ← List.append_assoc, readPacks]
    simp only [value_bind, value_position, value_size, Option.bind_some, if_neg hmore, value_byte,
      hstart, if_neg hcode, hread]
    rw [List.length_append] at hrest
    rw [hrest, List.append_assoc, List.length_append, Nat.add_assoc]
    rfl

/-! ### The pack -/

/-- A header in its widths, and blocks of at most 65535 bytes that are no pack headers. -/
structure PsFrame.Fits (frame : PsFrame) : Prop where
  psh : frame.psh.Fits
  blocks : ∀ b ∈ frame.blocks, b.block.length ≤ 65535 ∧ b.startCode ≠ packHeader

theorem blocks_bytes_lt_two_iff (blocks : List Block) :
    (blocks.flatMap Block.serialize).length < 2 ↔ blocks = [] := by
  cases blocks with
  | nil => simp
  | cons b blocks =>
    simp only [List.flatMap_cons, List.length_append, b.length_serialize, reduceCtorEq, iff_false]
    omega

theorem PsFrame.read_serialize {frame : PsFrame} (h : frame.Fits) :
    PsFrame.read.value frame.serialize 0 =
      if frame.blocks = [] then none
      else some ({ frame with psh := frame.psh.readBack }, frame.serialize.length) := by
  let code : List UInt8 := [0, 0, 1, packHeader]
  have hsize : frame.blocks.length + 1 ≤ frame.serialize.length := by
    have hone (b : Block) : 1 ≤ b.serialize.length := by
      rw [b.length_serialize]
      omega
    have hblocks := length_le_length_flatMap hone frame.blocks
    simp only [serialize, List.length_append, List.length_cons, List.length_nil]
    omega
  obtain ⟨n, hn⟩ : ∃ n, frame.serialize.length = n + 1 :=
    ⟨frame.serialize.length - 1, by omega⟩
  have hmore : ¬ 0 + 4 > frame.serialize.length := by
    simp only [serialize, List.length_append, List.length_cons, List.length_nil]
    omega
  have hstart : frame.serialize.getD (0 + 3) 0 = packHeader := rfl
  have hdrop : frame.serialize.drop (0 + 4) =
      frame.psh.serialize ++ frame.blocks.flatMap Block.serialize := by
    rw [serialize, List.append_assoc]
    rfl
  rw [read, value_bind, value_size, Option.bind_some, hn, readPacks]
  simp only [value_bind, value_position, value_size, Option.bind_some, if_neg hmore, value_byte,
    hstart, if_true, value_skip, value_within, hdrop, Psh.read_serialize h.psh,
    blocks_bytes_lt_two_iff]
  by_cases hnil : frame.blocks = []
  · rw [if_pos hnil, if_pos hnil]
    rfl
  · rw [if_neg hnil, if_neg hnil, Option.map_some, Option.bind_some]
    have hblocks := readPacks_blocks frame.blocks (n := n) (by omega) h.blocks
      (code ++ frame.psh.serialize) { psh := frame.psh.readBack }
    have hbytes : frame.serialize =
        code ++ frame.psh.serialize ++ frame.blocks.flatMap Block.serialize := rfl
    have hpos : 0 + 4 + frame.psh.serialize.length = (code ++ frame.psh.serialize).length := by
      rw [List.length_append]
      rfl
    have hend : (code ++ frame.psh.serialize).length +
        (frame.blocks.flatMap Block.serialize).length = n + 1 := by
      rw [← hn, hbytes]
      exact List.length_append.symm
    rw [hpos, hbytes, hblocks, hend]
    rfl

/-- The pack comes back as it was, and the parsers of the header and of a block take the
bytes that their writers made. -/
def PsFrame.RoundTrips (frame : PsFrame) : Prop :=
  (PsFrame.read.value frame.serialize 0).map Prod.fst = some frame ∧
    (Psh.read.value (frame.psh.serialize ++ frame.blocks.flatMap Block.serialize) 0).map Prod.snd =
      some frame.psh.serialize.length ∧
    ∀ b ∈ frame.blocks, ∀ rest,
      (Block.read.value (b.serialize ++ rest) 0).map Prod.snd = some b.serialize.length

/-- A pack survives exactly if it has a block and its header survives. -/
theorem pack_roundTrips_iff (frame : PsFrame) (h : frame.Fits) :
    frame.RoundTrips ↔ frame.blocks ≠ [] ∧ frame.psh.Survives := by
  rw [PsFrame.RoundTrips, PsFrame.read_serialize h, Psh.read_serialize h.psh]
  simp only [blocks_bytes_lt_two_iff]
  by_cases hnil : frame.blocks = []
  · simp [hnil]
  · rw [if_neg hnil, if_neg hnil, Option.map_some, Option.map_some, and_iff_right hnil,
      ← frame.psh.readBack_eq_iff, Option.some.injEq]
    constructor
    · rintro ⟨heq, -⟩
      exact congrArg PsFrame.psh heq
    · intro heq
      refine ⟨by rw [heq], rfl, fun b hb rest => ?_⟩
      have hread := Block.reads_serialize (h.blocks b hb).1 [] rest
      simp only [List.nil_append, List.length_nil, Nat.zero_add] at hread
      rw [hread, Option.map_some]

/-- A clock with the bit that is set, and an extension that is read back. -/
private def steadyPack : PsFrame where
  psh := { timestamp := 0x10000000, timestampEx := 2 }
  blocks := [⟨videoStart, [1, 2, 3]⟩]

theorem steadyPack_roundTrips_iff :
    steadyPack.RoundTrips ↔ steadyPack.blocks ≠ [] ∧ steadyPack.psh.Survives :=
  pack_roundTrips_iff steadyPack
    ⟨⟨by decide, by decide, by decide, by decide, by decide⟩,
      List.forall_mem_singleton.mpr ⟨by decide, by decide⟩⟩

/-- A header alone is not read, and a clock that is zero does not come back. -/
theorem pack_not_read_back :
    ¬ ({} : PsFrame).RoundTrips ∧
      ¬ ({ blocks := [⟨videoStart, [1, 2, 3]⟩] } : PsFrame).RoundTrips := by
  constructor
  · intro h
    have hread := h.1
    revert hread
    decide +kernel
  · intro h
    have hread := h.1
    revert hread
    decide +kernel

/-! ### The parsers that keep only what a receiver needs -/

/-- The parser gives up exactly where the other one takes nothing. -/
theorem Psh.read_consumed (buffer : List UInt8) :
    (Psh.read.value buffer 0).map Prod.snd =
      if Psh.deserialize buffer = 0 then none else some (Psh.deserialize buffer) := by
  rw [read, value_bind, value_need, deserialize]
  by_cases h : buffer.length < 8
  · rw [if_pos (by omega), if_pos h]
    rfl
  · rw [if_neg (by omega), if_neg h]
    simp only [value_bind, value_byte, value_skip, value_next, value_size, Option.bind_some,
      Nat.zero_add, Nat.reduceAdd]
    have hstuffing (b₀ b₁ b₂ b₃ b₄ r₀ r₁ r₂ s : UInt8) :
        (ofBytes b₀ b₁ b₂ b₃ b₄ r₀ r₁ r₂ s).packStuffingLength.toNat = (s &&& 0x07).toNat := by
      have hand : (s &&& 0x07).toNat = s.toNat &&& 0x07 := rfl
      rw [hand]
      exact Nat.mod_eq_of_lt (lt_of_le_of_lt Nat.and_le_right (by decide))
    rw [hstuffing]
    by_cases hsize : (buffer.getD 9 0 &&& 0x07).toNat + 12 > buffer.length
    · rw [if_pos hsize, if_pos hsize]
      rfl
    · rw [if_neg hsize, if_neg hsize, if_neg (by omega), value_bind, value_skip, Option.bind_some,
        value_pure]
      rfl

theorem Block.read_value (buffer : List UInt8) :
    Block.read.value buffer 0 = Block.deserialize buffer := by
  rw [read, value_bind, value_need, deserialize.eq_def]
  match buffer with
  | [] => rfl
  | [_] => rfl
  | [_, _] => rfl
  | [_, _, _] => rfl
  | [_, _, _, _] => rfl
  | [_, _, _, _, _] => rfl
  | _ :: _ :: _ :: startCode :: l₀ :: l₁ :: rest =>
    have hsix : ¬ 0 + 6 > rest.length + 1 + 1 + 1 + 1 + 1 + 1 := by omega
    simp only [List.length_cons, if_neg hsix, Option.bind_some, value_bind, value_byte, value_skip,
      value_need, value_take, value_pure, Nat.zero_add, List.getD_cons_succ, List.getD_cons_zero]
    by_cases h : (be16 l₀ l₁).toNat > rest.length
    · rw [if_pos (by omega), if_pos h, Option.bind_none]
    · rw [if_neg (by omega), if_neg h, Option.bind_some]
      rfl

/-- The frame that is read has the blocks of the one that a receiver reads. -/
theorem readPacks_readBlocks (n : ℕ) (frame : PsFrame) (buffer : List UInt8) (pos : ℕ) :
    ((readPacks n frame).value buffer pos).map (fun r => r.1.blocks) =
      (readBlocks n (buffer.drop pos)).map (frame.blocks ++ ·) := by
  induction n generalizing frame pos with
  | zero => simp [readPacks, readBlocks]
  | succ n ih =>
    rw [readPacks, readBlocks]
    simp only [value_bind, value_position, value_size, Option.bind_some]
    by_cases hend : pos + 4 > buffer.length
    · rw [if_pos hend, if_pos (by rw [List.length_drop]; omega)]
      simp
    · rw [if_neg hend, if_neg (by rw [List.length_drop]; omega)]
      have hcode : (buffer.drop pos).getD 3 0 = buffer.getD (pos + 3) 0 := by
        rw [List.getD_eq_getElem?_getD, List.getElem?_drop, List.getD_eq_getElem?_getD]
      simp only [value_bind, value_byte, Option.bind_some, hcode]
      split
      · have hconsumed := Psh.read_consumed (buffer.drop (pos + 4))
        rw [value_bind, value_skip, Option.bind_some, value_bind, value_within, List.drop_drop]
        cases hpsh : Psh.read.value (buffer.drop (pos + 4)) 0 with
        | none =>
          rw [hpsh, Option.map_none] at hconsumed
          by_cases hzero : Psh.deserialize (buffer.drop (pos + 4)) = 0
          · rw [hzero]
            rfl
          · rw [if_neg hzero] at hconsumed
            cases hconsumed
        | some r =>
          rw [hpsh, Option.map_some] at hconsumed
          by_cases hzero : Psh.deserialize (buffer.drop (pos + 4)) = 0
          · rw [if_pos hzero] at hconsumed
            cases hconsumed
          · rw [if_neg hzero] at hconsumed
            rw [Option.map_some, Option.bind_some, ih, Option.some.inj hconsumed, List.drop_drop]
            simp only [hzero, if_false, Nat.add_assoc]
      · rw [value_bind, value_within, Block.read_value]
        cases Block.deserialize (buffer.drop pos) with
        | none => rfl
        | some r =>
          rw [Option.map_some, Option.bind_some, ih]
          simp only [List.drop_drop, Option.map_map]
          congr 1
          funext blocks
          simp

theorem PsFrame.read_deserialize (buffer : List UInt8) :
    (PsFrame.read.value buffer 0).map (fun r => r.1.blocks) = PsFrame.deserialize buffer := by
  rw [read, value_bind, value_size, Option.bind_some, readPacks_readBlocks, deserialize,
    List.drop_zero]
  exact Option.map_id'

end CxxDeps.Ps
