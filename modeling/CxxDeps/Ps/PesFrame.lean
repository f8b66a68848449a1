import CxxDeps.Ps.Safety
import Mathlib.Data.Nat.Bitwise

/-! The packets of a frame. `Pes` keeps some of the fields of a `Pes2`; it is written as one
without optional parts, and read as any one, with the optional parts passed over. -/

namespace CxxDeps.Ps

open Library Reader

/-- The fields that a frame keeps. -/
def Pes2.kept (pes : Pes2) : Pes where
  pesPriority := .ofNat pes.pesPriority.toNat
  dataAlignmentIndicator := .ofNat pes.dataAlignmentIndicator.toNat
  ptsDtsFlags := .ofNat pes.ptsDtsFlags.toNat
  pts := .ofNat pes.pts.toNat
  dts := .ofNat pes.dts.toNat
  stuffingLength := pes.stuffingLength
  data := pes.pesPacketDataByte

/-! ### The writer -/

/-- Nothing else is set. -/
structure Pes2.Bare (pes : Pes2) : Prop where
  scrambling : pes.pesScramblingControl = 0
  copyright : pes.copyright = 0
  originalOrCopy : pes.originalOrCopy = 0
  escr : pes.escrFlag = 0
  rate : pes.esRateFlag = 0
  trickMode : pes.dsmTrickModeFlag = 0
  copyInfo : pes.additionalCopyInfoFlag = 0
  crc : pes.pesCrcFlag = 0
  extension : pes.pesExtensionFlag = 0

/-- A byte of a number, taken from a word that holds the number. -/
theorem toUInt8_shiftRight {n : ℕ} (hn : n < 2 ^ 64) (mask : ℕ) {s : ℕ} (hs : s < 64) :
    ((UInt64.ofNat n &&& UInt64.ofNat mask) >>> UInt64.ofNat s).toUInt8 =
      UInt8.ofNat ((n &&& mask) >>> s) := by
  have hlt : n &&& mask < 2 ^ 64 := Nat.and_le_left.trans_lt hn
  apply UInt8.toNat_inj.mp
  rw [← UInt64.ofNat_and, UInt64.toNat_toUInt8, UInt64.toNat_shiftRight,
    UInt64.toNat_ofNat_of_lt' hlt, UInt64.toNat_ofNat_of_lt' (hs.trans (by decide)),
    Nat.mod_eq_of_lt hs, UInt8.toNat_ofNat']

theorem timeBytes_eq (tag : ℕ) (t : BitVec 33) :
    timeBytes (.ofNat tag) (.ofNat t.toNat) = clockBytes tag t := by
  have hshift (mask s : ℕ) (hs : s < 64) :=
    toUInt8_shiftRight (t.isLt.trans (by decide)) mask hs
  have hhead : UInt8.ofNat tag ||| ((UInt64.ofNat t.toNat &&& 0x1c0000000) >>> 29).toUInt8 |||
      (1 : UInt8) =
      UInt8.ofNat (tag ||| (t.toNat &&& 0x1c0000000) >>> 29 ||| 1) := by
    rw [UInt8.ofNat_or, UInt8.ofNat_or, ← hshift 0x1c0000000 29 (by decide)]
    rfl
  have hlast : ((UInt64.ofNat t.toNat &&& 0x7F) <<< 1).toUInt8 ||| (1 : UInt8) =
      UInt8.ofNat ((t.toNat &&& 0x7F) <<< 1 ||| 0x01) := by
    have hand : UInt64.ofNat t.toNat &&& 0x7F = UInt64.ofNat (t.toNat &&& 0x7F) :=
      (UInt64.ofNat_and _ _).symm
    have hleft : UInt64.ofNat (t.toNat &&& 0x7F) <<< 1 = UInt64.ofNat ((t.toNat &&& 0x7F) <<< 1) :=
      (UInt64.ofNat_shiftLeft _ 1 (by decide)).symm
    rw [hand, hleft, UInt64.toUInt8_ofNat', UInt8.ofNat_or]
    rfl
  rw [timeBytes, clockBytes, hhead, hlast, ← hshift 0x3fc00000 22 (by decide),
    ← hshift 0x3f8000 14 (by decide), ← hshift 0x7F80 7 (by decide)]
  rfl

/-- A packet without other parts is written the same. -/
theorem Pes2.serialize_kept {pes : Pes2} (h : pes.Bare) : pes.kept.serialize = pes.serialize1 := by
  have htwo (f : BitVec 2) : UInt8.ofNat f.toNat = 2 ↔ f = 2 := by revert f; decide
  have hthree (f : BitVec 2) : UInt8.ofNat f.toNat = 3 ↔ f = 3 := by revert f; decide
  have hoptional : pes.optionalBytes = pes.timesBytes := by
    simp [Pes2.optionalBytes, partBytes, h.escr, h.rate, h.trickMode, h.copyInfo, h.crc,
      h.extension]
  have hfirst (p d : BitVec 1) : (0xc0 : UInt8) ||| (UInt8.ofNat p.toNat <<< 3) |||
      (UInt8.ofNat d.toNat <<< 2) = UInt8.ofNat (0xc0 ||| 0 <<< 4 ||| p.toNat <<< 3 |||
        d.toNat <<< 2 ||| 0 <<< 1 ||| 0) := by revert p d; decide
  have hsecond (f : BitVec 2) : UInt8.ofNat f.toNat <<< 6 = UInt8.ofNat (f.toNat <<< 6 |||
      0 <<< 5 ||| 0 <<< 4 ||| 0 <<< 3 ||| 0 <<< 2 ||| 0 <<< 1 ||| 0) := by revert f; decide
  rw [Pes.serialize, Pes2.serialize1, hoptional, Pes2.timesBytes, h.scrambling, h.copyright,
    h.originalOrCopy, h.escr, h.rate, h.trickMode, h.copyInfo, h.crc, h.extension]
  have hone : (0 : BitVec 1).toNat = 0 := rfl
  have hnone : (0 : BitVec 2).toNat = 0 := rfl
  have htags : UInt8.ofNat 0x20 = 0x20 ∧ UInt8.ofNat 0x30 = 0x30 ∧ UInt8.ofNat 0x10 = 0x10 :=
    ⟨rfl, rfl, rfl⟩
  simp only [Pes2.kept, htwo, hthree, hfirst, hsecond, ← timeBytes_eq, hone, hnone, htags]

/-! ### The reader -/

section

variable {buffer : List UInt8} {pos : ℕ}

/-- A flag of the second byte, or of the first one of an extension. -/
theorem flag_iff (b mask : UInt8) (k : ℕ) (hmask : mask.toNat = 2 ^ k) :
    BitVec.ofNat 1 ((b.toNat &&& mask.toNat) >>> k) = 1 ↔ b &&& mask ≠ 0 := by
  have hbyte : b &&& mask = 0 ↔ b.toNat &&& mask.toNat = 0 := by
    rw [← UInt8.toNat_inj, UInt8.toNat_and]
    rfl
  rw [Ne, hbyte, hmask, Nat.and_two_pow]
  cases b.toNat.testBit k
  · simp
  · rw [Bool.toNat_true, Nat.one_mul, Nat.shiftRight_eq_div_pow, Nat.div_self (Nat.two_pow_pos k)]
    exact iff_of_true rfl (Nat.two_pow_pos k).ne'

/-- The part is passed over, whatever is made of it. -/
theorem value_part_bind {α β γ : Type} {p : Reader α} {len : ℕ} {flag : BitVec 1} {b : Bool}
    (hflag : flag = 1 ↔ b = true) {absent : α} {f : α → Reader β} {k : β × ℕ → γ}
    {g : ℕ → Option γ} (hpos : pos ≤ buffer.length) (hp : p.Passes buffer pos len 0)
    (h : ∀ a pos', pos' ≤ buffer.length → ((f a).value buffer pos').map k = g pos') :
    ((part (flag = 1) absent p >>= f).value buffer pos).map k =
      (skipPart buffer.length pos b len).bind g := by
  rw [value_bind, skipPart]
  by_cases hb : b = true
  · have hpart : part (flag = 1) absent p = p := if_pos (decide_eq_true (hflag.mpr hb))
    rw [hpart, if_pos hb]
    split_ifs with hlong
    · rw [hp.givesUp hlong, Option.bind_none, Option.map_none, Option.bind_none]
    · obtain ⟨a, ha⟩ := hp.passes (by omega)
      rw [ha, Option.bind_some, Option.bind_some]
      exact h a _ (by omega)
  · have hpart : part (flag = 1) absent p = pure absent :=
      if_neg fun hflagged => hb (hflag.mp (of_decide_eq_true hflagged))
    rw [hpart, value_pure, if_neg hb, Option.bind_some, Option.bind_some]
    exact h absent pos hpos

/-- A part whose length is its first byte. -/
theorem skipPart_counted {γ : Type} (c : Prop) [Decidable c] (g : ℕ → Option γ) :
    (skipPart buffer.length pos c (1 + (buffer.getD pos 0).toNat)).bind g =
      if c then
        if pos + 1 > buffer.length then Option.bind none g
        else (skipPart buffer.length (pos + 1) true (buffer.getD pos 0).toNat).bind g
      else Option.bind (some pos) g := by
  simp only [skipPart, decide_eq_true_eq, if_true, ← Nat.add_assoc]
  split_ifs <;> first | rfl | omega

theorem toNat_and_127 (b : UInt8) :
    (b &&& 127).toNat = (BitVec.ofNat 7 (b.toNat &&& 0x7f)).toNat := by
  revert b
  exact forall_uint8 (by decide +kernel)

theorem value_extension : (PesExtension.read.value buffer pos).map Prod.snd =
    skipExtension buffer pos := by
  have hlastFlag : BitVec.ofNat 1 ((buffer.getD pos 0).toNat &&& 0x01) = 1 ↔
      buffer.getD pos 0 &&& 0x01 ≠ 0 := flag_iff _ 0x01 0 rfl
  have hflag (mask : UInt8) (k : ℕ) (hmask : mask.toNat = 2 ^ k) :=
    (flag_iff (buffer.getD pos 0) mask k hmask).trans decide_eq_true_iff.symm
  rw [PesExtension.read, skipExtension, value_bind, value_need]
  split_ifs with hone
  · rfl
  rw [Option.bind_some, value_bind, value_next, Option.bind_some]
  refine value_part_bind (hflag 0x80 7 rfl) (by omega) passes_readPrivateData
    fun _ p₁ hp₁ => ?_
  refine Eq.trans (value_part_bind (hflag 0x40 6 rfl) hp₁ passes_readHeaders
    fun _ p₂ hp₂ => ?_) (skipPart_counted _ _)
  refine value_part_bind (hflag 0x20 5 rfl) hp₂ passes_readSequenceCounter
    fun _ p₃ hp₃ => ?_
  refine value_part_bind (hflag 0x10 4 rfl) hp₃ passes_readStdBuffer
    fun _ p₄ hp₄ => ?_
  -- the byte behind the second extension may be missing
  rw [value_bind]
  by_cases hb : buffer.getD pos 0 &&& 1 ≠ 0
  · rw [if_pos hb, toNat_and_127, part, if_pos (decide_eq_true (hlastFlag.mpr hb))]
    have hlast := passes_readFieldLength hp₄
    dsimp only
    split_ifs with hlong
    · rw [hlast.givesUp (by omega)]
      rfl
    · obtain ⟨a, ha⟩ := hlast.passes (by omega)
      rw [ha]
      exact congrArg some (by omega)
  · rw [if_neg hb, part, if_neg fun h => hb (hlastFlag.mp (of_decide_eq_true h))]
    rfl

/-- The word that is put together of the bytes of a time stamp is the number of its bits. -/
theorem readTime_eq (buffer : List UInt8) (pos : ℕ) :
    ∃ t, readClock.value buffer pos = some (t, pos + 5) ∧
      UInt64.ofNat t.toNat = readTime buffer pos := by
  refine ⟨_, rfl, ?_⟩
  have h₀ : ∀ b : UInt8, UInt64.ofNat ((b.toNat &&& 0x0e) <<< 29) = (b.toUInt64 &&& 0x0e) <<< 29 ∧
      (b.toNat &&& 0x0e) <<< 29 < 2 ^ 33 := forall_uint8 (by decide +kernel)
  have h₁ : ∀ b : UInt8, UInt64.ofNat (b.toNat <<< 22) = b.toUInt64 <<< 22 ∧
      b.toNat <<< 22 < 2 ^ 33 := forall_uint8 (by decide +kernel)
  have h₂ : ∀ b : UInt8, UInt64.ofNat ((b.toNat &&& 0xfe) <<< 14) = (b.toUInt64 &&& 0xfe) <<< 14 ∧
      (b.toNat &&& 0xfe) <<< 14 < 2 ^ 33 := forall_uint8 (by decide +kernel)
  have h₃ : ∀ b : UInt8, UInt64.ofNat (b.toNat <<< 7) = b.toUInt64 <<< 7 ∧
      b.toNat <<< 7 < 2 ^ 33 := forall_uint8 (by decide +kernel)
  have h₄ : ∀ b : UInt8, UInt64.ofNat ((b.toNat &&& 0xfe) >>> 1) = (b.toUInt64 &&& 0xfe) >>> 1 ∧
      (b.toNat &&& 0xfe) >>> 1 < 2 ^ 33 := forall_uint8 (by decide +kernel)
  rw [BitVec.toNat_ofNat, Nat.mod_eq_of_lt, UInt64.ofNat_or, UInt64.ofNat_or, UInt64.ofNat_or,
    UInt64.ofNat_or, (h₀ _).1, (h₁ _).1, (h₂ _).1, (h₃ _).1, (h₄ _).1]
  · rfl
  · exact Nat.or_lt_two_pow (Nat.or_lt_two_pow (Nat.or_lt_two_pow (Nat.or_lt_two_pow
      (h₀ _).2 (h₁ _).2) (h₂ _).2) (h₃ _).2) (h₄ _).2

theorem stamps_iff (flags : UInt8) :
    (BitVec.ofNat 2 ((flags.toNat &&& 0xc0) >>> 6) = 2 ↔ flags >>> 6 = 2) ∧
      (BitVec.ofNat 2 ((flags.toNat &&& 0xc0) >>> 6) = 3 ↔ flags >>> 6 = 3) := by
  revert flags
  exact forall_uint8 (by decide +kernel)

theorem value_readStamps (flags : UInt8) :
    ((readStamps (.ofNat 2 ((flags.toNat &&& 0xc0) >>> 6))).value buffer pos).map
        (fun r => (UInt64.ofNat r.1.1.toNat, UInt64.ofNat r.1.2.toNat, r.2)) =
      readTimes buffer (flags >>> 6) pos := by
  obtain ⟨htwo, hthree⟩ := stamps_iff flags
  obtain ⟨pts, hpts, heqp⟩ := readTime_eq buffer pos
  obtain ⟨dts, hdts, heqd⟩ := readTime_eq buffer (pos + 5)
  rw [readStamps, readTimes]
  simp only [htwo, hthree]
  split_ifs with h₂ hlong h₃ hlong
  · rw [value_bind, value_need, if_pos hlong]
    rfl
  · rw [value_bind, value_need, if_neg hlong, Option.bind_some, value_bind, hpts, ← heqp]
    rfl
  · rw [value_bind, value_need, if_pos hlong]
    rfl
  · rw [value_bind, value_need, if_neg hlong, Option.bind_some, value_bind, hpts, Option.bind_some,
      value_bind, hdts, ← heqp, ← heqd]
    rfl
  · rfl

/-- The position behind the parts that the flags announce after the stamps. -/
def skipParts (buffer : List UInt8) (flags : UInt8) (pos : ℕ) : Option ℕ :=
  (skipPart buffer.length pos (flags &&& 0x20 ≠ 0) 6).bind fun pos =>
  (skipPart buffer.length pos (flags &&& 0x10 ≠ 0) 3).bind fun pos =>
  (skipPart buffer.length pos (flags &&& 0x08 ≠ 0) 1).bind fun pos =>
  (skipPart buffer.length pos (flags &&& 0x04 ≠ 0) 1).bind fun pos =>
  (skipPart buffer.length pos (flags &&& 0x02 ≠ 0) 2).bind fun pos =>
  if flags &&& 0x01 ≠ 0 then skipExtension buffer pos else some pos

/-- What the flags announce is passed over; only the stamps are kept. -/
theorem value_readParts (v flags : UInt8) (hpos : pos ≤ buffer.length) :
    ((Pes2.readParts (.ofBytes v flags)).value buffer pos).map (fun r => (r.1.kept, r.2)) =
      (readTimes buffer (flags >>> 6) pos).bind fun times =>
        (skipParts buffer flags times.2.2).map fun pos =>
          ({ (Pes2.ofBytes v flags).kept with pts := times.1, dts := times.2.1 }, pos) := by
  have hflags : (Pes2.ofBytes v flags).ptsDtsFlags = .ofNat 2 ((flags.toNat &&& 0xc0) >>> 6) := rfl
  have hflag (mask : UInt8) (k : ℕ) (hmask : mask.toNat = 2 ^ k) :=
    (flag_iff flags mask k hmask).trans decide_eq_true_iff.symm
  have hext : (Pes2.ofBytes v flags).pesExtensionFlag = 1 ↔ flags &&& 1 ≠ 0 :=
    flag_iff _ 0x01 0 rfl
  rw [Pes2.readParts, value_bind, hflags, ← value_readStamps]
  rcases htimes : (readStamps (.ofNat 2 ((flags.toNat &&& 0xc0) >>> 6))).value buffer pos with
    _ | times
  · rfl
  have hp₀ : times.2 ≤ buffer.length := (passes_readStamps _ hpos).le htimes
  rw [Option.map_some, Option.bind_some, Option.bind_some, skipParts]
  simp only [Option.map_bind, Function.comp_def]
  refine value_part_bind (hflag 0x20 5 rfl) hp₀ passes_readEscr fun _ p₁ hp₁ => ?_
  refine value_part_bind (hflag 0x10 4 rfl) hp₁ passes_readRate fun _ p₂ hp₂ => ?_
  refine value_part_bind (hflag 0x08 3 rfl) hp₂ passes_readTrickMode fun _ p₃ hp₃ => ?_
  refine value_part_bind (hflag 0x04 2 rfl) hp₃ passes_readCopyInfo fun _ p₄ hp₄ => ?_
  refine value_part_bind (hflag 0x02 1 rfl) hp₄ passes_readCrc fun _ p₅ hp₅ => ?_
  rw [value_bind]
  by_cases hb : flags &&& 1 ≠ 0
  · rw [if_pos hb, part, if_pos (decide_eq_true (hext.mpr hb)), ← value_extension]
    cases PesExtension.read.value buffer p₅ <;> rfl
  · rw [if_neg hb, part, if_neg fun h => hb (hext.mp (of_decide_eq_true h))]
    rfl

/-- The packet with what is behind the announced parts. -/
def Pes.withPayload (buffer : List UInt8) (headerLength : UInt8) (q : Pes × ℕ) : Option Pes :=
  let stuffing := ((headerLength.toNat : ℤ) - (q.2 - 3) : ℤ) % 256
  if q.2 + stuffing.toNat > buffer.length then none
  else some { q.1 with
    stuffingLength := UInt8.ofNat stuffing.toNat
    data := buffer.drop (q.2 + stuffing.toNat) }

theorem value_readPayload_kept (hlen : buffer.length < 2 ^ 31) (headerLength : UInt8) (pes : Pes2) :
    ((Pes2.readPayload pes (headerLength.toNat - ((pos : ℤ) - 3))).value buffer pos).map
        (fun r => r.1.kept) = Pes.withPayload buffer headerLength (pes.kept, pos) := by
  obtain ⟨stuffing, hstuffing⟩ :
      ∃ n, n = ((headerLength.toNat : ℤ) - ((pos : ℤ) - 3)) % 256 := ⟨_, rfl⟩
  have hbyte : stuffing.toNat < 256 := by omega
  have hmod : (Pes2.readPayload pes (headerLength.toNat - ((pos : ℤ) - 3))).value buffer pos =
      (Pes2.readPayload pes stuffing.toNat).value buffer pos := by
    have hnat : ((stuffing.toNat : ℤ) % 256) = stuffing := by omega
    rw [Pes2.readPayload, Pes2.readPayload, value_bind, value_bind, hnat, ← hstuffing]
    rfl
  rw [hmod, Pes.withPayload]
  dsimp only
  rw [← hstuffing]
  split_ifs with hlong
  · rw [Pes2.readPayload, value_bind, value_note, Option.bind_some]
    dsimp only
    rw [show ((stuffing.toNat : ℤ) % 256).toNat = stuffing.toNat by omega,
      UInt8.toNat_ofNat_of_lt' hbyte, value_bind, value_need, if_pos hlong]
    rfl
  · have hrest : Pes2.toInt buffer.length - ((pos + stuffing.toNat : ℕ) : ℤ) =
        ((buffer.length - (pos + stuffing.toNat) : ℕ) : ℤ) := by
      rw [Pes2.toInt_of_lt hlen]
      omega
    rw [Pes2.value_readPayload pes hbyte (Nat.not_lt.mp hlong), hrest, if_neg (by omega),
      Int.toNat_natCast, List.take_of_length_le (by rw [List.length_drop])]
    rfl

theorem kept_ofBytes (v flags : UInt8) : (Pes2.ofBytes v flags).kept =
    { pesPriority := (v &&& 0x08) >>> 3
      dataAlignmentIndicator := (v &&& 0x04) >>> 2
      ptsDtsFlags := flags >>> 6 } := by
  have hfirst : ∀ v : UInt8,
      UInt8.ofNat (BitVec.ofNat 1 ((v.toNat &&& 0x08) >>> 3)).toNat = (v &&& 0x08) >>> 3 ∧
        UInt8.ofNat (BitVec.ofNat 1 ((v.toNat &&& 0x04) >>> 2)).toNat = (v &&& 0x04) >>> 2 :=
    forall_uint8 (by decide +kernel)
  have hsecond : ∀ flags : UInt8,
      UInt8.ofNat (BitVec.ofNat 2 ((flags.toNat &&& 0xc0) >>> 6)).toNat = flags >>> 6 :=
    forall_uint8 (by decide +kernel)
  rw [← (hfirst v).1, ← (hfirst v).2, ← hsecond flags]
  rfl

/-- The reader of a frame, behind the three bytes that it looks at first. -/
theorem Pes.deserialize_parts (hthree : ¬buffer.length < 3)
    (hheader : ¬3 + (buffer.getD 2 0).toNat > buffer.length) :
    Pes.deserialize buffer = ((readTimes buffer (buffer.getD 1 0 >>> 6) 3).bind fun times =>
      (skipParts buffer (buffer.getD 1 0) times.2.2).map fun pos =>
        ({ (Pes2.ofBytes (buffer.getD 0 0) (buffer.getD 1 0)).kept with
          pts := times.1
          dts := times.2.1 }, pos)).bind (Pes.withPayload buffer (buffer.getD 2 0)) := by
  rw [Pes.deserialize, if_neg hthree, if_neg hheader, kept_ofBytes, Option.bind_assoc]
  refine congrArg (Option.bind _) (funext fun times => ?_)
  rw [skipParts, Option.bind_map]
  dsimp only
  iterate 5
    rw [Option.bind_assoc]
    refine congrArg (Option.bind _) (funext fun pos => ?_)
  split_ifs <;> rfl

/-- The packet that a frame reads is the one of the full reader, as long as its size is one that
an `int` holds. -/
theorem Pes.deserialize_eq_kept (hlen : buffer.length < 2 ^ 31) :
    Pes.deserialize buffer = (Pes2.read.value buffer 0).map fun r => r.1.kept := by
  rw [Pes2.read, value_bind, value_need]
  by_cases hthree : buffer.length < 3
  · rw [Pes.deserialize, if_pos hthree, if_pos (by omega)]
    rfl
  rw [if_neg (by omega : ¬ 0 + 3 > buffer.length), Option.bind_some, value_bind, value_next,
    Option.bind_some, value_bind, value_next, Option.bind_some, value_bind, value_next,
    Option.bind_some, value_bind, value_need]
  by_cases hheader : 3 + (buffer.getD 2 0).toNat > buffer.length
  · rw [Pes.deserialize, if_neg hthree, if_pos hheader, if_pos hheader]
    rfl
  rw [if_neg hheader, Option.bind_some, value_bind, value_position, Option.bind_some, value_bind,
    Pes.deserialize_parts hthree hheader, ← value_readParts _ _ (by omega)]
  cases (Pes2.readParts (.ofBytes (buffer.getD 0 0) (buffer.getD 1 0))).value buffer 3 with
  | none => rfl
  | some r => exact (value_readPayload_kept hlen _ r.1).symm

end

end CxxDeps.Ps
