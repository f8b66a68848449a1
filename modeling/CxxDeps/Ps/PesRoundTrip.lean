import CxxDeps.Ps.Pes2

/-! A PES packet that is written and read again. Everything comes back but a rate of 2^15
or more, whose upper bits the reader takes for the ones below them. -/

namespace CxxDeps.Ps

open Library Reader

/-! ### The parts -/

theorem toNat_ofNat_bits (x s : ℕ) : (UInt8.ofNat (bits x s 8)).toNat = bits x s 8 :=
  UInt8.toNat_ofNat_of_lt' (bits_lt x s 8)

theorem reads_readClock {tag : ℕ} (htag : tag = 0x20 ∨ tag = 0x30 ∨ tag = 0x10) (t : BitVec 33) :
    readClock.Reads (clockBytes tag t) t := by
  have h₀ : (t.toNat &&& 0x1c0000000) >>> 29 = bits t.toNat 30 3 <<< 1 :=
    and_mask_shiftRight t.toNat 30 3 29 (by decide)
  have h₁ : (t.toNat &&& 0x3fc00000) >>> 22 = bits t.toNat 22 8 :=
    and_mask_shiftRight t.toNat 22 8 22 le_rfl
  have h₂ : (t.toNat &&& 0x3f8000) >>> 14 = bits t.toNat 15 7 <<< 1 :=
    and_mask_shiftRight t.toNat 15 7 14 (by decide)
  have h₃ : (t.toNat &&& 0x7F80) >>> 7 = bits t.toNat 7 8 :=
    and_mask_shiftRight t.toNat 7 8 7 le_rfl
  have h₄ : t.toNat &&& 0x7F = bits t.toNat 0 7 := and_mask t.toNat 7
  have hfirst : ∀ d : Fin 8,
      ((UInt8.ofNat (tag ||| d.val <<< 1 ||| 1)).toNat &&& 0x0e) <<< 29 = d.val <<< 30 := by
    rcases htag with rfl | rfl | rfl <;> decide
  have hthird : ∀ d : Fin 128,
      ((UInt8.ofNat (d.val <<< 1)).toNat &&& 0xfe) <<< 14 = d.val <<< 15 := by decide
  have hlast : ∀ d : Fin 128,
      ((UInt8.ofNat (d.val <<< 1 ||| 0x01)).toNat &&& 0xfe) >>> 1 = d.val := by decide
  have hjoin : bits t.toNat 30 3 <<< 30 ||| bits t.toNat 22 8 <<< 22 |||
      bits t.toNat 15 7 <<< 15 ||| bits t.toNat 7 8 <<< 7 ||| bits t.toNat 0 7 =
      bits t.toNat 0 33 := by
    have hlow := bits_or t.toNat 0 7 26 0
    rw [Nat.shiftLeft_zero, Nat.shiftLeft_zero] at hlow
    rw [bits_or t.toNat 22 8 3 22, bits_or t.toNat 15 7 11 15, bits_or t.toNat 7 8 18 7, hlow]
  refine .byte rfl (.byte rfl (.byte rfl (.byte rfl (.byte rfl ?_))))
  rw [h₀, h₁, h₂, h₃, h₄, toNat_ofNat_bits, toNat_ofNat_bits,
    hfirst ⟨_, bits_lt t.toNat 30 3⟩, hthird ⟨_, bits_lt t.toNat 15 7⟩,
    hlast ⟨_, bits_lt t.toNat 0 7⟩, hjoin, bitVec_ofNat_bits]
  exact reads_skip_pure rfl t

theorem reads_readEscr (base : BitVec 33) (extension : BitVec 9) :
    readEscr.Reads (escrBytes base extension) (base, extension) := by
  have h₀ : (base.toNat &&& 0x1c0000000) >>> 27 = bits base.toNat 30 3 <<< 3 :=
    and_mask_shiftRight base.toNat 30 3 27 (by decide)
  have h₁ : (base.toNat &&& 0x30000000) >>> 28 = bits base.toNat 28 2 :=
    and_mask_shiftRight base.toNat 28 2 28 le_rfl
  have h₂ : (base.toNat &&& 0xff00000) >>> 20 = bits base.toNat 20 8 :=
    and_mask_shiftRight base.toNat 20 8 20 le_rfl
  have h₃ : (base.toNat &&& 0xf8000) >>> 12 = bits base.toNat 15 5 <<< 3 :=
    and_mask_shiftRight base.toNat 15 5 12 (by decide)
  have h₄ : (base.toNat &&& 0x6000) >>> 13 = bits base.toNat 13 2 :=
    and_mask_shiftRight base.toNat 13 2 13 le_rfl
  have h₅ : (base.toNat &&& 0x1fe0) >>> 5 = bits base.toNat 5 8 :=
    and_mask_shiftRight base.toNat 5 8 5 le_rfl
  have h₆ : base.toNat &&& 0x1f = bits base.toNat 0 5 := and_mask base.toNat 5
  have h₇ : (extension.toNat &&& 0x180) >>> 7 = bits extension.toNat 7 2 :=
    and_mask_shiftRight extension.toNat 7 2 7 le_rfl
  have h₈ : extension.toNat &&& 0x7F = bits extension.toNat 0 7 := and_mask extension.toNat 7
  have hfirst : ∀ (high : Fin 8) (low : Fin 4),
      let b := (UInt8.ofNat (0xc0 ||| high.val <<< 3 ||| 0x04 ||| low.val)).toNat
      (b &&& 0x38) <<< 27 = high.val <<< 30 ∧ (b &&& 0x3) <<< 28 = low.val <<< 28 := by decide
  have hthird : ∀ (high : Fin 32) (low : Fin 4),
      let b := (UInt8.ofNat (high.val <<< 3 ||| 0x04 ||| low.val)).toNat
      (b &&& 0xf8) <<< 12 = high.val <<< 15 ∧ (b &&& 0x3) <<< 13 = low.val <<< 13 ∧
        (b &&& 0xf8) >>> 3 = high.val ∧ (b &&& 0x3) <<< 7 = low.val <<< 7 := by decide
  have hlast : ∀ d : Fin 128,
      ((UInt8.ofNat (d.val <<< 1 ||| 0x01)).toNat &&& 0xfe) >>> 1 = d.val := by decide
  obtain ⟨hhigh, hlow⟩ := hfirst ⟨_, bits_lt base.toNat 30 3⟩ ⟨_, bits_lt base.toNat 28 2⟩
  obtain ⟨hhigh₂, hlow₂, -⟩ := hthird ⟨_, bits_lt base.toNat 15 5⟩ ⟨_, bits_lt base.toNat 13 2⟩
  obtain ⟨-, -, hhigh₃, hlow₃⟩ :=
    hthird ⟨_, bits_lt base.toNat 0 5⟩ ⟨_, bits_lt extension.toNat 7 2⟩
  have hextension : bits extension.toNat 7 2 <<< 7 ||| bits extension.toNat 0 7 =
      bits extension.toNat 0 9 := by
    have h := bits_or extension.toNat 0 7 2 0
    rwa [Nat.shiftLeft_zero, Nat.shiftLeft_zero] at h
  refine .need (Nat.le_refl 6) (.byte rfl (.byte rfl (.byte rfl (.byte rfl (.byte rfl
    (.byte rfl ?_))))))
  rw [h₀, h₁, h₂, h₃, h₄, h₅, h₆, h₇, h₈, toNat_ofNat_bits, toNat_ofNat_bits, hhigh, hlow, hhigh₂,
    hlow₂, hhigh₃, hlow₃, hlast ⟨_, bits_lt extension.toNat 0 7⟩, clock_join base.isLt, hextension,
    bitVec_ofNat_bits, BitVec.ofNat_toNat, BitVec.setWidth_eq]
  exact reads_skip_pure rfl _

/-- What the reader makes of a rate. -/
def rateBack (r : BitVec 22) : BitVec 22 :=
  .ofNat 22 (bits r.toNat 15 7 <<< 14 ||| bits r.toNat 7 8 <<< 7 ||| bits r.toNat 0 7)

theorem reads_readRate (r : BitVec 22) : readRate.Reads (rateBytes r) (rateBack r) := by
  have h₀ : (r.toNat &&& 0x3f8000) >>> 15 = bits r.toNat 15 7 :=
    and_mask_shiftRight r.toNat 15 7 15 le_rfl
  have h₁ : (r.toNat &&& 0x7f80) >>> 7 = bits r.toNat 7 8 :=
    and_mask_shiftRight r.toNat 7 8 7 le_rfl
  have h₂ : r.toNat &&& 0x7f = bits r.toNat 0 7 := and_mask r.toNat 7
  have hfirst : ∀ d : Fin 128,
      ((UInt8.ofNat (0x80 ||| d.val)).toNat &&& 0x7f) <<< 14 = d.val <<< 14 := by decide
  have hlast : ∀ d : Fin 128,
      ((UInt8.ofNat (d.val <<< 1 ||| 0x01)).toNat &&& 0xfe) >>> 1 = d.val := by decide
  refine .need (Nat.le_refl 3) (.byte rfl (.byte rfl (.byte rfl ?_)))
  rw [h₀, h₁, h₂, toNat_ofNat_bits, hfirst ⟨_, bits_lt r.toNat 15 7⟩,
    hlast ⟨_, bits_lt r.toNat 0 7⟩]
  exact reads_skip_pure rfl _

/-- The lowest of the upper bits is ored into the one below. -/
theorem rateBack_toNat (r : BitVec 22) : (rateBack r).toNat =
    (bits r.toNat 15 7 ||| bits r.toNat 14 1) * 2 ^ 14 + bits r.toNat 0 14 := by
  have hlow : bits r.toNat 7 8 <<< 7 ||| bits r.toNat 0 7 = bits r.toNat 0 15 := by
    have h := bits_or r.toNat 0 7 8 0
    rwa [Nat.shiftLeft_zero, Nat.shiftLeft_zero] at h
  have hsplit : bits r.toNat 14 1 <<< 14 ||| bits r.toNat 0 14 = bits r.toNat 0 15 := by
    have h := bits_or r.toNat 0 14 1 0
    rwa [Nat.shiftLeft_zero, Nat.shiftLeft_zero] at h
  have hjoin : bits r.toNat 15 7 <<< 14 ||| bits r.toNat 7 8 <<< 7 ||| bits r.toNat 0 7 =
      (bits r.toNat 15 7 ||| bits r.toNat 14 1) * 2 ^ 14 + bits r.toNat 0 14 := by
    rw [Nat.or_assoc, hlow, ← hsplit, ← Nat.or_assoc, ← Nat.shiftLeft_or_distrib, Nat.shiftLeft_eq,
      or_eq_add (bits_lt r.toNat 0 14)]
  have hhigh : bits r.toNat 15 7 ||| bits r.toNat 14 1 < 2 ^ 7 :=
    Nat.or_lt_two_pow (bits_lt r.toNat 15 7) (lt_trans (bits_lt r.toNat 14 1) (by decide))
  have hrest := bits_lt r.toNat 0 14
  rw [rateBack, hjoin, BitVec.toNat_ofNat, Nat.mod_eq_of_lt (by omega)]

theorem rateBack_eq_iff (r : BitVec 22) : rateBack r = r ↔ r.toNat < 2 ^ 15 := by
  have hr := r.isLt
  have hsplit : r.toNat =
      (2 * bits r.toNat 15 7 + bits r.toNat 14 1) * 2 ^ 14 + bits r.toNat 0 14 := by
    simp only [bits]
    omega
  have hor : ∀ (high : Fin 128) (middle : Fin 2),
      (high.val ||| middle.val) = 2 * high.val + middle.val ↔ high.val = 0 := by decide
  have hzero := hor ⟨_, bits_lt r.toNat 15 7⟩ ⟨_, bits_lt r.toNat 14 1⟩
  dsimp only at hzero
  have hsmall : bits r.toNat 15 7 = 0 ↔ r.toNat < 2 ^ 15 := by
    simp only [bits]
    omega
  rw [← BitVec.toNat_inj, rateBack_toNat, ← hsmall, ← hzero]
  constructor
  · intro h
    omega
  · intro h
    omega

theorem reads_readTrickMode (control : BitVec 3) (val : BitVec 5) :
    readTrickMode.Reads [.ofNat (control.toNat <<< 5 ||| val.toNat)] (control, val) := by
  have hfields : ∀ (control : BitVec 3) (val : BitVec 5),
      let v := UInt8.ofNat (control.toNat <<< 5 ||| val.toNat)
      (BitVec.ofNat 3 ((v.toNat &&& 0xe0) >>> 5), BitVec.ofNat 5 (v.toNat &&& 0x1f)) =
        (control, val) := by decide
  rw [← hfields control val]
  exact .need (Nat.le_refl 1) (reads_next_pure _ _)

theorem reads_readCopyInfo (info : BitVec 7) :
    readCopyInfo.Reads [.ofNat (0x80 ||| info.toNat)] info := by
  have hfield : ∀ info : BitVec 7,
      BitVec.ofNat 7 ((UInt8.ofNat (0x80 ||| info.toNat)).toNat &&& 0x7f) = info := by decide
  have h : readCopyInfo.Reads [.ofNat (0x80 ||| info.toNat)]
      (BitVec.ofNat 7 ((UInt8.ofNat (0x80 ||| info.toNat)).toNat &&& 0x7f)) :=
    .need (Nat.le_refl 1) (reads_next_pure _ _)
  rwa [hfield] at h

theorem reads_readCrc (crc : UInt16) : readCrc.Reads (toBe16 crc) crc := by
  have h : readCrc.Reads (toBe16 crc) (be16 (crc >>> 8).toUInt8 crc.toUInt8) :=
    .need (Nat.le_refl 2) (.byte rfl (.byte rfl (reads_skip_pure rfl _)))
  rwa [be16_toBe16] at h

/-! ### The extension -/

theorem reads_readPrivateData (data : Vector UInt8 16) :
    readPrivateData.Reads data.toList data := by
  have hlength : data.toList.length = 16 := data.length_toList
  have hdata : Vector.ofFn (fun i : Fin 16 => data.toList.getD i 0) = data := by
    ext i hi
    simp [List.getD_eq_getElem?_getD]
  have h := (reads_take hlength).bind (f := fun l : List UInt8 =>
    pure (Vector.ofFn fun i : Fin 16 => l.getD i 0)) (reads_pure _)
  rw [List.append_nil, hdata] at h
  exact .need hlength.ge h

theorem reads_readHeaders {headers : List UInt8} (h : headers.length ≤ 255) :
    readHeaders.Reads (.ofNat headers.length :: headers) headers := by
  have hlength : (UInt8.ofNat headers.length).toNat = headers.length :=
    UInt8.toNat_ofNat_of_lt' (lt_of_le_of_lt h (by decide))
  have hrest : (do
      need (UInt8.ofNat headers.length).toNat
      take (UInt8.ofNat headers.length).toNat :
      Reader (List UInt8)).Reads headers headers := by
    rw [hlength]
    exact .need le_rfl (reads_take rfl)
  exact .need (by simp) ((reads_next (.ofNat headers.length)).bind hrest)

theorem reads_readSequenceCounter (counter : BitVec 7) (identifier : BitVec 1)
    (stuff : BitVec 6) :
    readSequenceCounter.Reads [.ofNat (0x80 ||| counter.toNat),
      .ofNat (0x80 ||| identifier.toNat <<< 6 ||| stuff.toNat)] (counter, identifier, stuff) := by
  have hcounter : ∀ counter : BitVec 7,
      BitVec.ofNat 7 ((UInt8.ofNat (0x80 ||| counter.toNat)).toNat &&& 0x7f) = counter := by decide
  have hrest : ∀ (identifier : BitVec 1) (stuff : BitVec 6),
      let b := (UInt8.ofNat (0x80 ||| identifier.toNat <<< 6 ||| stuff.toNat)).toNat
      (BitVec.ofNat 1 ((b &&& 0x40) >>> 6), BitVec.ofNat 6 (b &&& 0x3f)) = (identifier, stuff) := by
    decide
  refine .need (Nat.le_refl 2) (.byte rfl (.byte rfl ?_))
  rw [hcounter, hrest]
  exact reads_skip_pure rfl _

theorem reads_readStdBuffer (scale : BitVec 1) (size : BitVec 13) :
    readStdBuffer.Reads [.ofNat (0x40 ||| scale.toNat <<< 5 ||| (size.toNat &&& 0x1f00) >>> 8),
      .ofNat (size.toNat &&& 0xFF)] (scale, size) := by
  have hhigh : (size.toNat &&& 0x1f00) >>> 8 = bits size.toNat 8 5 :=
    and_mask_shiftRight size.toNat 8 5 8 le_rfl
  have hlow : size.toNat &&& 0xFF = bits size.toNat 0 8 := and_mask size.toNat 8
  have hfields : ∀ (scale : BitVec 1) (d : Fin 32),
      let b := (UInt8.ofNat (0x40 ||| scale.toNat <<< 5 ||| d.val)).toNat
      BitVec.ofNat 1 ((b &&& 0x20) >>> 5) = scale ∧ (b &&& 0x1f) <<< 8 = d.val <<< 8 := by decide
  obtain ⟨hscale, hd⟩ := hfields scale ⟨_, bits_lt size.toNat 8 5⟩
  have hjoin : bits size.toNat 8 5 <<< 8 ||| bits size.toNat 0 8 = bits size.toNat 0 13 := by
    have h := bits_or size.toNat 0 8 5 0
    rwa [Nat.shiftLeft_zero, Nat.shiftLeft_zero] at h
  refine .need (Nat.le_refl 2) (.byte rfl (.byte rfl ?_))
  rw [hhigh, hlow, hscale, hd, toNat_ofNat_bits, hjoin, bitVec_ofNat_bits]
  exact reads_skip_pure rfl _

theorem reads_readFieldLength (length : BitVec 7) :
    readFieldLength.Reads (.ofNat (0x80 ||| length.toNat) :: List.replicate length.toNat 0xFF)
      length := by
  have hfield : ∀ length : BitVec 7,
      BitVec.ofNat 7 ((UInt8.ofNat (0x80 ||| length.toNat)).toNat &&& 0x7f) = length := by decide
  refine .byte rfl ?_
  rw [hfield]
  exact .need (by simp) (reads_skip_pure (by simp) length)

theorem one_bit (flag : BitVec 1) : flag = 0 ∨ flag = 1 := by
  revert flag
  decide

/-- A part that is written if the flag is set is read if it is. -/
theorem reads_flagged {α : Type} {p : Reader α} {bytes : List UInt8} {a absent : α}
    {flag : BitVec 1} (hp : flag = 1 → p.Reads bytes a) (ha : flag = 0 → a = absent) :
    (part (flag = 1) absent p).Reads (partBytes flag bytes) a := by
  rcases one_bit flag with rfl | rfl
  · exact ha rfl ▸ reads_pure a
  · exact hp rfl

/-- The fields of the parts that are absent have not been set. -/
structure PesExtension.Canonical (ext : PesExtension) : Prop where
  pesPrivateData : ext.pesPrivateDataFlag = 0 → ext.pesPrivateData = .replicate 16 0
  headers : ext.packHeaderFieldFlag = 0 → ext.headers = []
  counter : ext.programPackerSequenceCounterFlag = 0 →
    (ext.programPacketSequenceCounter, ext.mpeg1Mpeg2Indentifier, ext.originalStuffLength) =
      (0, 0, 0)
  stdBuffer : ext.pStdBufferFlag = 0 → (ext.pStdBufferScale, ext.pStdBufferSize) = (0, 0)
  fieldLength : ext.pesExtensionFlag2 = 0 → ext.pesExtensionFieldLength = 0

theorem PesExtension.reads_serialize {ext : PesExtension} (h : ext.Canonical)
    (hheaders : ext.headers.length ≤ 255) : PesExtension.read.Reads ext.serialize ext := by
  obtain ⟨privateFlag, packFlag, counterFlag, bufferFlag, flag2, data, headers, counter, identifier,
    stuff, scale, size, length⟩ := ext
  obtain ⟨hdata, hhead, hcounter, hbuffer, hlength⟩ := h
  have hflags : ∀ privateFlag packFlag counterFlag bufferFlag flag2 : BitVec 1,
      let b := (UInt8.ofNat (privateFlag.toNat <<< 7 ||| packFlag.toNat <<< 6 |||
        counterFlag.toNat <<< 5 ||| bufferFlag.toNat <<< 4 ||| 0x0e ||| flag2.toNat)).toNat
      BitVec.ofNat 1 ((b &&& 0x80) >>> 7) = privateFlag ∧
        BitVec.ofNat 1 ((b &&& 0x40) >>> 6) = packFlag ∧
        BitVec.ofNat 1 ((b &&& 0x20) >>> 5) = counterFlag ∧
        BitVec.ofNat 1 ((b &&& 0x10) >>> 4) = bufferFlag ∧ BitVec.ofNat 1 (b &&& 0x1) = flag2 := by
    decide
  obtain ⟨h₁, h₂, h₃, h₄, h₅⟩ := hflags privateFlag packFlag counterFlag bufferFlag flag2
  simp only [serialize, List.append_assoc]
  refine .need (by simp) ((reads_next _).bind ?_)
  simp only [h₁, h₂, h₃, h₄, h₅]
  refine (reads_flagged (fun _ => reads_readPrivateData data) hdata).bind ?_
  refine (reads_flagged (fun _ => reads_readHeaders hheaders) hhead).bind ?_
  refine (reads_flagged
    (fun _ => reads_readSequenceCounter counter identifier stuff) hcounter).bind ?_
  refine (reads_flagged (fun _ => reads_readStdBuffer scale size) hbuffer).bind ?_
  have hlast := (reads_flagged (fun _ => reads_readFieldLength length) hlength).bind
    (f := fun l => pure (PesExtension.mk privateFlag packFlag counterFlag bufferFlag flag2 data
      headers counter identifier stuff scale size l)) (reads_pure _)
  rwa [List.append_nil] at hlast

/-! ### The packet -/

def PesExtension.optionalLength (ext : PesExtension) : ℕ :=
  1 + partLength ext.pesPrivateDataFlag 16 +
    partLength ext.packHeaderFieldFlag (1 + ext.headers.length) +
    partLength ext.programPackerSequenceCounterFlag 2 + partLength ext.pStdBufferFlag 2 +
    partLength ext.pesExtensionFlag2 (1 + ext.pesExtensionFieldLength.toNat)

theorem PesExtension.length_serialize (ext : PesExtension) :
    ext.serialize.length = ext.optionalLength := by
  simp only [serialize, optionalLength, List.length_append, List.length_cons, List.length_nil,
    length_partBytes, Vector.length_toList, List.length_replicate, Nat.add_comm, Nat.zero_add]

namespace Pes2

/-- The length of the parts of the header that flags announce. -/
def optionalLength (pes : Pes2) : ℕ :=
  pes.plainLength + partLength pes.pesExtensionFlag pes.extension.optionalLength

theorem length_optionalBytes (pes : Pes2) : pes.optionalBytes.length = pes.optionalLength := by
  have htimes : pes.timesBytes.length =
      if pes.ptsDtsFlags = 2 then 5 else if pes.ptsDtsFlags = 3 then 10 else 0 := by
    rw [timesBytes]
    split_ifs <;> rfl
  simp only [optionalBytes, optionalLength, plainLength, List.length_append, htimes,
    length_partBytes, PesExtension.length_serialize]
  rfl

/-- The fields of the parts that are absent have not been set, and the header data fits a
length of one byte. -/
structure Canonical (pes : Pes2) : Prop where
  pts : pes.ptsDtsFlags ≠ 2 → pes.ptsDtsFlags ≠ 3 → pes.pts = 0
  dts : pes.ptsDtsFlags ≠ 3 → pes.dts = 0
  escr : pes.escrFlag = 0 → (pes.escrBase, pes.escrExtension) = (0, 0)
  esRate : pes.esRateFlag = 0 → pes.esRate = 0
  trickMode : pes.dsmTrickModeFlag = 0 → (pes.trickModeControl, pes.trickModeVal) = (0, 0)
  copyInfo : pes.additionalCopyInfoFlag = 0 → pes.additionalCopyInfo = 0
  crc : pes.pesCrcFlag = 0 → pes.previousPesPacketCrc = 0
  extension : pes.pesExtensionFlag = 0 → pes.extension = {}
  extensionParts : pes.extension.Canonical
  headerLength : pes.optionalLength + pes.stuffingLength.toNat ≤ 255

theorem Canonical.headers {pes : Pes2} (h : pes.Canonical) :
    pes.extension.headers.length ≤ 255 := by
  rcases one_bit pes.pesExtensionFlag with hflag | hflag
  · rw [h.extension hflag]
    exact Nat.zero_le _
  rcases one_bit pes.extension.packHeaderFieldFlag with hpack | hpack
  · rw [h.extensionParts.headers hpack]
    exact Nat.zero_le _
  · have hlength := h.headerLength
    simp only [optionalLength, PesExtension.optionalLength, partLength, hflag, hpack,
      if_true] at hlength
    omega

theorem reads_readStamps {pes : Pes2} (h : pes.Canonical) :
    (readStamps pes.ptsDtsFlags).Reads pes.timesBytes (pes.pts, pes.dts) := by
  rw [readStamps, timesBytes]
  by_cases h₂ : pes.ptsDtsFlags = 2
  · have hdts : pes.dts = 0 := h.dts (by rw [h₂]; decide)
    rw [if_pos h₂, if_pos h₂, hdts]
    have hpts := (reads_readClock (.inl rfl) pes.pts).bind
      (f := fun pts => pure (pts, (0 : BitVec 33))) (reads_pure _)
    rw [List.append_nil] at hpts
    exact .need (Nat.le_refl 5) hpts
  rw [if_neg h₂, if_neg h₂]
  by_cases h₃ : pes.ptsDtsFlags = 3
  · rw [if_pos h₃, if_pos h₃]
    have hdts := (reads_readClock (.inr (.inr rfl)) pes.dts).bind
      (f := fun dts => pure (pes.pts, dts)) (reads_pure _)
    rw [List.append_nil] at hdts
    exact .need (Nat.le_refl 10) ((reads_readClock (.inr (.inl rfl)) pes.pts).bind hdts)
  · rw [if_neg h₃, if_neg h₃, h.pts h₂ h₃, h.dts h₃]
    exact reads_pure _

/-- The fields of the first two bytes alone. -/
def head (pes : Pes2) : Pes2 where
  pesScramblingControl := pes.pesScramblingControl
  pesPriority := pes.pesPriority
  dataAlignmentIndicator := pes.dataAlignmentIndicator
  copyright := pes.copyright
  originalOrCopy := pes.originalOrCopy
  ptsDtsFlags := pes.ptsDtsFlags
  escrFlag := pes.escrFlag
  esRateFlag := pes.esRateFlag
  dsmTrickModeFlag := pes.dsmTrickModeFlag
  additionalCopyInfoFlag := pes.additionalCopyInfoFlag
  pesCrcFlag := pes.pesCrcFlag
  pesExtensionFlag := pes.pesExtensionFlag

/-- The packet that is read where this one was written. -/
def readBack (pes : Pes2) : Pes2 := { pes with esRate := rateBack pes.esRate }

/-- The first two bytes carry the flags. -/
theorem ofBytes_serialize (pes : Pes2) : ∃ v flags, pes.serialize1 =
    [v, flags, .ofNat (pes.optionalBytes.length + pes.stuffingLength.toNat)] ++
      (pes.optionalBytes ++
        (List.replicate pes.stuffingLength.toNat 0xFF ++ pes.pesPacketDataByte)) ∧
    ofBytes v flags = pes.head := by
  refine ⟨_, _, by rw [serialize1, List.append_assoc, List.append_assoc], ?_⟩
  have hfirst : ∀ (scrambling : BitVec 2) (priority alignment copyright original : BitVec 1),
      let v := (UInt8.ofNat (0xc0 ||| scrambling.toNat <<< 4 ||| priority.toNat <<< 3 |||
        alignment.toNat <<< 2 ||| copyright.toNat <<< 1 ||| original.toNat)).toNat
      BitVec.ofNat 2 ((v &&& 0x30) >>> 4) = scrambling ∧
        BitVec.ofNat 1 ((v &&& 0x08) >>> 3) = priority ∧
        BitVec.ofNat 1 ((v &&& 0x04) >>> 2) = alignment ∧
        BitVec.ofNat 1 ((v &&& 0x02) >>> 1) = copyright ∧
        BitVec.ofNat 1 (v &&& 0x01) = original := by decide +kernel
  have hsecond : ∀ (stamps : BitVec 2) (escr rate trick info crc extension : BitVec 1),
      let v := (UInt8.ofNat (stamps.toNat <<< 6 ||| escr.toNat <<< 5 ||| rate.toNat <<< 4 |||
        trick.toNat <<< 3 ||| info.toNat <<< 2 ||| crc.toNat <<< 1 ||| extension.toNat)).toNat
      BitVec.ofNat 2 ((v &&& 0xc0) >>> 6) = stamps ∧
        BitVec.ofNat 1 ((v &&& 0x20) >>> 5) = escr ∧
        BitVec.ofNat 1 ((v &&& 0x10) >>> 4) = rate ∧
        BitVec.ofNat 1 ((v &&& 0x8) >>> 3) = trick ∧
        BitVec.ofNat 1 ((v &&& 0x4) >>> 2) = info ∧
        BitVec.ofNat 1 ((v &&& 0x2) >>> 1) = crc ∧
        BitVec.ofNat 1 (v &&& 0x01) = extension := by decide +kernel
  obtain ⟨h₁, h₂, h₃, h₄, h₅⟩ := hfirst pes.pesScramblingControl pes.pesPriority
    pes.dataAlignmentIndicator pes.copyright pes.originalOrCopy
  obtain ⟨g₁, g₂, g₃, g₄, g₅, g₆, g₇⟩ := hsecond pes.ptsDtsFlags pes.escrFlag pes.esRateFlag
    pes.dsmTrickModeFlag pes.additionalCopyInfoFlag pes.pesCrcFlag pes.pesExtensionFlag
  simp only [ofBytes, head, h₁, h₂, h₃, h₄, h₅, g₁, g₂, g₃, g₄, g₅, g₆, g₇]

theorem reads_readParts {pes : Pes2} (h : pes.Canonical) {v flags : UInt8}
    (hof : ofBytes v flags = pes.head) :
    (readParts (ofBytes v flags)).Reads pes.optionalBytes
      { pes.readBack with stuffingLength := 0, pesPacketDataByte := [] } := by
  have hrate : pes.esRateFlag = 0 → rateBack pes.esRate = 0 := fun hflag => by
    rw [h.esRate hflag]
    decide
  rw [hof, optionalBytes, readParts]
  simp only [List.append_assoc]
  refine (reads_readStamps h).bind ?_
  refine (reads_flagged (fun _ => reads_readEscr pes.escrBase pes.escrExtension) h.escr).bind ?_
  refine (reads_flagged (fun _ => reads_readRate pes.esRate) hrate).bind ?_
  refine (reads_flagged
    (fun _ => reads_readTrickMode pes.trickModeControl pes.trickModeVal) h.trickMode).bind ?_
  refine (reads_flagged (fun _ => reads_readCopyInfo pes.additionalCopyInfo) h.copyInfo).bind ?_
  refine (reads_flagged (fun _ => reads_readCrc pes.previousPesPacketCrc) h.crc).bind ?_
  have hlast := (reads_flagged
    (fun _ => PesExtension.reads_serialize h.extensionParts h.headers) h.extension).bind
    (f := fun e => pure { pes.readBack with
      extension := e, stuffingLength := 0, pesPacketDataByte := [] }) (reads_pure _)
  rwa [List.append_nil] at hlast

theorem toInt_of_lt {n : ℕ} (h : n < 2 ^ 31) : toInt n = n := by
  have hnat : (BitVec.ofNat 32 n).toNat = n :=
    BitVec.toNat_ofNat n 32 ▸ Nat.mod_eq_of_lt (by omega)
  rw [toInt, BitVec.toInt_eq_toNat_of_lt (by omega), hnat]

theorem toInt_lt {n : ℕ} (h : 2 ^ 31 ≤ n) : toInt n < n := by
  have hlt : (BitVec.ofNat 32 n).toInt < 2 ^ 31 := BitVec.toInt_lt
  rw [toInt]
  omega

theorem value_readPayload {buffer : List UInt8} {pos stuffing : ℕ} (pes : Pes2)
    (hbyte : stuffing < 256) (hfits : pos + stuffing ≤ buffer.length) :
    (readPayload pes stuffing).value buffer pos =
      if toInt buffer.length - (pos + stuffing : ℕ) < 0 then none
      else some ({ pes with
          stuffingLength := .ofNat stuffing
          pesPacketDataByte := (buffer.drop (pos + stuffing)).take
            (toInt buffer.length - (pos + stuffing : ℕ)).toNat },
        pos + stuffing + (toInt buffer.length - (pos + stuffing : ℕ)).toNat) := by
  have hnat : (((stuffing : ℕ) : ℤ) % 256).toNat = stuffing := by omega
  have hlength : (UInt8.ofNat stuffing).toNat = stuffing := UInt8.toNat_ofNat_of_lt' hbyte
  rw [readPayload, value_bind, value_note, Option.bind_some, hnat]
  simp only [value_bind, value_need, hlength]
  rw [if_neg (by omega)]
  simp only [Option.bind_some, value_skip, value_position, value_size, value_note]
  split_ifs
  · rfl
  · rw [value_bind, value_take, Option.bind_some, value_pure]

/-- The header that is written is passed; what comes back of the payload depends on the
size that an `int` is made of. -/
theorem read_serialize {pes : Pes2} (h : pes.Canonical) {pos : ℕ} {dataSize : ℤ}
    (hpos : pos = 3 + pes.optionalLength + pes.stuffingLength.toNat)
    (hdata : dataSize = toInt (pos + pes.pesPacketDataByte.length) - pos) :
    read.value pes.serialize1 0 =
      if dataSize < 0 then none
      else some ({ pes.readBack with
          pesPacketDataByte := pes.pesPacketDataByte.take dataSize.toNat },
        pos + dataSize.toNat) := by
  obtain ⟨v, flags, hbytes, hof⟩ := ofBytes_serialize pes
  have hheader := h.headerLength
  rw [← length_optionalBytes] at hpos hheader
  have hcount : (UInt8.ofNat (pes.optionalBytes.length + pes.stuffingLength.toNat)).toNat =
      pes.optionalBytes.length + pes.stuffingLength.toNat :=
    UInt8.toNat_ofNat_of_lt' (lt_of_le_of_lt hheader (by decide))
  have hsize : pes.serialize1.length = pos + pes.pesPacketDataByte.length := by
    rw [hbytes]
    simp only [List.length_append, List.length_replicate, List.length_cons, List.length_nil]
    omega
  have hparts : (ofBytes v flags).readParts.value pes.serialize1 3 =
      some ({ pes.readBack with stuffingLength := 0, pesPacketDataByte := [] },
        3 + pes.optionalBytes.length) := by
    have hreads := reads_readParts h hof
      [v, flags, .ofNat (pes.optionalBytes.length + pes.stuffingLength.toNat)]
      (List.replicate pes.stuffingLength.toNat 0xFF ++ pes.pesPacketDataByte)
    rwa [List.append_assoc, ← hbytes] at hreads
  have hstuffing : ((pes.optionalBytes.length + pes.stuffingLength.toNat : ℕ) : ℤ) -
      (((3 + pes.optionalBytes.length : ℕ) : ℤ) - (3 : ℕ)) = (pes.stuffingLength.toNat : ℕ) := by
    omega
  have hget : pes.serialize1.getD 0 0 = v ∧ pes.serialize1.getD 1 0 = flags ∧
      pes.serialize1.getD 2 0 =
        .ofNat (pes.optionalBytes.length + pes.stuffingLength.toNat) := by
    rw [hbytes]
    exact ⟨rfl, rfl, rfl⟩
  have hdrop : pes.serialize1.drop pos = pes.pesPacketDataByte := by
    rw [hbytes, ← List.append_assoc, ← List.append_assoc]
    refine List.drop_left' ?_
    simp only [List.length_append, List.length_replicate, List.length_cons, List.length_nil]
    omega
  rw [read, value_bind, value_need, if_neg (by omega), Option.bind_some]
  simp only [value_bind, value_next, value_need, value_position, Option.bind_some, Nat.zero_add,
    Nat.reduceAdd, hget, hcount]
  rw [if_neg (by omega), Option.bind_some, hparts, Option.bind_some, hstuffing,
    value_readPayload _ pes.stuffingLength.toNat_lt (by omega), ← hpos, hsize, ← hdata, hdrop,
    UInt8.ofNat_toNat]
  rfl

/-- A packet with the optional header comes back if and only if its rate, if it has one,
is below 2^15 and an `int` holds its size. -/
theorem packet_roundTrips_iff {streamId : UInt8} (hid : hasHeader streamId = true) {pes : Pes2}
    (h : pes.Canonical) : deserialize streamId (serialize streamId pes) = some pes ↔
      (pes.esRateFlag = 1 → pes.esRate.toNat < 2 ^ 15) ∧
        3 + pes.optionalLength + pes.stuffingLength.toNat + pes.pesPacketDataByte.length <
          2 ^ 31 := by
  obtain ⟨pos, hpos⟩ : ∃ pos, pos = 3 + pes.optionalLength + pes.stuffingLength.toNat := ⟨_, rfl⟩
  obtain ⟨dataSize, hdata⟩ :
      ∃ n : ℤ, n = toInt (pos + pes.pesPacketDataByte.length) - pos := ⟨_, rfl⟩
  have hrate : rateBack pes.esRate = pes.esRate ↔
      (pes.esRateFlag = 1 → pes.esRate.toNat < 2 ^ 15) := by
    rw [rateBack_eq_iff]
    rcases one_bit pes.esRateFlag with hflag | hflag
    · have hsmall : pes.esRate.toNat < 2 ^ 15 := by
        rw [h.esRate hflag]
        decide
      exact ⟨fun _ _ => hsmall, fun _ => hsmall⟩
    · exact ⟨fun hlt _ => hlt, fun hlt => hlt hflag⟩
  rw [deserialize, serialize, reader, if_pos hid, if_pos hid, read_serialize h hpos hdata, ← hpos,
    ← hrate]
  constructor
  · intro heq
    split_ifs at heq
    · cases heq
    · have hpes := Option.some.inj heq
      have hpayload : pes.pesPacketDataByte.take dataSize.toNat = pes.pesPacketDataByte :=
        congrArg pesPacketDataByte hpes
      have hlength := congrArg List.length hpayload
      rw [List.length_take] at hlength
      refine ⟨congrArg esRate hpes, ?_⟩
      by_contra hlarge
      have hlt := toInt_lt (Nat.not_lt.mp hlarge)
      omega
  · rintro ⟨hsame, hsmall⟩
    rw [toInt_of_lt hsmall] at hdata
    have hpayload : pes.pesPacketDataByte.take dataSize.toNat = pes.pesPacketDataByte :=
      List.take_of_length_le (by omega)
    rw [if_neg (by omega), hpayload, readBack, hsame]
    rfl

/-- A packet of a rate that does not fit in 15 bits, and nothing else. -/
private def fastPacket : Pes2 := { esRateFlag := 1, esRate := 0x8000 }

private theorem fastPacket_canonical : fastPacket.Canonical where
  pts _ _ := rfl
  dts _ := rfl
  escr _ := rfl
  esRate h := by cases h
  trickMode _ := rfl
  copyInfo _ := rfl
  crc _ := rfl
  extension _ := rfl
  extensionParts := ⟨fun _ => rfl, fun _ => rfl, fun _ => rfl, fun _ => rfl, fun _ => rfl⟩
  headerLength := by decide

/-- The rate of 2^15 is read as half of it. -/
theorem fast_packet_altered : hasHeader 0xE0 = true ∧ fastPacket.Canonical ∧
    deserialize 0xE0 (serialize 0xE0 fastPacket) = some { fastPacket with esRate := 0x4000 } ∧
    deserialize 0xE0 (serialize 0xE0 fastPacket) ≠ some fastPacket :=
  ⟨by decide, fastPacket_canonical, by decide +kernel, by decide +kernel⟩

/-- A packet with all its parts. -/
private def fullPacket : Pes2 where
  ptsDtsFlags := 3
  escrFlag := 1
  esRateFlag := 1
  dsmTrickModeFlag := 1
  additionalCopyInfoFlag := 1
  pesCrcFlag := 1
  pesExtensionFlag := 1
  pts := 0x1FFFFFFFF
  dts := 0x123456789
  escrBase := 0x1FEDCBA98
  escrExtension := 299
  esRate := 0x7FFF
  trickModeControl := 5
  trickModeVal := 17
  additionalCopyInfo := 0x55
  previousPesPacketCrc := 0xBEEF
  extension :=
    { pesPrivateDataFlag := 1
      packHeaderFieldFlag := 1
      programPackerSequenceCounterFlag := 1
      pStdBufferFlag := 1
      pesExtensionFlag2 := 1
      pesPrivateData := .replicate 16 0xA5
      headers := [1, 2, 3]
      programPacketSequenceCounter := 0x7F
      mpeg1Mpeg2Indentifier := 1
      originalStuffLength := 0x2A
      pStdBufferScale := 1
      pStdBufferSize := 0x1234
      pesExtensionFieldLength := 2 }
  stuffingLength := 4
  pesPacketDataByte := [0, 0, 1, 0x65]

private theorem fullPacket_canonical : fullPacket.Canonical where
  pts _ h := absurd rfl h
  dts h := absurd rfl h
  escr h := by cases h
  esRate h := by cases h
  trickMode h := by cases h
  copyInfo h := by cases h
  crc h := by cases h
  extension h := by cases h
  extensionParts := by
    constructor <;>
    · intro h
      cases h
  headerLength := by decide

theorem full_packet_roundTrips :
    deserialize 0xE0 (serialize 0xE0 fullPacket) = some fullPacket :=
  (packet_roundTrips_iff (by decide) fullPacket_canonical).mpr ⟨by decide, by decide⟩

end Pes2

end CxxDeps.Ps
