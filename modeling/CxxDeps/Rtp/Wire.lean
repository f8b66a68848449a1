import CxxDeps.Rtp.Report

/-! RTP packets between bytes and objects: `rtp_header.c` and `rtp_packet.c`. Against them
stands the layout of RFC 3550. The outer `none` of a result stands for an access to memory
that is not there, or for a loop without an end. -/

namespace CxxDeps.Rtp

open Library

/-! ### `rtp_header.c` -/

/-- `rtp_header`; `csrc` and `extData` are `none` where the pointer is null. -/
structure RtpHeader where
  version : UInt8 := 0
  x : Bool := false
  cc : UInt8 := 0
  m : Bool := false
  pt : UInt8 := 0
  seq : UInt16 := 0
  ts : UInt32 := 0
  ssrc : UInt32 := 0
  csrc : Option (List UInt32) := none
  extId : UInt16 := 0
  extCount : UInt16 := 0
  extData : Option (List UInt32) := none
  deriving DecidableEq, Repr

namespace RtpHeader

/-- `rtp_header_init`. -/
def init (header : RtpHeader) (pt : UInt8) (ssrc : UInt32) (seq : UInt16) (ts : UInt32) :
    RtpHeader :=
  { header with version := 2, pt := pt &&& 0x7f, ssrc, seq, ts }

def hasCsrc (header : RtpHeader) : Bool := header.csrc.isSome && header.cc != 0

def hasExt (header : RtpHeader) : Bool :=
  header.x && header.extCount != 0 && header.extData.isSome

/-- `rtp_header_size`. -/
def size (header : RtpHeader) : ℕ :=
  12 + (if header.hasCsrc then 4 * header.cc.toNat else 0) +
    if header.hasExt then 4 * (1 + header.extCount.toNat) else 0

/-- The first `n` words of an array. -/
def firstWords (array : Option (List UInt32)) (n : ℕ) : Option (List UInt8) :=
  let words := array.getD []
  if n ≤ words.length then some ((words.take n).flatMap toBe32) else none

/-- The first byte; of the count only three bits are written. -/
def firstByte (header : RtpHeader) : UInt8 :=
  0x80 ||| (if header.hasCsrc then header.cc &&& 0x7 else 0) |||
    if header.hasExt then 0x10 else 0

def secondByte (header : RtpHeader) : UInt8 :=
  (if header.m then 0x80 else 0) ||| (header.pt &&& 0x7f)

def csrcBytes (header : RtpHeader) : Option (List UInt8) :=
  if header.hasCsrc then firstWords header.csrc header.cc.toNat else some []

/-- The extension. Its words are counted in a `uint8_t`, which is always less than 256; and
they go behind as many words as `cc` says, be there an array or not. -/
def extBytes (header : RtpHeader) : Option (List UInt8) :=
  if header.hasExt then
    if 255 < header.extCount.toNat ∨ (header.csrc = none ∧ header.cc ≠ 0) then none
    else (firstWords header.extData header.extCount.toNat).map
      (toBe16 header.extId ++ toBe16 header.extCount ++ ·)
  else some []

/-- `rtp_header_serialize`. -/
def serialize (header : RtpHeader) (size : ℕ) : Option (Option (List UInt8)) :=
  if size < header.size then some none
  else do
    let csrc ← header.csrcBytes
    let ext ← header.extBytes
    return some (header.firstByte :: header.secondByte :: toBe16 header.seq ++
      toBe32 header.ts ++ toBe32 header.ssrc ++ csrc ++ ext)

/-- `n` words of the buffer, one after the other. -/
def readWords (buffer : List UInt8) : ℕ → ℕ → Option (List UInt32)
  | _, 0 => some []
  | pos, n + 1 => do
    let word ← readU32 buffer pos
    let words ← readWords buffer (pos + 4) n
    return word :: words

def readU16 (buffer : List UInt8) (pos : ℕ) : Option UInt16 :=
  if pos + 2 ≤ buffer.length then some (be16 (buffer.getD pos 0) (buffer.getD (pos + 1) 0))
  else none

def parseCsrc (header : RtpHeader) (buffer : List UInt8) : Option RtpHeader :=
  if header.cc = 0 then some header
  else do
    let csrc ← readWords buffer 12 header.cc.toNat
    return { header with csrc := some csrc }

def parseExt (header : RtpHeader) (buffer : List UInt8) : Option RtpHeader :=
  if header.x then do
    let pos := 12 + 4 * header.cc.toNat
    let extId ← readU16 buffer pos
    let extCount ← readU16 buffer (pos + 2)
    let extData ← readWords buffer (pos + 4) extCount.toNat
    return { header with extId, extCount, extData := some extData }
  else some header

/-- The words that do not vary in place. -/
def parseFixed (header : RtpHeader) (buffer : List UInt8) : RtpHeader :=
  { header with
    version := buffer.getD 0 0 >>> 6
    pt := buffer.getD 1 0 &&& 0x7f
    x := buffer.getD 0 0 &&& 0x10 ≠ 0
    cc := buffer.getD 0 0 &&& 0x7
    m := buffer.getD 1 0 &&& 0x80 ≠ 0
    seq := be16 (buffer.getD 2 0) (buffer.getD 3 0)
    ts := u32At buffer 4
    ssrc := u32At buffer 8 }

/-- `rtp_header_parse`. The size is checked against an array and an extension that the header
had before. -/
def parse (header : RtpHeader) (buffer : List UInt8) : Option (Option RtpHeader) :=
  if buffer.length < 12 then some none
  else
    let header := header.parseFixed buffer
    if header.version ≠ 2 then some none
    else if header.pt < 96 ∧ 71 < header.pt then some none
    else if buffer.length < header.size then some none
    else do
      let header ← header.parseCsrc buffer
      let header ← header.parseExt buffer
      return some header

end RtpHeader

/-! ### `rtp_packet.c` -/

/-- `rtp_packet`; the payload is `none` where the pointer is null, and `payload_size` is its
length. -/
structure RtpPacket where
  header : RtpHeader := {}
  payload : Option (List UInt8) := none
  deriving DecidableEq, Repr

namespace RtpPacket

def payloadSize (packet : RtpPacket) : ℕ := (packet.payload.getD []).length

/-- `rtp_packet_size`. -/
def size (packet : RtpPacket) : ℕ := packet.header.size + packet.payloadSize

/-- `rtp_packet_set_payload`, where there is memory. -/
def setPayload (packet : RtpPacket) (data : List UInt8) : RtpPacket :=
  if packet.payload.isSome then packet else { packet with payload := some data }

/-- `packet::serialize`: `rtp_packet_serialize` into as many bytes as it takes. -/
def serialize (packet : RtpPacket) : Option (Option (List UInt8)) := do
  match ← packet.header.serialize packet.size with
  | none => return none
  | some header => return some (header ++ packet.payload.getD [])

/-- `rtp_packet_parse`, and `packet::parse` of a new packet. -/
def parse (buffer : List UInt8) : Option (Option RtpPacket) := do
  match ← RtpHeader.parse {} buffer with
  | none => return none
  | some header => return some (setPayload { header } (buffer.drop header.size))

end RtpPacket

/-! ### The layout of RFC 3550 -/

/-- What a packet says. -/
structure RtpView where
  m : Bool
  pt : UInt8
  seq : UInt16
  ts : UInt32
  ssrc : UInt32
  csrcs : List UInt32
  ext : Option (UInt16 × List UInt32)
  payload : List UInt8
  deriving DecidableEq, Repr

def RtpPacket.view (packet : RtpPacket) : RtpView where
  m := packet.header.m
  pt := packet.header.pt
  seq := packet.header.seq
  ts := packet.header.ts
  ssrc := packet.header.ssrc
  csrcs := packet.header.csrc.getD []
  ext := if packet.header.x then some (packet.header.extId, packet.header.extData.getD []) else none
  payload := packet.payload.getD []

/-- The words from a position on. -/
def wordsAt (buffer : List UInt8) : ℕ → ℕ → List UInt32
  | _, 0 => []
  | pos, n + 1 => u32At buffer pos :: wordsAt buffer (pos + 4) n

/-- The fields of a packet in a buffer, where RFC 3550 has them. The count of sources has four
bits; `bits` is how many of them are looked at. -/
structure Layout where
  buffer : List UInt8
  bits : ℕ := 4

namespace Layout

variable (l : Layout)

def version : ℕ := (l.buffer.getD 0 0).toNat / 64

def padding : Bool := (l.buffer.getD 0 0).toNat / 32 % 2 = 1

def extension : Bool := (l.buffer.getD 0 0).toNat / 16 % 2 = 1

def count : ℕ := (l.buffer.getD 0 0).toNat % 2 ^ l.bits

def marker : Bool := 128 ≤ (l.buffer.getD 1 0).toNat

def payloadType : UInt8 := UInt8.ofNat ((l.buffer.getD 1 0).toNat % 128)

/-- Where the extension begins, or the payload. -/
def extPos : ℕ := 12 + 4 * l.count

def extId : UInt16 := be16 (l.buffer.getD l.extPos 0) (l.buffer.getD (l.extPos + 1) 0)

def extCount : UInt16 := be16 (l.buffer.getD (l.extPos + 2) 0) (l.buffer.getD (l.extPos + 3) 0)

def payloadPos : ℕ := l.extPos + if l.extension then 4 + 4 * l.extCount.toNat else 0

/-- The last byte counts the padding, itself included. -/
def padded : ℕ := if l.padding then (l.buffer.getLastD 0).toNat else 0

/-- All parts are in the buffer, and padding that is announced is there. -/
structure Valid : Prop where
  version_eq : l.version = 2
  fits : l.payloadPos + l.padded ≤ l.buffer.length
  padded_pos : l.padding = true → 0 < l.padded

def view : RtpView where
  m := l.marker
  pt := l.payloadType
  seq := be16 (l.buffer.getD 2 0) (l.buffer.getD 3 0)
  ts := u32At l.buffer 4
  ssrc := u32At l.buffer 8
  csrcs := wordsAt l.buffer 12 l.count
  ext :=
    if l.extension then some (l.extId, wordsAt l.buffer (l.extPos + 4) l.extCount.toNat)
    else none
  payload := (l.buffer.drop l.payloadPos).take (l.buffer.length - l.payloadPos - l.padded)

end Layout

/-! ### Words in a buffer -/

@[simp] theorem length_wordsAt (buffer : List UInt8) (pos n : ℕ) :
    (wordsAt buffer pos n).length = n := by
  induction n generalizing pos with
  | zero => rfl
  | succ n ih => rw [wordsAt, List.length_cons, ih]

theorem readWords_of_le {buffer : List UInt8} {pos n : ℕ} (h : pos + 4 * n ≤ buffer.length) :
    RtpHeader.readWords buffer pos n = some (wordsAt buffer pos n) := by
  induction n generalizing pos with
  | zero => rfl
  | succ n ih =>
    have hrest := @ih (pos + 4) (by omega)
    rw [RtpHeader.readWords, readU32, if_pos (by omega), hrest]
    rfl

theorem readWords_of_lt {buffer : List UInt8} {pos n : ℕ} (hn : n ≠ 0)
    (h : buffer.length < pos + 4 * n) : RtpHeader.readWords buffer pos n = none := by
  induction n generalizing pos with
  | zero => exact absurd rfl hn
  | succ n ih =>
    rw [RtpHeader.readWords]
    by_cases hword : pos + 4 ≤ buffer.length
    · have hrest := @ih (pos + 4) (by omega) (by omega)
      rw [hrest]
      cases readU32 buffer pos <;> rfl
    · rw [readU32, if_neg hword]
      rfl

theorem getD_append_right' (before after : List UInt8) (i : ℕ) :
    (before ++ after).getD (before.length + i) 0 = after.getD i 0 := by
  simp [List.getD_eq_getElem?_getD, List.getElem?_append_right]

/-- The words that were written are read, wherever they stand. -/
theorem wordsAt_flatMap (before after : List UInt8) (ws : List UInt32) :
    wordsAt (before ++ (ws.flatMap toBe32 ++ after)) before.length ws.length = ws := by
  induction ws generalizing before with
  | nil => rfl
  | cons w ws ih =>
    have hrest := ih (before ++ toBe32 w)
    have hassoc : before ++ ((w :: ws).flatMap toBe32 ++ after) =
        (before ++ toBe32 w) ++ (ws.flatMap toBe32 ++ after) := by simp
    have hword : u32At (before ++ ((w :: ws).flatMap toBe32 ++ after)) before.length = w := by
      have h₀ := getD_append_right' before ((w :: ws).flatMap toBe32 ++ after) 0
      rw [Nat.add_zero] at h₀
      rw [u32At, h₀, getD_append_right', getD_append_right', getD_append_right']
      exact be32_toBe32 w
    rw [List.length_cons, wordsAt, hword]
    rw [hassoc]
    rw [List.length_append, length_toBe32] at hrest
    rw [hrest]

theorem length_flatMap_toBe32 (ws : List UInt32) : (ws.flatMap toBe32).length = 4 * ws.length := by
  induction ws with
  | nil => rfl
  | cons w ws ih =>
    rw [List.flatMap_cons, List.length_append, ih, length_toBe32, List.length_cons]
    omega

/-! ### What the parser makes of a layout -/

/-- The layout that `rtp_header_parse` goes by: it looks at three bits of the count. -/
def Layout.seen (buffer : List UInt8) : Layout := ⟨buffer, 3⟩

namespace Layout

variable (l : Layout)

@[simp] theorem buffer_seen (buffer : List UInt8) : (seen buffer).buffer = buffer := rfl

/-- The header that is read. -/
def header : RtpHeader where
  version := 2
  x := l.extension
  cc := UInt8.ofNat l.count
  m := l.marker
  pt := l.payloadType
  seq := be16 (l.buffer.getD 2 0) (l.buffer.getD 3 0)
  ts := u32At l.buffer 4
  ssrc := u32At l.buffer 8
  csrc := if l.count = 0 then none else some (wordsAt l.buffer 12 l.count)
  extId := if l.extension then l.extId else 0
  extCount := if l.extension then l.extCount else 0
  extData := if l.extension then some (wordsAt l.buffer (l.extPos + 4) l.extCount.toNat) else none

/-- The version is 2, and the payload type is none that RTCP would be taken for. -/
structure Accepted : Prop where
  length_ge : 12 ≤ l.buffer.length
  version_eq : l.version = 2
  payloadType_ok : ¬ (l.payloadType < 96 ∧ 71 < l.payloadType)

end Layout

section Bytes

theorem version_byte (b : UInt8) : b >>> 6 = 2 ↔ b.toNat / 64 = 2 := by
  revert b
  exact forall_uint8 (by decide +kernel)

theorem extension_byte (b : UInt8) : b &&& 0x10 ≠ 0 ↔ b.toNat / 16 % 2 = 1 := by
  revert b
  exact forall_uint8 (by decide +kernel)

theorem count_byte (b : UInt8) : b &&& 0x7 = UInt8.ofNat (b.toNat % 8) := by
  revert b
  exact forall_uint8 (by decide +kernel)

theorem marker_byte (b : UInt8) : b &&& 0x80 ≠ 0 ↔ 128 ≤ b.toNat := by
  revert b
  exact forall_uint8 (by decide +kernel)

theorem payloadType_byte (b : UInt8) : b &&& 0x7f = UInt8.ofNat (b.toNat % 128) := by
  revert b
  exact forall_uint8 (by decide +kernel)

end Bytes

theorem Layout.count_seen_lt (buffer : List UInt8) : (Layout.seen buffer).count < 8 :=
  Nat.mod_lt _ (Nat.two_pow_pos 3)

theorem Layout.toNat_count_seen (buffer : List UInt8) :
    (UInt8.ofNat (Layout.seen buffer).count).toNat = (Layout.seen buffer).count := by
  have h := Layout.count_seen_lt buffer
  rw [UInt8.toNat_ofNat']
  omega

/-- The fixed words. -/
theorem parseFixed_eq {buffer : List UInt8} (h : (Layout.seen buffer).version = 2) :
    RtpHeader.parseFixed {} buffer =
      { Layout.header (Layout.seen buffer) with
        csrc := none
        extId := 0
        extCount := 0
        extData := none } := by
  have hversion : buffer.getD 0 0 >>> 6 = 2 := (version_byte _).mpr h
  have hx : decide (buffer.getD 0 0 &&& 0x10 ≠ 0) = (Layout.seen buffer).extension :=
    decide_eq_decide.mpr (extension_byte _)
  have hm : decide (buffer.getD 1 0 &&& 0x80 ≠ 0) = (Layout.seen buffer).marker :=
    decide_eq_decide.mpr (marker_byte _)
  have hcc : buffer.getD 0 0 &&& 0x7 = UInt8.ofNat (Layout.seen buffer).count := count_byte _
  have hpt : buffer.getD 1 0 &&& 0x7f = (Layout.seen buffer).payloadType := payloadType_byte _
  rw [RtpHeader.parseFixed, hversion, hx, hm, hcc, hpt]
  rfl

/-- Past the checks. -/
theorem parse_of_accepted {buffer : List UInt8} (h : (Layout.seen buffer).Accepted) :
    RtpHeader.parse {} buffer = do
      let header ← RtpHeader.parseCsrc (RtpHeader.parseFixed {} buffer) buffer
      let header ← header.parseExt buffer
      return some header := by
  have hlen : 12 ≤ buffer.length := h.length_ge
  rw [RtpHeader.parse, if_neg (by omega), parseFixed_eq h.version_eq]
  dsimp only
  rw [if_neg (by simp [Layout.header]), if_neg, if_neg]
  · simp [RtpHeader.size, RtpHeader.hasCsrc, RtpHeader.hasExt]
    omega
  · exact h.payloadType_ok

/-- The sources, if all are in the buffer. -/
theorem parseCsrc_eq {buffer : List UInt8} {header : RtpHeader}
    (hcc : header.cc = UInt8.ofNat (Layout.seen buffer).count) (hcsrc : header.csrc = none)
    (hlen : 12 ≤ buffer.length) :
    header.parseCsrc buffer =
      if (Layout.seen buffer).extPos ≤ buffer.length then
        some { header with
          csrc := if (Layout.seen buffer).count = 0 then none
            else some (wordsAt buffer 12 (Layout.seen buffer).count) }
      else none := by
  have hnat := Layout.toNat_count_seen buffer
  have hzero : header.cc = 0 ↔ (Layout.seen buffer).count = 0 := by
    rw [← UInt8.toNat_inj, hcc, hnat]
    rfl
  rw [RtpHeader.parseCsrc, hcc, hnat, ← hcc]
  by_cases h0 : (Layout.seen buffer).count = 0
  · rw [if_pos (hzero.mpr h0), if_pos (by unfold Layout.extPos; omega), if_pos h0, ← hcsrc]
  · rw [if_neg (fun h => h0 (hzero.mp h)), if_neg h0]
    by_cases hle : (Layout.seen buffer).extPos ≤ buffer.length
    · rw [if_pos hle, readWords_of_le hle]
      rfl
    · rw [if_neg hle, readWords_of_lt h0 (Nat.lt_of_not_le hle)]
      rfl

/-- The extension, if all of it is in the buffer. -/
theorem parseExt_eq {buffer : List UInt8} {header : RtpHeader}
    (hcc : header.cc = UInt8.ofNat (Layout.seen buffer).count)
    (hx : header.x = (Layout.seen buffer).extension)
    (hfits : (Layout.seen buffer).extPos ≤ buffer.length) :
    header.parseExt buffer =
      if (Layout.seen buffer).payloadPos ≤ buffer.length then
        some (if (Layout.seen buffer).extension then
          { header with
            extId := (Layout.seen buffer).extId
            extCount := (Layout.seen buffer).extCount
            extData := some (wordsAt buffer ((Layout.seen buffer).extPos + 4)
              (Layout.seen buffer).extCount.toNat) }
          else header)
      else none := by
  rw [RtpHeader.parseExt, hcc, Layout.toNat_count_seen, hx]
  cases hext : (Layout.seen buffer).extension with
  | false =>
    have hpos : (Layout.seen buffer).payloadPos = (Layout.seen buffer).extPos := by
      rw [Layout.payloadPos, hext]
      rfl
    rw [hpos, if_pos hfits]
    simp
  | true =>
    have hpos : (Layout.seen buffer).payloadPos =
        (Layout.seen buffer).extPos + 4 + 4 * (Layout.seen buffer).extCount.toNat := by
      rw [Layout.payloadPos, hext]
      simp only [if_true]
      omega
    rw [show 12 + 4 * (Layout.seen buffer).count = (Layout.seen buffer).extPos from rfl]
    simp only [if_true]
    by_cases hhead : (Layout.seen buffer).extPos + 4 ≤ buffer.length
    · have hid : RtpHeader.readU16 buffer (Layout.seen buffer).extPos =
          some (Layout.seen buffer).extId := if_pos (by omega)
      have hcount : RtpHeader.readU16 buffer ((Layout.seen buffer).extPos + 2) =
          some (Layout.seen buffer).extCount := if_pos (by omega)
      rw [hid, hcount]
      simp only [Option.bind_eq_bind, Option.bind_some]
      by_cases hle : (Layout.seen buffer).payloadPos ≤ buffer.length
      · have hwords := readWords_of_le (hpos ▸ hle)
        rw [if_pos hle, hwords]
        rfl
      · have hlt := Nat.lt_of_not_le hle
        rw [hpos] at hlt
        have hwords := readWords_of_lt (by omega) hlt
        rw [if_neg hle, hwords]
        rfl
    · rw [if_neg (by omega)]
      by_cases hid : (Layout.seen buffer).extPos + 2 ≤ buffer.length
      · have hcount : RtpHeader.readU16 buffer ((Layout.seen buffer).extPos + 2) = none :=
          if_neg (by omega)
        rw [hcount]
        cases RtpHeader.readU16 buffer (Layout.seen buffer).extPos <;> rfl
      · have hnone : RtpHeader.readU16 buffer (Layout.seen buffer).extPos = none := if_neg hid
        rw [hnone]
        rfl

theorem Layout.extPos_le_payloadPos (l : Layout) : l.extPos ≤ l.payloadPos := Nat.le_add_right _ _

/-- A buffer that is accepted is read as its layout, if that is in the buffer. -/
theorem parse_header_eq {buffer : List UInt8} (h : (Layout.seen buffer).Accepted) :
    RtpHeader.parse {} buffer =
      if (Layout.seen buffer).payloadPos ≤ buffer.length then
        some (some (Layout.seen buffer).header)
      else none := by
  have hlen : 12 ≤ buffer.length := h.length_ge
  have hpos := (Layout.seen buffer).extPos_le_payloadPos
  rw [parse_of_accepted h, parseFixed_eq h.version_eq, parseCsrc_eq rfl rfl hlen]
  by_cases hfits : (Layout.seen buffer).extPos ≤ buffer.length
  · rw [if_pos hfits]
    simp only [Option.bind_eq_bind, Option.bind_some]
    rw [parseExt_eq rfl rfl hfits]
    split
    · cases hext : (Layout.seen buffer).extension <;> simp [Layout.header, hext]
    · rfl
  · rw [if_neg hfits, if_neg (by omega)]
    rfl

/-- What is not accepted is given up before anything but the fixed words is read. -/
theorem parse_of_not_accepted {buffer : List UInt8} (h : ¬ (Layout.seen buffer).Accepted) :
    RtpPacket.parse buffer = some none := by
  have hgiveup : RtpHeader.parse {} buffer = some none := by
    rw [RtpHeader.parse]
    by_cases hlen : buffer.length < 12
    · rw [if_pos hlen]
    · rw [if_neg hlen]
      dsimp only
      by_cases hversion : (Layout.seen buffer).version = 2
      · have hbad : (Layout.seen buffer).payloadType < 96 ∧
            71 < (Layout.seen buffer).payloadType := by
          by_contra hok
          exact h ⟨Nat.le_of_not_lt hlen, hversion, hok⟩
        rw [parseFixed_eq hversion]
        rw [if_neg (by simp [Layout.header]), if_pos]
        exact hbad
      · rw [if_pos]
        exact fun heq => hversion ((version_byte _).mp heq)
  rw [RtpPacket.parse, hgiveup]
  rfl

theorem header_size_eq (buffer : List UInt8) : (Layout.seen buffer).header.size =
    if (Layout.seen buffer).extension ∧ (Layout.seen buffer).extCount = 0 then
      (Layout.seen buffer).extPos
    else (Layout.seen buffer).payloadPos := by
  have hnat := Layout.toNat_count_seen buffer
  have hcsrc : (if (Layout.seen buffer).header.hasCsrc then
      4 * (Layout.seen buffer).header.cc.toNat else 0) = 4 * (Layout.seen buffer).count := by
    rw [show (Layout.seen buffer).header.cc = UInt8.ofNat (Layout.seen buffer).count from rfl, hnat]
    by_cases h0 : (Layout.seen buffer).count = 0
    · simp [h0]
    · have hne : UInt8.ofNat (Layout.seen buffer).count ≠ 0 := by
        rw [← UInt8.toNat_inj.ne, hnat]
        exact h0
      simp [RtpHeader.hasCsrc, Layout.header, h0, hne]
  rw [RtpHeader.size, hcsrc, Layout.payloadPos, Layout.extPos]
  cases hext : (Layout.seen buffer).extension with
  | false => simp [RtpHeader.hasExt, Layout.header, hext]
  | true =>
    by_cases h0 : (Layout.seen buffer).extCount = 0
    · simp [RtpHeader.hasExt, Layout.header, hext, h0]
    · simp [RtpHeader.hasExt, Layout.header, hext, h0]
      omega

theorem rtpPacket_parse_eq {buffer : List UInt8} (h : (Layout.seen buffer).Accepted) :
    RtpPacket.parse buffer =
      if (Layout.seen buffer).payloadPos ≤ buffer.length then
        some (some {
          header := (Layout.seen buffer).header
          payload := some (buffer.drop (Layout.seen buffer).header.size) })
      else none := by
  rw [RtpPacket.parse, parse_header_eq h]
  split <;> rfl

/-- The parser stays in the buffer exactly if it gives up at the fixed words, or the sources
and the extension that these announce are there. -/
theorem rtp_parse_in_bounds_iff (buffer : List UInt8) :
    (RtpPacket.parse buffer).isSome ↔
      ((Layout.seen buffer).Accepted → (Layout.seen buffer).payloadPos ≤ buffer.length) := by
  by_cases h : (Layout.seen buffer).Accepted
  · rw [rtpPacket_parse_eq h]
    by_cases hle : (Layout.seen buffer).payloadPos ≤ buffer.length
    · simp [hle]
    · rw [if_neg hle]
      simp [h, hle]
  · simp [parse_of_not_accepted h, h]

/-! ### The parser and RFC 3550 -/

theorem Layout.count_seen (buffer : List UInt8) :
    (Layout.seen buffer).count = (Layout.mk buffer 4).count % 8 := by
  simp only [Layout.count, Layout.seen]
  omega

/-- With fewer than 8 sources the two layouts are the same. -/
theorem Layout.extPos_seen {buffer : List UInt8} (h : (Layout.mk buffer 4).count < 8) :
    (Layout.seen buffer).extPos = (Layout.mk buffer 4).extPos := by
  have hcount := Layout.count_seen buffer
  unfold Layout.extPos
  omega

theorem Layout.payloadPos_seen {buffer : List UInt8} (h : (Layout.mk buffer 4).count < 8) :
    (Layout.seen buffer).payloadPos = (Layout.mk buffer 4).payloadPos := by
  rw [Layout.payloadPos, Layout.payloadPos, Layout.extCount, Layout.extCount, Layout.extPos_seen h]
  rfl

theorem Layout.Valid.accepted {buffer : List UInt8} (h : (Layout.mk buffer 4).Valid)
    (hpt : ¬ ((Layout.mk buffer 4).payloadType < 96 ∧ 71 < (Layout.mk buffer 4).payloadType)) :
    (Layout.seen buffer).Accepted where
  length_ge := by
    have hfits : (Layout.mk buffer 4).payloadPos + (Layout.mk buffer 4).padded ≤ buffer.length :=
      h.fits
    have hpos := (Layout.mk buffer 4).extPos_le_payloadPos
    change 12 ≤ buffer.length
    unfold Layout.extPos at hpos
    omega
  version_eq := h.version_eq
  payloadType_ok := hpt

/-- A packet that is in order by RFC 3550, with a payload type that is taken, is read as RFC
3550 reads it exactly if it has no padding, fewer than 8 sources and no empty extension. -/
theorem rtp_parse_eq_rfc_iff {buffer : List UInt8} (hvalid : (Layout.mk buffer 4).Valid)
    (hpt : ¬ ((Layout.mk buffer 4).payloadType < 96 ∧ 71 < (Layout.mk buffer 4).payloadType)) :
    (∃ packet, RtpPacket.parse buffer = some (some packet) ∧
        packet.view = (Layout.mk buffer 4).view) ↔
      (Layout.mk buffer 4).padding = false ∧ (Layout.mk buffer 4).count < 8 ∧
        ((Layout.mk buffer 4).extension = true → (Layout.mk buffer 4).extCount ≠ 0) := by
  have hacc := hvalid.accepted hpt
  have hfits : (Layout.mk buffer 4).payloadPos + (Layout.mk buffer 4).padded ≤ buffer.length :=
    hvalid.fits
  have hext : (Layout.seen buffer).extension = (Layout.mk buffer 4).extension := rfl
  have hcsrcs : ((Layout.seen buffer).header.csrc.getD []).length = (Layout.seen buffer).count := by
    unfold Layout.header
    split <;> simp_all
  rw [rtpPacket_parse_eq hacc]
  constructor
  · rintro ⟨packet, hparse, hview⟩
    obtain ⟨hle, hpacket⟩ := Option.ite_none_right_eq_some.mp hparse
    obtain rfl := Option.some.inj (Option.some.inj hpacket)
    have hcount : (Layout.mk buffer 4).count < 8 := by
      have hlen := congrArg (fun v => v.csrcs.length) hview
      simp only [RtpPacket.view, Layout.view, length_wordsAt, hcsrcs] at hlen
      rw [← hlen]
      exact Layout.count_seen_lt buffer
    have hpayload := congrArg (fun v => v.payload.length) hview
    have hsize := header_size_eq buffer
    simp only [RtpPacket.view, Layout.view, Option.getD_some, List.length_drop,
      List.length_take] at hpayload
    rw [Layout.payloadPos_seen hcount, Layout.extPos_seen hcount, hext] at hsize
    have hpos := (Layout.mk buffer 4).extPos_le_payloadPos
    have hcountext : (Layout.seen buffer).extCount = (Layout.mk buffer 4).extCount := by
      rw [Layout.extCount, Layout.extCount, Layout.extPos_seen hcount]
      rfl
    rw [hcountext] at hsize
    by_cases hempty : (Layout.mk buffer 4).extension = true ∧ (Layout.mk buffer 4).extCount = 0
    · have hbehind : (Layout.mk buffer 4).payloadPos = (Layout.mk buffer 4).extPos + 4 := by
        rw [Layout.payloadPos, hempty.1, hempty.2]
        rfl
      rw [if_pos hempty] at hsize
      omega
    · rw [if_neg hempty] at hsize
      refine ⟨?_, hcount, fun hx h0 => hempty ⟨hx, h0⟩⟩
      by_contra hpad
      have hpos := hvalid.padded_pos (by simpa using hpad)
      omega
  · rintro ⟨hpad, hcount, hempty⟩
    have hpadded : (Layout.mk buffer 4).padded = 0 := by
      rw [Layout.padded, hpad]
      rfl
    have hcountext : (Layout.seen buffer).extCount = (Layout.mk buffer 4).extCount := by
      rw [Layout.extCount, Layout.extCount, Layout.extPos_seen hcount]
      rfl
    have hid : (Layout.seen buffer).extId = (Layout.mk buffer 4).extId := by
      rw [Layout.extId, Layout.extId, Layout.extPos_seen hcount]
      rfl
    have hsize := header_size_eq buffer
    rw [hext, hcountext, if_neg (fun h => hempty h.1 h.2), Layout.payloadPos_seen hcount] at hsize
    refine ⟨_, if_pos (by rw [Layout.payloadPos_seen hcount]; omega), ?_⟩
    have hcounteq : (Layout.seen buffer).count = (Layout.mk buffer 4).count := by
      rw [Layout.count_seen]
      omega
    have hsources : (Layout.seen buffer).header.csrc.getD [] =
        wordsAt buffer 12 (Layout.mk buffer 4).count := by
      rw [← hcounteq]
      unfold Layout.header
      split
      · rename_i h0
        rw [h0]
        rfl
      · rfl
    have hpayload : buffer.drop (Layout.seen buffer).header.size =
        (buffer.drop (Layout.mk buffer 4).payloadPos).take
          (buffer.length - (Layout.mk buffer 4).payloadPos - (Layout.mk buffer 4).padded) := by
      rw [hsize, hpadded, List.take_of_length_le (by simp)]
    simp only [RtpPacket.view, Layout.view, hsources, Option.getD_some, ← hpayload]
    simp only [Layout.header, hid, hcountext, Layout.extPos_seen hcount, hext]
    cases hx : (Layout.mk buffer 4).extension <;> rfl

/-- A packet with two sources and an extension of one word. -/
theorem rtp_parse_eq_rfc_two_sources :
    ∃ packet, RtpPacket.parse ([0x92, 0xe0, 0, 5, 0, 0, 0, 9, 0, 0, 0, 1, 0, 0, 0, 2, 0, 0, 0, 3,
        0xbe, 0xde, 0, 1, 0x10, 7, 0, 0, 0x65]) = some (some packet) ∧
      packet.view = (Layout.mk [0x92, 0xe0, 0, 5, 0, 0, 0, 9, 0, 0, 0, 1, 0, 0, 0, 2, 0, 0, 0, 3,
        0xbe, 0xde, 0, 1, 0x10, 7, 0, 0, 0x65] 4).view :=
  (rtp_parse_eq_rfc_iff ⟨by decide, by decide, by decide⟩ (by decide)).mpr (by decide)

/-! ### From a packet to bytes and back -/

namespace RtpView

variable (v : RtpView)

def extWords : List UInt32 := (v.ext.map Prod.snd).getD []

/-- The packet that says `v`: `rtp_packet_init`, with the sources, the extension and the payload
put in. -/
def packet : RtpPacket where
  header :=
    { RtpHeader.init {} v.pt v.ssrc v.seq v.ts with
      m := v.m
      cc := UInt8.ofNat v.csrcs.length
      csrc := if v.csrcs = [] then none else some v.csrcs
      x := v.ext.isSome
      extId := (v.ext.map Prod.fst).getD 0
      extCount := UInt16.ofNat v.extWords.length
      extData := v.ext.map Prod.snd }
  payload := some v.payload

/-- The counts are in their fields, and the payload type is not one of RTCP. -/
structure Sendable : Prop where
  pt_lt : v.pt < 128
  pt_ok : ¬ (v.pt < 96 ∧ 71 < v.pt)
  csrcs_lt : v.csrcs.length < 8
  ext_ok : ∀ e ∈ v.ext, e.2 ≠ [] ∧ e.2.length ≤ 255

/-- The first twelve bytes. -/
def fixedBytes : List UInt8 :=
  [v.packet.header.firstByte, v.packet.header.secondByte] ++ toBe16 v.seq ++ toBe32 v.ts ++
    toBe32 v.ssrc

def extBytes : List UInt8 :=
  match v.ext with
  | none => []
  | some (id, words) => toBe16 id ++ toBe16 (UInt16.ofNat words.length) ++ words.flatMap toBe32

def bytes : List UInt8 :=
  v.fixedBytes ++ (v.csrcs.flatMap toBe32 ++ (v.extBytes ++ v.payload))

@[simp] theorem length_fixedBytes : v.fixedBytes.length = 12 := rfl

end RtpView

theorem first_byte_fields : ∀ n : Fin 16, ∀ e : Bool,
    let b : UInt8 := 0x80 ||| (UInt8.ofNat n &&& 0x7) ||| if e then 0x10 else 0
    b.toNat / 64 = 2 ∧ b.toNat % 8 = n % 8 ∧ (b.toNat / 16 % 2 = 1 ↔ e = true) := by
  decide +kernel

theorem second_byte_fields (m : Bool) (pt : UInt8) :
    let b : UInt8 := (if m then 0x80 else 0) ||| (pt &&& 0x7f)
    (128 ≤ b.toNat ↔ m = true) ∧ b.toNat % 128 = pt.toNat % 128 := by
  revert pt
  cases m
  · exact forall_uint8 (by decide +kernel)
  · exact forall_uint8 (by decide +kernel)

namespace RtpView

variable {v : RtpView}

theorem firstByte_eq (h : v.csrcs.length ≤ 15) :
    v.packet.header.firstByte = 0x80 ||| (UInt8.ofNat v.csrcs.length &&& 0x7) |||
      if v.packet.header.hasExt then 0x10 else 0 := by
  rw [RtpHeader.firstByte]
  by_cases hnil : v.csrcs = []
  · simp [packet, hnil, RtpHeader.hasCsrc]
  · have hne : UInt8.ofNat v.csrcs.length ≠ 0 := by
      have hlen := List.length_pos_of_ne_nil hnil
      rw [← UInt8.toNat_inj.ne, UInt8.toNat_ofNat']
      change _ ≠ 0
      omega
    have hcsrc : v.packet.header.hasCsrc = true := by
      simp [packet, hnil, RtpHeader.hasCsrc, hne]
    rw [hcsrc]
    rfl

/-- The fields of the first byte. -/
theorem firstByte_fields (h : v.csrcs.length ≤ 15) :
    v.packet.header.firstByte.toNat / 64 = 2 ∧
      v.packet.header.firstByte.toNat % 8 = v.csrcs.length % 8 ∧
      (v.packet.header.firstByte.toNat / 16 % 2 = 1 ↔ v.packet.header.hasExt = true) := by
  rw [firstByte_eq h]
  exact first_byte_fields ⟨v.csrcs.length, by omega⟩ v.packet.header.hasExt

theorem hasExt_iff (h : ∀ e ∈ v.ext, e.2.length < 65536) :
    v.packet.header.hasExt = true ↔ ∃ e ∈ v.ext, e.2 ≠ [] := by
  rcases hext : v.ext with _ | ⟨id, words⟩
  · simp [RtpHeader.hasExt, packet, hext]
  · have hlen : words.length < 65536 := h (id, words) hext
    have hzero : UInt16.ofNat words.length = 0 ↔ words = [] := by
      rw [← UInt16.toNat_inj, UInt16.toNat_ofNat']
      change words.length % 65536 = 0 ↔ _
      rw [Nat.mod_eq_of_lt hlen, List.length_eq_zero_iff]
    simp [RtpHeader.hasExt, packet, extWords, hext, hzero]

theorem firstWords_all (words : List UInt32) {n : ℕ} (hn : n = words.length) :
    RtpHeader.firstWords (some words) n = some (words.flatMap toBe32) := by
  subst hn
  simp [RtpHeader.firstWords]

/-- The bytes of the sources are written. -/
theorem csrcBytes_eq (h : v.csrcs.length ≤ 15) :
    v.packet.header.csrcBytes = some (v.csrcs.flatMap toBe32) := by
  have hcc : (UInt8.ofNat v.csrcs.length).toNat = v.csrcs.length := by
    rw [UInt8.toNat_ofNat']
    omega
  by_cases hnil : v.csrcs = []
  · simp [packet, hnil, RtpHeader.csrcBytes, RtpHeader.hasCsrc]
  · have hne : UInt8.ofNat v.csrcs.length ≠ 0 := by
      have hlen := List.length_pos_of_ne_nil hnil
      rw [← UInt8.toNat_inj.ne, hcc]
      change _ ≠ 0
      omega
    have hwords := firstWords_all v.csrcs hcc
    simpa [packet, hnil, RtpHeader.csrcBytes, RtpHeader.hasCsrc, hne] using hwords

theorem csrc_of_cc : ¬ (v.packet.header.csrc = none ∧ v.packet.header.cc ≠ 0) := by
  rintro ⟨hcsrc, hcc⟩
  by_cases hnil : v.csrcs = []
  · exact hcc (by simp [packet, hnil])
  · simp [packet, hnil] at hcsrc

theorem Sendable.extBytes_eq (h : v.Sendable) : v.packet.header.extBytes = some v.extBytes := by
  rcases hext : v.ext with _ | ⟨id, words⟩
  · simp [RtpHeader.extBytes, RtpHeader.hasExt, packet, extBytes, hext]
  · obtain ⟨hne, hlen⟩ := h.ext_ok (id, words) hext
    have hyes : v.packet.header.hasExt = true :=
      (hasExt_iff (fun e he => by have := (h.ext_ok e he).2; omega)).mpr ⟨_, hext, hne⟩
    have hcount : v.packet.header.extCount.toNat = words.length := by
      simp only [packet, extWords, hext, Option.map_some, Option.getD_some, UInt16.toNat_ofNat']
      dsimp only at hlen
      omega
    have hwords : RtpHeader.firstWords v.packet.header.extData v.packet.header.extCount.toNat =
        some (words.flatMap toBe32) := by
      have hdata : v.packet.header.extData = some words := by simp [packet, hext]
      rw [hdata]
      exact firstWords_all words hcount
    dsimp only at hlen
    rw [RtpHeader.extBytes, if_pos hyes, if_neg (fun hbad => hbad.elim (by omega) csrc_of_cc),
      hwords]
    simp [extBytes, hext, packet, extWords]

/-- The packet as it is written. -/
theorem Sendable.serialize_eq (h : v.Sendable) : v.packet.serialize = some (some v.bytes) := by
  have hcsrcs := h.csrcs_lt
  have hsize : ¬ v.packet.size < v.packet.header.size := Nat.not_lt.mpr (Nat.le_add_right _ _)
  rw [RtpPacket.serialize, RtpHeader.serialize, if_neg hsize, csrcBytes_eq (by omega),
    h.extBytes_eq]
  simp [bytes, fixedBytes, packet, RtpHeader.init]

/-! The layout of the bytes. -/

theorem wordsAt_csrcs : wordsAt v.bytes 12 v.csrcs.length = v.csrcs :=
  wordsAt_flatMap v.fixedBytes (v.extBytes ++ v.payload) v.csrcs

theorem bytes_eq_append : v.bytes =
    (v.fixedBytes ++ v.csrcs.flatMap toBe32) ++ (v.extBytes ++ v.payload) := by
  simp [bytes]

theorem length_sources :
    (v.fixedBytes ++ v.csrcs.flatMap toBe32).length = 12 + 4 * v.csrcs.length := by
  rw [List.length_append, length_fixedBytes, length_flatMap_toBe32]

theorem getD_ext (i : ℕ) : v.bytes.getD (12 + 4 * v.csrcs.length + i) 0 =
    (v.extBytes ++ v.payload).getD i 0 := by
  rw [bytes_eq_append, ← length_sources]
  exact getD_append_right' _ _ i

theorem marker_seen : (Layout.seen v.bytes).marker = v.m := by
  have hfields := (second_byte_fields v.m (v.pt &&& 0x7f)).1
  have hdec : (Layout.seen v.bytes).marker = true ↔ v.m = true := by
    rw [← hfields]
    exact decide_eq_true_iff
  exact Bool.eq_iff_iff.mpr hdec

variable (h : v.Sendable)

include h

theorem Sendable.count_seen : (Layout.seen v.bytes).count = v.csrcs.length := by
  have hlt := h.csrcs_lt
  have hfields := (firstByte_fields (v := v) (by omega)).2.1
  rw [Nat.mod_eq_of_lt hlt] at hfields
  exact hfields

theorem Sendable.extPos_seen : (Layout.seen v.bytes).extPos = 12 + 4 * v.csrcs.length := by
  rw [Layout.extPos, h.count_seen]

theorem Sendable.extension_seen : (Layout.seen v.bytes).extension = v.ext.isSome := by
  have hlt := h.csrcs_lt
  have hfields := (firstByte_fields (v := v) (by omega)).2.2
  have hiff : v.packet.header.hasExt = true ↔ v.ext.isSome = true := by
    rw [hasExt_iff fun e he => by have := (h.ext_ok e he).2; omega, Option.isSome_iff_exists]
    exact ⟨fun ⟨e, he, _⟩ => ⟨e, he⟩, fun ⟨e, he⟩ => ⟨e, he, (h.ext_ok e he).1⟩⟩
  have hdec : (Layout.seen v.bytes).extension = true ↔ v.ext.isSome = true := by
    rw [← hiff, ← hfields]
    exact decide_eq_true_iff
  exact Bool.eq_iff_iff.mpr hdec

theorem Sendable.payloadType_seen : (Layout.seen v.bytes).payloadType = v.pt := by
  have hpt : v.pt.toNat < 128 := UInt8.lt_iff_toNat_lt.mp h.pt_lt
  have hmask : v.pt &&& 0x7f = v.pt := by
    rw [payloadType_byte, Nat.mod_eq_of_lt hpt, UInt8.ofNat_toNat]
  have hfields := (second_byte_fields v.m (v.pt &&& 0x7f)).2
  rw [hmask, hmask, Nat.mod_eq_of_lt hpt] at hfields
  change UInt8.ofNat (((if v.m then 0x80 else 0) ||| (v.pt &&& 0x7f &&& 0x7f)).toNat % 128) = v.pt
  rw [hmask, hmask, hfields, UInt8.ofNat_toNat]

theorem Sendable.accepted : (Layout.seen v.bytes).Accepted where
  length_ge := by
    change 12 ≤ v.bytes.length
    rw [bytes, List.length_append, length_fixedBytes]
    omega
  version_eq := (firstByte_fields (by have := h.csrcs_lt; omega)).1
  payloadType_ok := by
    rw [h.payloadType_seen]
    exact h.pt_ok

/-- The identifier and the number of words stand where the layout of RFC 3550 has them. -/
theorem Sendable.extCount_seen {id : UInt16} {words : List UInt32}
    (hext : v.ext = some (id, words)) :
    (Layout.seen v.bytes).extId = id ∧ (Layout.seen v.bytes).extCount.toNat = words.length := by
  have hlen : words.length ≤ 255 := (h.ext_ok _ hext).2
  have hbytes : v.extBytes = toBe16 id ++ toBe16 (UInt16.ofNat words.length) ++
      words.flatMap toBe32 := by rw [extBytes, hext]
  have h₀ := getD_ext (v := v) 0
  rw [Nat.add_zero] at h₀
  constructor
  · rw [Layout.extId, h.extPos_seen, Layout.buffer_seen, h₀, getD_ext, hbytes]
    exact be16_toBe16 id
  · rw [Layout.extCount, h.extPos_seen, Layout.buffer_seen, getD_ext,
      getD_ext, hbytes]
    have hcount : be16 ((UInt16.ofNat words.length) >>> 8).toUInt8
        (UInt16.ofNat words.length).toUInt8 = UInt16.ofNat words.length := be16_toBe16 _
    change (be16 ((UInt16.ofNat words.length) >>> 8).toUInt8
        (UInt16.ofNat words.length).toUInt8).toNat = _
    rw [hcount, UInt16.toNat_ofNat']
    omega

theorem Sendable.length_extBytes : v.extBytes.length =
    if (Layout.seen v.bytes).extension then 4 + 4 * (Layout.seen v.bytes).extCount.toNat
    else 0 := by
  rw [h.extension_seen]
  rcases hext : v.ext with _ | ⟨id, words⟩
  · simp [extBytes, hext]
  · rw [(h.extCount_seen hext).2]
    simp [extBytes, hext]
    omega

theorem Sendable.payloadPos_seen :
    (Layout.seen v.bytes).payloadPos = 12 + 4 * v.csrcs.length + v.extBytes.length := by
  rw [Layout.payloadPos, h.extPos_seen, h.length_extBytes]

theorem Sendable.ext_seen : (if (Layout.seen v.bytes).extension then
      some ((Layout.seen v.bytes).extId,
        wordsAt v.bytes ((Layout.seen v.bytes).extPos + 4) (Layout.seen v.bytes).extCount.toNat)
    else none) = v.ext := by
  rw [h.extension_seen]
  rcases hext : v.ext with _ | ⟨id, words⟩
  · rfl
  · obtain ⟨hid, hcount⟩ := h.extCount_seen hext
    have hwords := wordsAt_flatMap (v.fixedBytes ++ v.csrcs.flatMap toBe32 ++
      (toBe16 id ++ toBe16 (UInt16.ofNat words.length))) v.payload words
    have hbytes : v.bytes = v.fixedBytes ++ v.csrcs.flatMap toBe32 ++
        (toBe16 id ++ toBe16 (UInt16.ofNat words.length)) ++
          (words.flatMap toBe32 ++ v.payload) := by
      rw [bytes_eq_append, extBytes, hext]
      simp
    have hlen : (v.fixedBytes ++ v.csrcs.flatMap toBe32 ++
        (toBe16 id ++ toBe16 (UInt16.ofNat words.length))).length =
        12 + 4 * v.csrcs.length + 4 := by
      rw [List.length_append, length_sources]
      rfl
    rw [← hbytes, hlen] at hwords
    rw [hid, hcount, h.extPos_seen, hwords]
    rfl

theorem Sendable.parse_bytes : RtpPacket.parse v.bytes =
    some (some { header := (Layout.seen v.bytes).header, payload := some v.payload }) := by
  have hpos := h.payloadPos_seen
  have hlen : v.bytes.length = 12 + 4 * v.csrcs.length + v.extBytes.length + v.payload.length := by
    rw [bytes_eq_append, List.length_append, length_sources, List.length_append]
    omega
  have hsize : (Layout.seen v.bytes).header.size = (Layout.seen v.bytes).payloadPos := by
    rw [header_size_eq, if_neg]
    rintro ⟨hx, hzero⟩
    rw [h.extension_seen, Option.isSome_iff_exists] at hx
    obtain ⟨⟨id, words⟩, hext⟩ := hx
    have hcount := (h.extCount_seen hext).2
    rw [hzero] at hcount
    exact (h.ext_ok _ hext).1 (List.length_eq_zero_iff.mp hcount.symm)
  have hdrop : v.bytes.drop (Layout.seen v.bytes).header.size = v.payload := by
    have hprefix : (v.fixedBytes ++ v.csrcs.flatMap toBe32 ++ v.extBytes).length =
        (Layout.seen v.bytes).header.size := by
      rw [hsize, hpos, List.length_append, length_sources]
    have hsplit : v.bytes =
        (v.fixedBytes ++ v.csrcs.flatMap toBe32 ++ v.extBytes) ++ v.payload := by
      simp [bytes]
    rw [← hprefix]
    nth_rewrite 1 [hsplit]
    exact List.drop_left
  rw [rtpPacket_parse_eq h.accepted, if_pos (by omega), hdrop]

/-- What is read of the bytes is what was written. -/
theorem Sendable.view_parse :
    RtpPacket.view { header := (Layout.seen v.bytes).header, payload := some v.payload } = v := by
  have hcsrcs : (Layout.seen v.bytes).header.csrc.getD [] = v.csrcs := by
    rw [show (Layout.seen v.bytes).header.csrc = if (Layout.seen v.bytes).count = 0 then none
      else some (wordsAt v.bytes 12 (Layout.seen v.bytes).count) from rfl, h.count_seen,
      wordsAt_csrcs]
    split
    · rename_i h0
      rw [List.length_eq_zero_iff.mp h0]
      rfl
    · rfl
  have hext := h.ext_seen
  rw [RtpPacket.view, hcsrcs]
  simp only [Layout.header, Layout.buffer_seen, marker_seen, h.payloadType_seen]
  have hview : (if (Layout.seen v.bytes).extension then
      some (if (Layout.seen v.bytes).extension then (Layout.seen v.bytes).extId else 0,
        (if (Layout.seen v.bytes).extension then
          some (wordsAt v.bytes ((Layout.seen v.bytes).extPos + 4)
            (Layout.seen v.bytes).extCount.toNat)
        else none).getD [])
      else none) = v.ext := by
    rw [← hext]
    cases (Layout.seen v.bytes).extension <;> rfl
  rw [hview]
  have hseq : be16 (v.bytes.getD 2 0) (v.bytes.getD 3 0) = v.seq := be16_toBe16 v.seq
  have hts : u32At v.bytes 4 = v.ts := be32_toBe32 v.ts
  have hssrc : u32At v.bytes 8 = v.ssrc := be32_toBe32 v.ssrc
  rw [hseq, hts, hssrc]
  rfl

omit h

theorem head_of_serialize {packet : RtpPacket} {bytes : List UInt8}
    (h : packet.serialize = some (some bytes)) :
    packet.header.extBytes.isSome ∧ bytes.getD 0 0 = packet.header.firstByte := by
  have hsize : ¬ packet.size < packet.header.size := Nat.not_lt.mpr (Nat.le_add_right _ _)
  rw [RtpPacket.serialize, RtpHeader.serialize, if_neg hsize] at h
  rcases hcsrc : packet.header.csrcBytes with _ | csrc
  · simp [hcsrc] at h
  rcases hext : packet.header.extBytes with _ | ext
  · simp [hcsrc, hext] at h
  · simp only [hcsrc, hext, Option.bind_eq_bind, Option.bind_some, Option.pure_def,
      Option.some.injEq] at h
    subst h
    exact ⟨rfl, rfl⟩

theorem accepted_of_parse {bytes : List UInt8} {packet : RtpPacket}
    (h : RtpPacket.parse bytes = some (some packet)) :
    (Layout.seen bytes).Accepted ∧ packet.header = (Layout.seen bytes).header := by
  by_cases hacc : (Layout.seen bytes).Accepted
  · rw [rtpPacket_parse_eq hacc] at h
    obtain ⟨-, hpacket⟩ := Option.ite_none_right_eq_some.mp h
    obtain rfl := Option.some.inj (Option.some.inj hpacket)
    exact ⟨hacc, rfl⟩
  · rw [parse_of_not_accepted hacc] at h
    cases Option.some.inj h

/-- What comes back was sendable. -/
theorem sendable_of_view {bytes : List UInt8} {packet : RtpPacket} (hcsrcs : v.csrcs.length ≤ 15)
    (hext : ∀ e ∈ v.ext, e.2.length < 65536)
    (hserialize : v.packet.serialize = some (some bytes))
    (hparse : RtpPacket.parse bytes = some (some packet)) (hview : packet.view = v) :
    v.Sendable := by
  obtain ⟨hsome, hhead⟩ := head_of_serialize hserialize
  obtain ⟨hacc, hheader⟩ := accepted_of_parse hparse
  have hpt : (Layout.seen bytes).payloadType = v.pt := by
    rw [← hview, RtpPacket.view, hheader]
    rfl
  have hlast : v.csrcs.length < 8 := by
    have hlen : v.csrcs.length = (Layout.seen bytes).count := by
      rw [← hview, RtpPacket.view, hheader]
      unfold Layout.header
      split <;> simp_all
    rw [hlen]
    exact Layout.count_seen_lt bytes
  refine ⟨?_, ?_, hlast, ?_⟩
  · rw [← hpt, UInt8.lt_iff_toNat_lt, Layout.payloadType, UInt8.toNat_ofNat']
    change _ < 128
    omega
  · rw [← hpt]
    exact hacc.payloadType_ok
  · rintro ⟨id, words⟩ he
    have hx : (Layout.seen bytes).extension = true := by
      have hview' : packet.view.ext = some (id, words) := by rw [hview, he]
      rw [RtpPacket.view, hheader] at hview'
      exact (Option.ite_none_right_eq_some.mp hview').1
    have hyes : v.packet.header.hasExt = true := by
      rw [← (firstByte_fields hcsrcs).2.2, ← hhead]
      exact decide_eq_true_iff.mp hx
    obtain ⟨e, hmem, hne⟩ := (hasExt_iff hext).mp hyes
    obtain rfl := Option.some.inj (he.symm.trans hmem)
    refine ⟨hne, ?_⟩
    by_contra hlong
    have hcount : v.packet.header.extCount.toNat = words.length := by
      have hlt := hext _ he
      simp only [RtpView.packet, extWords, show v.ext = some (id, words) from he, Option.map_some,
        Option.getD_some, UInt16.toNat_ofNat']
      dsimp only at hlt
      omega
    dsimp only at hlong
    rw [RtpHeader.extBytes, if_pos hyes, if_pos (Or.inl (by omega))] at hsome
    cases hsome

/-- A packet comes back from its bytes exactly if it is sendable. -/
theorem rtp_round_trip_iff (v : RtpView) (hcsrcs : v.csrcs.length ≤ 15)
    (hext : ∀ e ∈ v.ext, e.2.length < 65536) :
    (∃ bytes packet, v.packet.serialize = some (some bytes) ∧
        RtpPacket.parse bytes = some (some packet) ∧ packet.view = v) ↔ v.Sendable := by
  constructor
  · rintro ⟨bytes, packet, hserialize, hparse, hview⟩
    exact sendable_of_view hcsrcs hext hserialize hparse hview
  · intro h
    exact ⟨v.bytes, _, h.serialize_eq, h.parse_bytes, h.view_parse⟩

/-- A packet with one source and an extension of two words. -/
theorem rtp_round_trip_one_source :
    ∃ bytes packet, (RtpView.mk true 96 7 9 1 [2] (some (0xbede, [5, 6])) [0x65]).packet.serialize =
        some (some bytes) ∧ RtpPacket.parse bytes = some (some packet) ∧
      packet.view = ⟨true, 96, 7, 9, 1, [2], some (0xbede, [5, 6]), [0x65]⟩ :=
  (rtp_round_trip_iff _ (by decide) (by decide)).mpr
    ⟨by decide, by decide, by decide, by decide⟩

end RtpView

/-! ### Over a transport -/

namespace Packet

/-- What the packet says; the sources and the extension are not used by `sender`. -/
def view (pkt : Packet) : RtpView where
  m := pkt.m
  pt := pkt.pt
  seq := pkt.seq
  ts := pkt.ts
  ssrc := pkt.ssrc
  csrcs := []
  ext := none
  payload := pkt.payload

def ofView (v : RtpView) : Packet := ⟨v.m, v.pt, v.seq, v.ts, v.ssrc, v.payload⟩

/-- `packet::serialize` of what a sender made. -/
def serialize (pkt : Packet) : Option (List UInt8) := pkt.view.packet.serialize.join

/-- `packet::parse`; what is outside of the buffer is taken as nothing. -/
def parse (buffer : List UInt8) : Option Packet :=
  (RtpPacket.parse buffer).join.map fun packet => ofView packet.view

theorem sendable_view {pkt : Packet} (hlt : pkt.pt < 128) (hok : ¬ (pkt.pt < 96 ∧ 71 < pkt.pt)) :
    pkt.view.Sendable where
  pt_lt := hlt
  pt_ok := hok
  csrcs_lt := Nat.zero_lt_succ 7
  ext_ok := by simp [view]

end Packet

/-- `proto_type_t`. -/
inductive Proto
  | rtp | dtls | stun | unknown
  deriving DecidableEq, Repr

/-- `detect_message`. -/
def detectMessage (b : UInt8) : Proto :=
  if 127 < b ∧ b < 192 then .rtp
  else if 20 ≤ b ∧ b ≤ 64 then .dtls
  else if b < 2 then .stun
  else .unknown

theorem detectMessage_of_version {b : UInt8} (h : b.toNat / 64 = 2) : detectMessage b = .rtp := by
  have hlow : 127 < b := by
    rw [UInt8.lt_iff_toNat_lt]
    change 127 < _
    omega
  have hhigh : b < 192 := by
    rw [UInt8.lt_iff_toNat_lt]
    change _ < 192
    omega
  rw [detectMessage, if_pos ⟨hlow, hhigh⟩]

theorem rtcpType_payloadType : ∀ t : RtcpType,
    UInt8.ofNat (t.toByte.toNat % 128) < 96 ∧ 71 < UInt8.ofNat (t.toByte.toNat % 128) := by
  intro t
  cases t <;> decide

/-- What `rtp_header_parse` accepts is not taken for RTCP. -/
theorem detectRtcpPacket_of_accepted {buffer : List UInt8} (h : (Layout.seen buffer).Accepted) :
    detectRtcpPacket buffer = none := by
  have hlen : 12 ≤ buffer.length := h.length_ge
  have hver : (Layout.seen buffer).version = 2 := h.version_eq
  have hpt := h.payloadType_ok
  match buffer, hlen, hver, hpt with
  | b₀ :: b₁ :: b₂ :: b₃ :: rest, _, hver, hpt =>
    have htype : RtcpType.ofByte b₁ = none := by
      by_contra hsome
      obtain ⟨t, ht⟩ := Option.ne_none_iff_exists'.mp hsome
      have hbyte : t.toByte = b₁ := by simpa using List.find?_some ht
      exact hpt (hbyte ▸ rtcpType_payloadType t)
    have hparse : RtcpHeader.parse (b₀ :: b₁ :: b₂ :: b₃ :: rest) =
        some ⟨b₀ >>> 6, b₀ &&& 0x20 ≠ 0, b₀ &&& 0x1f, b₁, be16 b₂ b₃⟩ :=
      if_pos ((version_byte b₀).mpr hver)
    rw [detectRtcpPacket, hparse]
    simp [Option.filter, htype]

/-- The bytes of a packet, at the other end. -/
theorem exists_serialize (parsers : Parsers) {pkt : Packet} (hlt : pkt.pt < 128)
    (hok : ¬ (pkt.pt < 96 ∧ 71 < pkt.pt)) :
    ∃ bytes, pkt.serialize = some bytes ∧ detectMessage (bytes.getD 0 0) = .rtp ∧
      handleRtpMessage { parsers with packetParse := Packet.parse } none bytes =
        [.onRtpPacket pkt] := by
  have h := Packet.sendable_view hlt hok
  have hparse : Packet.parse pkt.view.bytes = some pkt := by
    rw [Packet.parse, h.parse_bytes]
    simp only [Option.join_some, Option.map_some, h.view_parse]
    rfl
  refine ⟨pkt.view.bytes, by rw [Packet.serialize, h.serialize_eq]; rfl,
    detectMessage_of_version h.accepted.version_eq, ?_⟩
  rw [handleRtpMessage, detectRtcpPacket_of_accepted h.accepted]
  simp [hparse]

/-- A packet with a payload type that is none of RTCP goes to the session of the other end as
it is, and no datagram that is taken for a packet is also taken for RTCP. -/
theorem rtp_over_transport (parsers : Parsers) (buffer : List UInt8) :
    (∀ pkt : Packet, pkt.pt < 128 → ¬ (pkt.pt < 96 ∧ 71 < pkt.pt) →
      ∃ bytes, pkt.serialize = some bytes ∧ detectMessage (bytes.getD 0 0) = .rtp ∧
        handleRtpMessage { parsers with packetParse := Packet.parse } none bytes =
          [.onRtpPacket pkt]) ∧
      ((Packet.parse buffer).isSome → detectRtcpPacket buffer = none) := by
  constructor
  · intro pkt hlt hok
    exact exists_serialize parsers hlt hok
  · intro hsome
    apply detectRtcpPacket_of_accepted
    by_contra hacc
    rw [Packet.parse, parse_of_not_accepted hacc] at hsome
    cases hsome

/-- Parsers that take nothing. -/
def noParsers : Parsers where
  rtcpSrParse _ := none
  rtcpRrParse _ := none
  rtcpSdesParse _ := none
  rtcpByeParse _ := none
  rtcpAppParse _ := none
  rtcpFbParse _ := none
  packetParse _ := none

/-- The last packet of a video frame. -/
theorem rtp_over_transport_marked :
    ∃ bytes, (Packet.mk true 96 7 9 1 [0x65]).serialize = some bytes ∧
      detectMessage (bytes.getD 0 0) = .rtp ∧
      handleRtpMessage { noParsers with packetParse := Packet.parse } none bytes =
        [.onRtpPacket ⟨true, 96, 7, 9, 1, [0x65]⟩] :=
  (rtp_over_transport noParsers []).1 ⟨true, 96, 7, 9, 1, [0x65]⟩ (by decide) (by decide)

end CxxDeps.Rtp
