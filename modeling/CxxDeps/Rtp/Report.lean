import CxxDeps.Library.Bits
import CxxDeps.Rtp.Compound

/-! Reports between bytes and objects: `rtcp::report` over `rtcp_sr.c` and `rtcp_rr.c`. The
outer `none` of a result stands for an access to memory that is not there: outside of the
buffer, or in a report array that was not allocated. -/

namespace CxxDeps.Rtp

open Library

/-! ### Words, header and report blocks -/

def u32At (buffer : List UInt8) (pos : ℕ) : UInt32 :=
  be32 (buffer.getD pos 0) (buffer.getD (pos + 1) 0) (buffer.getD (pos + 2) 0)
    (buffer.getD (pos + 3) 0)

/-- `read_u32`. -/
def readU32 (buffer : List UInt8) (pos : ℕ) : Option UInt32 :=
  if pos + 4 ≤ buffer.length then some (u32At buffer pos) else none

/-- `read_u24`. -/
def readU24 (a b c : UInt8) : UInt32 := (a.toUInt32 <<< 16) ||| (b.toUInt32 <<< 8) ||| c.toUInt32

/-- `read_s24`. -/
def readS24 (a b c : UInt8) : ℤ :=
  let u := readU24 a b c
  if u < 0x800000 then u.toNat else -1 * ((~~~u &&& 0xffffff) + 1).toNat

/-- `write_u24`. -/
def writeU24 (u : UInt32) : List UInt8 := [(u >>> 16).toUInt8, (u >>> 8).toUInt8, u.toUInt8]

/-- `write_s24`: the bytes of the two's complement. -/
def writeS24 (value : ℤ) : List UInt8 := writeU24 (UInt32.ofNat (value % 2 ^ 32).toNat)

/-- `rtcp_type`. -/
def rtcpType (buffer : List UInt8) : Option UInt8 :=
  if buffer.length < 2 then none
  else
    let pt := buffer.getD 1 0
    if 200 ≤ pt ∧ pt ≤ 204 then some pt else none

def RtcpHeader.bytes (h : RtcpHeader) : List UInt8 :=
  (h.version <<< 6 ||| (if h.p then 0x20 else 0) ||| h.count) :: h.pt :: toBe16 h.length

/-- `rtcp_header_serialize`. -/
def RtcpHeader.serialize (h : RtcpHeader) (size : ℕ) : Option (List UInt8) :=
  if size < 4 then none else some h.bytes

namespace RtcpReport

def ofBytes (buffer : List UInt8) : RtcpReport where
  ssrc := u32At buffer 0
  fraction := buffer.getD 4 0
  lost := readS24 (buffer.getD 5 0) (buffer.getD 6 0) (buffer.getD 7 0)
  lastSeq := u32At buffer 8
  jitter := u32At buffer 12
  lsr := u32At buffer 16
  dlsr := u32At buffer 20

/-- `rtcp_report_parse`. -/
def parse (buffer : List UInt8) : Option RtcpReport :=
  if buffer.length < 24 then none else some (ofBytes buffer)

def bytes (r : RtcpReport) : List UInt8 :=
  toBe32 r.ssrc ++ (r.fraction :: writeS24 r.lost) ++ toBe32 r.lastSeq ++ toBe32 r.jitter ++
    toBe32 r.lsr ++ toBe32 r.dlsr

/-- `rtcp_report_serialize`. -/
def serialize (r : RtcpReport) (size : ℕ) : Option (List UInt8) :=
  if size < 24 then none else some r.bytes

end RtcpReport

/-! ### `rtcp_sr.c` and `rtcp_rr.c` -/

/-- Which of the two files. -/
inductive ReportKind
  | sr | rr
  deriving DecidableEq, Repr

namespace ReportKind

def type : ReportKind → RtcpType
  | .sr => .sr
  | .rr => .rr

/-- Bytes in front of the report blocks. -/
def fixed : ReportKind → ℕ
  | .sr => 28
  | .rr => 8

def initLength : ReportKind → UInt16
  | .sr => 6
  | .rr => 1

end ReportKind

/-- The words that an `rtcp_sr` has and an `rtcp_rr` has not. -/
structure SenderInfo where
  ntpSec : UInt32 := 0
  ntpFrac : UInt32 := 0
  rtpTs : UInt32 := 0
  pktCount : UInt32 := 0
  byteCount : UInt32 := 0
  deriving DecidableEq, Repr

namespace SenderInfo

def bytes (s : SenderInfo) : List UInt8 :=
  toBe32 s.ntpSec ++ toBe32 s.ntpFrac ++ toBe32 s.rtpTs ++ toBe32 s.pktCount ++ toBe32 s.byteCount

def read (buffer : List UInt8) : Option SenderInfo := do
  let ntpSec ← readU32 buffer 8
  let ntpFrac ← readU32 buffer 12
  let rtpTs ← readU32 buffer 16
  let pktCount ← readU32 buffer 20
  let byteCount ← readU32 buffer 24
  return { ntpSec, ntpFrac, rtpTs, pktCount, byteCount }

end SenderInfo

/-- `rtcp_sr`, and `rtcp_rr`, which makes no use of `info`. The array of reports is `none`
where the pointer is null; `ext_size` is the length of `extData`. -/
structure ReportPacket where
  header : RtcpHeader
  ssrc : UInt32 := 0
  info : SenderInfo := {}
  reports : Option (List RtcpReport) := none
  extData : Option (List UInt8) := none
  deriving DecidableEq, Repr

namespace ReportPacket

/-- `rtcp_sr_create`, `rtcp_rr_create` with the init functions. -/
def create (kind : ReportKind) : ReportPacket where
  header := ⟨2, false, 0, kind.type.toByte, kind.initLength⟩

/-- `rtcp_sr_size`, `rtcp_rr_size`. -/
def size (kind : ReportKind) (packet : ReportPacket) : ℕ :=
  let size := kind.fixed + packet.header.count.toNat * 24
  match packet.extData with
  | some (b :: bs) =>
    let size := size + (b :: bs).length
    if size % 4 = 0 then size else size + (4 - size % 4)
  | _ => size

/-- `packet->reports[i]`. -/
def reportAt (packet : ReportPacket) (i : ℕ) : Option RtcpReport :=
  packet.reports.bind fun reports => reports[i]?

def findFrom (packet : ReportPacket) (srcId : UInt32) : List ℕ → Option (Option RtcpReport)
  | [] => some none
  | i :: rest =>
    match packet.reportAt i with
    | none => none
    | some report => if report.ssrc = srcId then some (some report) else packet.findFrom srcId rest

/-- `rtcp_sr_find_report`, `rtcp_rr_find_report`. -/
def findReport (packet : ReportPacket) (srcId : UInt32) : Option (Option RtcpReport) :=
  packet.findFrom srcId (List.range packet.header.count.toNat)

/-- The header length after a change. -/
def updateLength (kind : ReportKind) (packet : ReportPacket) : ReportPacket :=
  { packet with header.length := UInt16.ofNat (packet.size kind / 4 - 1) }

/-- `rtcp_sr_add_report`, `rtcp_rr_add_report`, with what they return. -/
def addReport (kind : ReportKind) (packet : ReportPacket) (report : RtcpReport) :
    Option (ℤ × ReportPacket) :=
  if packet.header.count = 0 then
    some (0, updateLength kind { packet with header.count := 1, reports := some [report] })
  else if packet.header.count = 0xff then some (-1, packet)
  else
    match packet.findReport report.ssrc with
    | none => none
    | some (some _) => some (-1, packet)
    | some none =>
      -- the field has five bits; after 31 the array would be written at -1
      let count := (packet.header.count + 1) &&& 0x1f
      if count = 0 then none
      else
        let kept := (packet.reports.getD []).take (count.toNat - 1)
        some (0, updateLength kind
          { packet with header.count := count, reports := some (kept ++ [report]) })

/-- `rtcp_sr_set_ext`, `rtcp_rr_set_ext`: only the first looks at the size. -/
def setExt (kind : ReportKind) (packet : ReportPacket) (data : List UInt8) : ℤ × ReportPacket :=
  if kind = .sr ∧ data.length % 4 ≠ 0 then (-1, packet)
  else if packet.extData ≠ none then (-1, packet)
  else (0, updateLength kind { packet with extData := some data })

def serializeReports (packet : ReportPacket) (size : ℕ) :
    List ℕ → List UInt8 → Option (Option (List UInt8))
  | [], written => some (some written)
  | i :: rest, written =>
    match packet.reportAt i with
    | none => none
    | some report =>
      match report.serialize (size - written.length) with
      | none => some none
      | some bytes => packet.serializeReports size rest (written ++ bytes)

/-- `rtcp_sr_serialize`, `rtcp_rr_serialize`: the bytes written. -/
def serialize (kind : ReportKind) (packet : ReportPacket) (size : ℕ) :
    Option (Option (List UInt8)) :=
  if size < packet.size kind then some none
  else
    match packet.header.serialize size with
    | none => some none
    | some header =>
      (packet.serializeReports size (List.range packet.header.count.toNat)
        (header ++ toBe32 packet.ssrc ++ (if kind = .sr then packet.info.bytes else []))).map
          (Option.map fun written => written ++ packet.extData.getD [])

def parseReports (buffer : List UInt8) : ℕ → ℕ → Option (List RtcpReport)
  | 0, _ => some []
  | n + 1, offset =>
    match RtcpReport.parse (buffer.drop offset) with
    | none => none
    | some report => (parseReports buffer n (offset + 24)).map (report :: ·)

/-- The words after the SSRC. -/
def readInfo (kind : ReportKind) (packet : ReportPacket) (buffer : List UInt8) :
    Option SenderInfo :=
  if kind = .sr then SenderInfo.read buffer else some packet.info

/-- The report blocks and the extension data. -/
def parseRest (kind : ReportKind) (packet : ReportPacket) (buffer : List UInt8) :
    Option (Option ReportPacket) :=
  let count := packet.header.count.toNat
  match parseReports buffer count kind.fixed with
  | none => some none
  | some blocks =>
    let reports := if count = 0 then packet.reports else some blocks
    let offset := kind.fixed + 24 * count
    let length := (packet.header.length.toNat + 1) * 4
    if length = offset then some (some { packet with reports })
    -- a length below the offset wraps around and the copy runs out of the buffer
    else if offset < length ∧ length ≤ buffer.length then
      some (some { packet with reports, extData := some ((buffer.take length).drop offset) })
    else none

/-- `rtcp_sr_parse`, `rtcp_rr_parse`. -/
def parse (kind : ReportKind) (packet : ReportPacket) (buffer : List UInt8) :
    Option (Option ReportPacket) :=
  match RtcpHeader.parse buffer with
  | none => some none
  | some header =>
    if header.pt ≠ kind.type.toByte then some none
    else do
      let ssrc ← readU32 buffer 4
      let info ← packet.readInfo kind buffer
      { packet with header, ssrc, info }.parseRest kind buffer

end ReportPacket

/-! ### `rtcp::report` -/

/-- `rtcp::report`. -/
structure Report where
  header : RtcpHeader
  ssrc : UInt32 := 0
  info : SenderInfo := {}
  reports : List RtcpReport := []
  extData : List UInt8 := []
  deriving DecidableEq, Repr

namespace Report

/-- `report::parse_sr`, `report::parse_rr`: the extension data stays where the packet has
none. -/
def parseAs (kind : ReportKind) (object : Report) (buffer : List UInt8) : Option (Bool × Report) :=
  match ReportPacket.parse kind (.create kind) buffer with
  | none => none
  | some none => some (false, object)
  | some (some packet) => do
    let reports ← (List.range packet.header.count.toNat).mapM packet.reportAt
    let info := if kind = .sr then packet.info else object.info
    let extData := match packet.extData with
      | some (b :: bs) => b :: bs
      | _ => object.extData
    return (true, { header := packet.header, ssrc := packet.ssrc, info, reports, extData })

def parseSr : Report → List UInt8 → Option (Bool × Report) := parseAs .sr

def parseRr : Report → List UInt8 → Option (Bool × Report) := parseAs .rr

/-- `report::parse`. -/
def parse (object : Report) (buffer : List UInt8) : Option (Bool × Report) :=
  if rtcpType buffer = some RtcpType.rr.toByte then object.parseRr buffer
  else if rtcpType buffer = some RtcpType.sr.toByte then object.parseSr buffer
  else some (false, object)

def addReports (kind : ReportKind) : ReportPacket → List RtcpReport → Option ReportPacket
  | packet, [] => some packet
  | packet, report :: rest =>
    match packet.addReport kind report with
    | none => none
    | some (_, packet') => addReports kind packet' rest

/-- The packet that the fields are copied to. The byte count is not among them. -/
def copied (kind : ReportKind) (object : Report) : ReportPacket where
  header := object.header
  ssrc := object.ssrc
  info := if kind = .sr then { object.info with byteCount := 0 } else {}

/-- The packet in new memory, which holds `fresh`, and all of that memory as the result. -/
def written (kind : ReportKind) (packet : ReportPacket) (fresh : ℕ → UInt8) :
    Option (Option (List UInt8)) :=
  let size := packet.size kind
  (packet.serialize kind size).map (Option.map fun bytes =>
    bytes ++ ((List.range size).map fresh).drop bytes.length)

/-- `report::serialize_sr`, `report::serialize_rr`. -/
def serializeAs (kind : ReportKind) (object : Report) (fresh : ℕ → UInt8) :
    Option (Option (List UInt8)) :=
  match addReports kind (object.copied kind) object.reports with
  | none => none
  | some packet =>
    if object.extData = [] then written kind packet fresh
    else written kind (packet.setExt kind object.extData).2 fresh

def serializeSr : Report → (ℕ → UInt8) → Option (Option (List UInt8)) := serializeAs .sr

def serializeRr : Report → (ℕ → UInt8) → Option (Option (List UInt8)) := serializeAs .rr

/-- `report::serialize`. -/
def serialize (object : Report) (fresh : ℕ → UInt8) : Option (Option (List UInt8)) :=
  if object.header.pt = RtcpType.sr.toByte then object.serializeSr fresh
  else if object.header.pt = RtcpType.rr.toByte then object.serializeRr fresh
  else some none

end Report

/-! ### Blocks and headers round trip -/

theorem toBe32_u32At {buffer : List UInt8} {pos : ℕ} (h : pos + 4 ≤ buffer.length) :
    toBe32 (u32At buffer pos) = (buffer.drop pos).take 4 := by
  obtain ⟨rest, hrest⟩ : ∃ rest, rest = buffer.drop pos := ⟨_, rfl⟩
  have hlen : 4 ≤ rest.length := by rw [hrest, List.length_drop]; omega
  have hget (k : ℕ) : buffer.getD (pos + k) 0 = rest.getD k 0 := by
    rw [hrest, List.getD_eq_getElem?_getD, List.getD_eq_getElem?_getD, List.getElem?_drop]
  match rest, hlen, hrest with
  | a :: b :: c :: d :: rest', _, hrest =>
    rw [u32At, toBe32_be32, ← hrest]
    have h₀ := hget 0
    rw [Nat.add_zero] at h₀
    rw [h₀, hget 1, hget 2, hget 3]
    rfl

/-- One more word of the buffer. -/
theorem take_append_word {buffer : List UInt8} {pos : ℕ} (h : pos + 4 ≤ buffer.length) :
    buffer.take pos ++ toBe32 (u32At buffer pos) = buffer.take (pos + 4) := by
  rw [toBe32_u32At h, List.take_add]

theorem toNat_readU24 (a b c : UInt8) :
    (readU24 a b c).toNat = (a.toNat * 2 ^ 8 + b.toNat) * 2 ^ 8 + c.toNat := by
  have h := toNat_be32 0 a b c
  rw [show be32 0 a b c = readU24 a b c by simp [be32, readU24]] at h
  simpa using h

/-- The number read is the two's complement of the three bytes. -/
theorem readS24_emod (a b c : UInt8) : readS24 a b c % 2 ^ 24 = (readU24 a b c).toNat := by
  have ha := a.toNat_lt
  have hb := b.toNat_lt
  have hc := c.toNat_lt
  have hu := toNat_readU24 a b c
  rw [readS24]
  obtain ⟨u, hread⟩ : ∃ u, u = readU24 a b c := ⟨_, rfl⟩
  rw [← hread] at hu ⊢
  by_cases hsmall : u < 0x800000
  · rw [if_pos hsmall]
    omega
  · rw [if_neg hsmall]
    have hbig : 0x800000 ≤ u.toNat := by
      rw [UInt32.lt_iff_toNat_lt] at hsmall
      exact Nat.le_of_not_lt hsmall
    have hmask : (~~~u &&& 0xffffff).toNat = 2 ^ 24 - 1 - u.toNat := by
      rw [UInt32.toNat_and, UInt32.toNat_not,
        show (0xffffff : UInt32).toNat = 2 ^ 24 - 1 from rfl, Nat.and_two_pow_sub_one_eq_mod]
      norm_num [UInt32.size]
      omega
    rw [UInt32.toNat_add, hmask, show (1 : UInt32).toNat = 1 from rfl]
    omega

/-- Version, padding flag and count make up the first byte. -/
theorem header_byte (b : UInt8) :
    (b >>> 6 <<< 6 ||| if b &&& 0x20 = 0 then 0 else 0x20) ||| b &&& 0x1f = b := by
  revert b
  exact forall_uint8 (by decide +kernel)

theorem RtcpHeader.bytes_of_parse {buffer : List UInt8} {h : RtcpHeader}
    (hparse : parse buffer = some h) : h.bytes = buffer.take 4 := by
  match buffer, hparse with
  | b₀ :: b₁ :: b₂ :: b₃ :: rest, hparse =>
    rw [parse] at hparse
    obtain ⟨-, hsome⟩ := Option.ite_none_right_eq_some.mp hparse
    obtain rfl := Option.some.inj hsome
    simp [bytes, toBe16_be16, header_byte b₀]

def RtcpHeader.ofBytes (buffer : List UInt8) : RtcpHeader where
  version := buffer.getD 0 0 >>> 6
  p := buffer.getD 0 0 &&& 0x20 ≠ 0
  count := buffer.getD 0 0 &&& 0x1f
  pt := buffer.getD 1 0
  length := be16 (buffer.getD 2 0) (buffer.getD 3 0)

theorem RtcpHeader.parse_of_version {buffer : List UInt8} (hlen : 4 ≤ buffer.length)
    (h : buffer.getD 0 0 >>> 6 = 2) : parse buffer = some (ofBytes buffer) := by
  match buffer, hlen with
  | b₀ :: b₁ :: b₂ :: b₃ :: rest, _ => exact if_pos h

def SenderInfo.ofBytes (buffer : List UInt8) : SenderInfo where
  ntpSec := u32At buffer 8
  ntpFrac := u32At buffer 12
  rtpTs := u32At buffer 16
  pktCount := u32At buffer 20
  byteCount := u32At buffer 24

/-! ### Well-formed buffers -/

namespace Report

/-- The count of the header. -/
def blockCount (buffer : List UInt8) : ℕ := (buffer.getD 0 0 &&& 0x1f).toNat

/-- The report blocks that a buffer has room for. -/
def blocks (kind : ReportKind) (buffer : List UInt8) : List RtcpReport :=
  (List.range (blockCount buffer)).map fun i => .ofBytes (buffer.drop (kind.fixed + 24 * i))

def extension (kind : ReportKind) (buffer : List UInt8) : List UInt8 :=
  buffer.drop (kind.fixed + 24 * blockCount buffer)

/-- A report: the length field tells the size, the blocks have room in it and are about
different sources, and the rest is extension data in whole words. -/
structure WellFormed (kind : ReportKind) (buffer : List UInt8) : Prop where
  version : buffer.getD 0 0 >>> 6 = 2
  type : buffer.getD 1 0 = kind.type.toByte
  length : ((be16 (buffer.getD 2 0) (buffer.getD 3 0)).toNat + 1) * 4 = buffer.length
  room : kind.fixed + 24 * blockCount buffer ≤ buffer.length
  distinct : ((blocks kind buffer).map (·.ssrc)).Nodup

end Report

theorem fixed_le (kind : ReportKind) : 8 ≤ kind.fixed := by cases kind <;> decide

theorem parseReports_eq (buffer : List UInt8) (n offset : ℕ) (h : offset + 24 * n ≤ buffer.length) :
    ReportPacket.parseReports buffer n offset =
      some ((List.range n).map fun i => .ofBytes (buffer.drop (offset + 24 * i))) := by
  induction n generalizing offset with
  | zero => rfl
  | succ n ih =>
    have hblock : RtcpReport.parse (buffer.drop offset) = some (.ofBytes (buffer.drop offset)) := by
      rw [RtcpReport.parse, if_neg]
      rw [List.length_drop]
      omega
    rw [ReportPacket.parseReports, hblock, ih (offset + 24) (by omega), List.range_succ_eq_map]
    simp only [Option.map_some, List.map_cons, List.map_map, Nat.mul_zero, Nat.add_zero]
    apply congrArg fun later => some (RtcpReport.ofBytes (buffer.drop offset) :: later)
    apply List.map_congr_left
    intro i _
    rw [Function.comp_apply, show offset + 24 * i.succ = offset + 24 + 24 * i by omega]

theorem mapM_eq_some {α β : Type} {f : α → Option β} {g : α → β} (xs : List α)
    (h : ∀ x ∈ xs, f x = some (g x)) : xs.mapM f = some (xs.map g) := by
  induction xs with
  | nil => rfl
  | cons x xs ih =>
    rw [List.mapM_cons, h x (List.mem_cons_self ..), ih fun y hy => h y (List.mem_cons_of_mem x hy)]
    rfl

theorem SenderInfo.read_eq {buffer : List UInt8} (h : 28 ≤ buffer.length) :
    read buffer = some (ofBytes buffer) := by
  have hword (pos : ℕ) (hpos : pos ≤ 24) : readU32 buffer pos = some (u32At buffer pos) :=
    if_pos (by omega)
  rw [read, hword 8 (by omega), hword 12 (by omega), hword 16 (by omega), hword 20 (by omega),
    hword 24 (by omega)]
  rfl

namespace Report

variable {kind : ReportKind} {buffer : List UInt8}

/-- A report block for each count, and no report array without one. -/
theorem packet_parse (h : WellFormed kind buffer) :
    ReportPacket.parse kind (.create kind) buffer = some (some {
      header := .ofBytes buffer
      ssrc := u32At buffer 4
      info := if kind = .sr then .ofBytes buffer else {}
      reports := if blockCount buffer = 0 then none else some (blocks kind buffer)
      extData := if extension kind buffer = [] then none else some (extension kind buffer) }) := by
  have hroom := h.room
  have hlength := h.length
  have hfixed := fixed_le kind
  have hssrc : readU32 buffer 4 = some (u32At buffer 4) := if_pos (by omega)
  have hinfo : (ReportPacket.create kind).readInfo kind buffer =
      some (if kind = .sr then .ofBytes buffer else {}) := by
    rw [ReportPacket.readInfo]
    by_cases hkind : kind = .sr
    · subst hkind
      exact SenderInfo.read_eq (Nat.le_trans (Nat.le_add_right 28 _) hroom)
    · rw [if_neg hkind, if_neg hkind]
      rfl
  have hblocks : ReportPacket.parseReports buffer (blockCount buffer) kind.fixed =
      some (blocks kind buffer) := parseReports_eq _ _ _ hroom
  have hcount : (RtcpHeader.ofBytes buffer).count.toNat = blockCount buffer := rfl
  have hlen : ((RtcpHeader.ofBytes buffer).length.toNat + 1) * 4 = buffer.length := hlength
  have htype : ¬(RtcpHeader.ofBytes buffer).pt ≠ kind.type.toByte := not_not.mpr h.type
  rw [ReportPacket.parse, RtcpHeader.parse_of_version (by omega) h.version]
  simp only
  rw [if_neg htype, hssrc, hinfo]
  simp only [Option.bind_eq_bind, Option.bind_some]
  rw [ReportPacket.parseRest]
  simp only [hcount, hblocks, hlen, List.take_length]
  by_cases hext : buffer.length = kind.fixed + 24 * blockCount buffer
  · have hnil : extension kind buffer = [] := by
      rw [extension, List.drop_eq_nil_iff]
      omega
    rw [if_pos hext, if_pos hnil]
    rfl
  · have hcons : extension kind buffer ≠ [] := by
      rw [extension, ne_eq, List.drop_eq_nil_iff]
      omega
    rw [if_neg hext, if_pos (by omega), if_neg hcons]
    rfl

theorem rtcpType_of (h : WellFormed kind buffer) : rtcpType buffer = some kind.type.toByte := by
  have hroom := h.room
  have hfixed := fixed_le kind
  rw [rtcpType, if_neg (by omega)]
  simp only [h.type]
  cases kind <;> rfl

/-- A well-formed report is accepted with all of its blocks. -/
theorem parse_wellFormed (h : WellFormed kind buffer) (object : Report) :
    object.parse buffer = some (true, {
      header := .ofBytes buffer
      ssrc := u32At buffer 4
      info := if kind = .sr then .ofBytes buffer else object.info
      reports := blocks kind buffer
      extData := if extension kind buffer = [] then object.extData
        else extension kind buffer }) := by
  have hkind : object.parse buffer = parseAs kind object buffer := by
    rw [parse, rtcpType_of h]
    cases kind <;> rfl
  have hreports (packet : ReportPacket)
      (hr : packet.reports = if blockCount buffer = 0 then none else some (blocks kind buffer)) :
      (List.range (blockCount buffer)).mapM packet.reportAt = some (blocks kind buffer) := by
    apply mapM_eq_some
    intro i hi
    have hi := List.mem_range.mp hi
    rw [ReportPacket.reportAt, hr, if_neg (by omega), Option.bind_some, blocks, List.getElem?_map,
      List.getElem?_range hi, Option.map_some]
  have hcount : (RtcpHeader.ofBytes buffer).count.toNat = blockCount buffer := rfl
  rw [hkind, parseAs, packet_parse h]
  simp only [hcount]
  rw [hreports _ rfl]
  obtain ⟨ext, hext⟩ : ∃ ext, ext = extension kind buffer := ⟨_, rfl⟩
  rw [← hext]
  cases kind <;> cases ext <;> rfl

/-! ### Serializing again -/

theorem mask_ne_full (b : UInt8) : b &&& 0x1f ≠ 0xff := by
  revert b
  exact forall_uint8 (by decide +kernel)

/-- The extension data would be attached to a packet. -/
def Takes (kind : ReportKind) (ext : List UInt8) : Prop :=
  ext ≠ [] ∧ (kind = .sr → ext.length % 4 = 0)

instance (kind : ReportKind) (ext : List UInt8) : Decidable (Takes kind ext) :=
  inferInstanceAs (Decidable (_ ∧ _))

/-- A count without an array: the first report to be added is looked for in an array that was
not allocated. -/
theorem addReports_none {packet : ReportPacket} {report : RtcpReport} (rest : List RtcpReport)
    (hcount : packet.header.count ≠ 0) (hfull : packet.header.count ≠ 0xff)
    (hreports : packet.reports = none) : addReports kind packet (report :: rest) = none := by
  have hfind : packet.findReport report.ssrc = none := by
    obtain ⟨n, hn⟩ : ∃ n, packet.header.count.toNat = n + 1 := by
      apply Nat.exists_eq_succ_of_ne_zero
      intro hzero
      exact hcount (UInt8.toNat_inj.mp hzero)
    rw [ReportPacket.findReport, hn, List.range_succ_eq_map, ReportPacket.findFrom,
      ReportPacket.reportAt, hreports]
    rfl
  rw [addReports, ReportPacket.addReport, if_neg hcount, if_neg hfull, hfind]

/-- What is written in front of report blocks and extension data. -/
def front (kind : ReportKind) (packet : ReportPacket) : List UInt8 :=
  packet.header.bytes ++ toBe32 packet.ssrc ++ (if kind = .sr then packet.info.bytes else [])

theorem length_front (kind : ReportKind) (packet : ReportPacket) :
    (front kind packet).length = kind.fixed := by
  cases kind <;> rfl

theorem size_of_none {packet : ReportPacket} (hcount : packet.header.count = 0)
    (hext : packet.extData = none) : packet.size kind = kind.fixed := by
  rw [ReportPacket.size, hext, hcount]
  rfl

theorem size_of_some {packet : ReportPacket} {ext : List UInt8} (hcount : packet.header.count = 0)
    (hext : packet.extData = some ext) (hmod : ext.length % 4 = 0) :
    packet.size kind = kind.fixed + ext.length := by
  have hfixed : kind.fixed % 4 = 0 := by cases kind <;> rfl
  rw [ReportPacket.size, hext, hcount]
  cases ext with
  | nil => rfl
  | cons b bs =>
    rw [show (0 : UInt8).toNat * 24 = 0 from rfl, Nat.add_zero]
    exact if_pos (by omega)

/-- A packet without reports is written part by part, and the rest of the memory follows. -/
theorem written_eq {packet : ReportPacket} (hcount : packet.header.count = 0)
    (fresh : ℕ → UInt8) :
    written kind packet fresh = some (some (front kind packet ++ packet.extData.getD [] ++
      ((List.range (packet.size kind)).map fresh).drop
        (kind.fixed + (packet.extData.getD []).length))) := by
  have hsize : 4 ≤ packet.size kind := by
    have hfixed := fixed_le kind
    rw [ReportPacket.size]
    split
    · simp only
      split_ifs <;> omega
    · omega
  have hserialize : packet.serialize kind (packet.size kind) =
      some (some (front kind packet ++ packet.extData.getD [])) := by
    rw [ReportPacket.serialize, if_neg (Nat.lt_irrefl _), RtcpHeader.serialize,
      if_neg (by omega)]
    simp only [hcount]
    rfl
  rw [written, hserialize, Option.map_some, Option.map_some, List.length_append, length_front]

theorem drop_fresh (fresh : ℕ → UInt8) (n : ℕ) : ((List.range n).map fresh).drop n = [] := by
  rw [List.drop_eq_nil_iff, List.length_map, List.length_range]

variable {object : Report}

theorem serializeAs_of_not_takes (fresh : ℕ → UInt8) (hcount : object.header.count = 0)
    (hreports : object.reports = []) (h : ¬Takes kind object.extData) :
    object.serializeAs kind fresh = some (some (front kind (object.copied kind))) := by
  have hplain : written kind (object.copied kind) fresh =
      some (some (front kind (object.copied kind))) := by
    rw [written_eq hcount, size_of_none hcount rfl]
    exact congrArg (fun rest => some (some rest)) (by
      rw [show (object.copied kind).extData.getD [] = [] from rfl, List.length_nil, Nat.add_zero,
        drop_fresh, List.append_nil, List.append_nil])
  rw [serializeAs, hreports]
  simp only [addReports]
  by_cases hnil : object.extData = []
  · rw [if_pos hnil, hplain]
  · have hodd : kind = .sr ∧ object.extData.length % 4 ≠ 0 := by
      by_contra hno
      apply h
      refine ⟨hnil, fun hsr => ?_⟩
      by_contra hrest
      exact hno ⟨hsr, hrest⟩
    rw [if_neg hnil, ReportPacket.setExt, if_pos hodd, hplain]

/-- The packet with the extension data. -/
def attached (kind : ReportKind) (object : Report) : ReportPacket :=
  .updateLength kind { object.copied kind with extData := some object.extData }

theorem serializeAs_of_takes (fresh : ℕ → UInt8) (hreports : object.reports = [])
    (h : Takes kind object.extData) :
    object.serializeAs kind fresh = written kind (object.attached kind) fresh := by
  have hset : (object.copied kind).setExt kind object.extData = (0, object.attached kind) := by
    have hsize : ¬(kind = .sr ∧ object.extData.length % 4 ≠ 0) :=
      fun hodd => hodd.2 (h.2 hodd.1)
    have hfree : ¬(object.copied kind).extData ≠ none := not_not.mpr rfl
    rw [ReportPacket.setExt, if_neg hsize, if_neg hfree]
    rfl
  rw [serializeAs, hreports]
  simp only [addReports]
  rw [if_neg h.1, hset]

/-- The front of a parsed report comes back except for the byte count. -/
theorem front_eq_iff (h : WellFormed kind buffer) (packet : ReportPacket)
    (hheader : packet.header = .ofBytes buffer) (hssrc : packet.ssrc = u32At buffer 4)
    (hinfo : packet.info = if kind = .sr then { SenderInfo.ofBytes buffer with byteCount := 0 }
      else {}) :
    front kind packet = buffer.take kind.fixed ↔ (kind = .sr → u32At buffer 24 = 0) := by
  have hroom := h.room
  have hfixed := fixed_le kind
  have hbytes : (RtcpHeader.ofBytes buffer).bytes = buffer.take 4 :=
    RtcpHeader.bytes_of_parse (RtcpHeader.parse_of_version (by omega) h.version)
  rw [front, hheader, hssrc, hinfo, hbytes, take_append_word (by omega)]
  cases kind with
  | rr => simp [ReportKind.fixed]
  | sr =>
    have hlen : 28 ≤ buffer.length := Nat.le_trans (Nat.le_add_right _ _) hroom
    have hfront : buffer.take 8 ++
        ({ SenderInfo.ofBytes buffer with byteCount := 0 } : SenderInfo).bytes =
          buffer.take 24 ++ toBe32 0 := by
      simp only [SenderInfo.bytes, SenderInfo.ofBytes]
      rw [← List.append_assoc, ← List.append_assoc, ← List.append_assoc, ← List.append_assoc,
        take_append_word (by omega), take_append_word (by omega), take_append_word (by omega),
        take_append_word (by omega)]
    have hlast : buffer.take 24 ++ toBe32 (u32At buffer 24) = buffer.take ReportKind.sr.fixed :=
      take_append_word (by omega)
    rw [if_pos rfl, if_pos rfl, hfront, ← hlast, List.append_cancel_left_eq]
    constructor
    · intro heq _
      have hread := congrArg (fun bytes => u32At bytes 0) heq
      have hzero : be32 0 0 0 0 = 0 := by decide
      simpa [u32At, toBe32, hzero] using hread.symm
    · intro hzero
      rw [hzero rfl]

theorem copied_info {object : Report} (hinfo : kind = .sr → object.info = .ofBytes buffer) :
    (object.copied kind).info =
      if kind = .sr then { SenderInfo.ofBytes buffer with byteCount := 0 } else {} := by
  by_cases hkind : kind = .sr
  · rw [copied, hinfo hkind]
  · rw [copied, if_neg hkind, if_neg hkind]

/-- The extension data of a longer buffer is attached, and the length comes out as it was. -/
theorem attached_longer (h : WellFormed kind buffer) {object : Report}
    (hheader : object.header = .ofBytes buffer) (hcount : object.header.count = 0)
    (hdata : object.extData = buffer.drop kind.fixed) (hlen : kind.fixed < buffer.length) :
    Takes kind object.extData ∧ (object.attached kind).header = .ofBytes buffer ∧
      (object.attached kind).size kind = buffer.length := by
  have hlength := h.length
  have hfixed : kind.fixed % 4 = 0 := by cases kind <;> rfl
  have hmod : object.extData.length % 4 = 0 := by
    rw [hdata, List.length_drop]
    omega
  have hcons : object.extData ≠ [] := by
    rw [hdata, ne_eq, List.drop_eq_nil_iff]
    omega
  have hsize : ({ object.copied kind with extData := some object.extData } :
      ReportPacket).size kind = buffer.length := by
    rw [size_of_some hcount rfl hmod, hdata, List.length_drop]
    omega
  have hword : UInt16.ofNat (buffer.length / 4 - 1) =
      be16 (buffer.getD 2 0) (buffer.getD 3 0) := by
    rw [← hlength, Nat.mul_div_cancel _ (by omega), Nat.add_sub_cancel, UInt16.ofNat_toNat]
  refine ⟨⟨hcons, fun _ => hmod⟩, ?_, ?_⟩
  · rw [attached, ReportPacket.updateLength, hsize, hword]
    simp only [copied, hheader]
    rfl
  · rw [← hsize]
    rfl

/-- A buffer with extension data and without report blocks. -/
theorem serializeAs_longer (h : WellFormed kind buffer) (fresh : ℕ → UInt8) {object : Report}
    (hheader : object.header = .ofBytes buffer) (hcount : object.header.count = 0)
    (hssrc : object.ssrc = u32At buffer 4) (hinfo : kind = .sr → object.info = .ofBytes buffer)
    (hreports : object.reports = []) (hdata : object.extData = buffer.drop kind.fixed)
    (hlen : kind.fixed < buffer.length) :
    object.serializeAs kind fresh = some (some buffer) ↔ (kind = .sr → u32At buffer 24 = 0) := by
  obtain ⟨htakes, hpacket, hsize⟩ := attached_longer h hheader hcount hdata hlen
  have hattached : (object.attached kind).extData.getD [] = buffer.drop kind.fixed := hdata
  have hfront := front_eq_iff h (object.attached kind) hpacket hssrc (copied_info hinfo)
  rw [serializeAs_of_takes fresh hreports htakes, written_eq hcount, hsize, hattached,
    List.length_drop, Nat.add_sub_cancel' (by omega), drop_fresh, List.append_nil,
    Option.some_inj, Option.some_inj]
  constructor
  · intro hsame
    have htake := congrArg (List.take kind.fixed) hsame
    rw [List.take_left' (length_front ..)] at htake
    exact hfront.mp htake
  · intro hzero
    rw [hfront.mpr hzero, List.take_append_drop]

/-- Extension data that is left from an earlier packet makes the result longer. -/
theorem serializeAs_stale (fresh : ℕ → UInt8) {object : Report} (hcount : object.header.count = 0)
    (hreports : object.reports = []) (htakes : Takes kind object.extData)
    (hlen : buffer.length = kind.fixed) : object.serializeAs kind fresh ≠ some (some buffer) := by
  have hpos : 0 < object.extData.length := List.length_pos_iff.mpr htakes.1
  intro hsame
  rw [serializeAs_of_takes fresh hreports htakes, written_eq hcount] at hsame
  have hsize := congrArg List.length (Option.some.inj (Option.some.inj hsame))
  rw [List.length_append, List.length_append, length_front,
    show (object.attached kind).extData.getD [] = object.extData from rfl] at hsize
  omega

/-- Without report blocks. -/
theorem serializeAs_eq_iff (h : WellFormed kind buffer) (hnone : blockCount buffer = 0)
    (fresh : ℕ → UInt8) {object : Report} (hheader : object.header = .ofBytes buffer)
    (hssrc : object.ssrc = u32At buffer 4)
    (hinfo : kind = .sr → object.info = .ofBytes buffer) (hreports : object.reports = [])
    (hext : extension kind buffer ≠ [] → object.extData = extension kind buffer) :
    object.serializeAs kind fresh = some (some buffer) ↔
      (kind = .sr → u32At buffer 24 = 0) ∧
        (buffer.length = kind.fixed → ¬Takes kind object.extData) := by
  have hroom := h.room
  have hcount : object.header.count = 0 := by
    rw [hheader]
    exact UInt8.toNat_inj.mp hnone
  by_cases hlen : buffer.length = kind.fixed
  · by_cases htakes : Takes kind object.extData
    · exact iff_of_false (serializeAs_stale fresh hcount hreports htakes hlen)
        fun hgood => hgood.2 hlen htakes
    · have hfront := front_eq_iff h (object.copied kind) hheader hssrc (copied_info hinfo)
      rw [← hlen, List.take_length] at hfront
      rw [serializeAs_of_not_takes fresh hcount hreports htakes, Option.some_inj, Option.some_inj,
        hfront]
      exact (and_iff_left fun _ => htakes).symm
  · have hext' : extension kind buffer = buffer.drop kind.fixed := by
      rw [extension, hnone, Nat.mul_zero, Nat.add_zero]
    have hcons : extension kind buffer ≠ [] := by
      rw [hext', ne_eq, List.drop_eq_nil_iff]
      omega
    rw [serializeAs_longer h fresh hheader hcount hssrc hinfo hreports ((hext hcons).trans hext')
      (by omega)]
    exact (and_iff_left fun hshort => absurd hshort hlen).symm

/-- With report blocks, serializing a parsed report reads an array that was not allocated. -/
theorem serializeAs_blocks (hblocks : blockCount buffer ≠ 0) (fresh : ℕ → UInt8)
    {object : Report} (hheader : object.header = .ofBytes buffer)
    (hreports : object.reports = blocks kind buffer) :
    object.serializeAs kind fresh = none := by
  have hcount : object.header.count ≠ 0 := by
    intro hzero
    rw [hheader] at hzero
    exact hblocks (UInt8.toNat_inj.mpr hzero)
  have hfull : object.header.count ≠ 0xff := by
    rw [hheader]
    exact mask_ne_full (buffer.getD 0 0)
  obtain ⟨first, rest, hlist⟩ : ∃ first rest, blocks kind buffer = first :: rest := by
    apply List.exists_cons_of_ne_nil
    rw [blocks, ne_eq, List.map_eq_nil_iff, List.range_eq_nil]
    exact hblocks
  have hadd : addReports kind (object.copied kind) (first :: rest) = none :=
    addReports_none rest hcount hfull rfl
  rw [serializeAs, hreports, hlist, hadd]

/-- A parsed report is serialized to the bytes it came from exactly when it has no report
blocks, an SR says that no bytes were sent, and no extension data of an earlier packet is left
in the object. -/
theorem reproduces_iff (h : WellFormed kind buffer) (object : Report) (fresh : ℕ → UInt8) :
    (∃ parsed, object.parse buffer = some (true, parsed) ∧
      parsed.serialize fresh = some (some buffer)) ↔
      blockCount buffer = 0 ∧ (kind = .sr → u32At buffer 24 = 0) ∧
        (buffer.length = kind.fixed → ¬Takes kind object.extData) := by
  have hserialize {parsed : Report} (hheader : parsed.header = .ofBytes buffer) :
      parsed.serialize fresh = parsed.serializeAs kind fresh := by
    have htype : parsed.header.pt = kind.type.toByte := by rw [hheader]; exact h.type
    rw [serialize, htype]
    cases kind <;> rfl
  simp only [parse_wellFormed h object, Option.some_inj, Prod.mk.injEq, true_and,
    exists_eq_left']
  rw [hserialize rfl]
  by_cases hblocks : blockCount buffer = 0
  · have hnil : blocks kind buffer = [] := by rw [blocks, hblocks]; rfl
    rw [serializeAs_eq_iff h hblocks fresh rfl rfl (fun hkind => if_pos hkind) hnil
      fun hext => if_neg hext]
    have hfixed : buffer.length = kind.fixed → extension kind buffer = [] := by
      intro hlen
      rw [extension, List.drop_eq_nil_iff]
      omega
    constructor
    · rintro ⟨hbytes, hstale⟩
      refine ⟨hblocks, hbytes, fun hlen => ?_⟩
      have hleft := hstale hlen
      rwa [if_pos (hfixed hlen)] at hleft
    · rintro ⟨-, hbytes, hstale⟩
      refine ⟨hbytes, fun hlen => ?_⟩
      rw [if_pos (hfixed hlen)]
      exact hstale hlen
  · rw [serializeAs_blocks hblocks fresh rfl rfl]
    exact iff_of_false (fun hsome => Option.some_ne_none _ hsome.symm) fun hgood => hblocks hgood.1

/-- An RR without blocks, with one word of extension data. -/
private def extendedRr : List UInt8 := [0x80, 201, 0, 2, 0, 0, 0, 1, 1, 2, 3, 4]

theorem reproduces_iff_extended : ∃ parsed, ({ header := .ofBytes [] } : Report).parse extendedRr =
      some (true, parsed) ∧ parsed.serialize (fun _ => 0) = some (some extendedRr) :=
  have h : WellFormed .rr extendedRr := ⟨by decide, by decide, by decide, by decide, by decide⟩
  (reproduces_iff h _ _).mpr ⟨by decide, by decide, by decide⟩

/-- An RR with one block. -/
private def oneBlockRr : List UInt8 :=
  [0x81, 201, 0, 7, 0, 0, 0, 1, 0, 0, 0, 2] ++ List.replicate 20 0

/-- An SR without blocks that reports 256 bytes. -/
private def plainSr : List UInt8 :=
  [0x80, 200, 0, 6, 0, 0, 0, 1] ++ List.replicate 18 0 ++ [1, 0]

/-- The block of the RR is added to an array that was not allocated, and the SR comes back
without its byte count. -/
theorem reproduces_fails : WellFormed .rr oneBlockRr ∧ WellFormed .sr plainSr ∧
    (({ header := .ofBytes [] } : Report).parse oneBlockRr).bind
      (fun result => result.2.serialize fun _ => 0) = none ∧
    (({ header := .ofBytes [] } : Report).parse plainSr).bind
      (fun result => result.2.serialize fun _ => 0) ≠ some (some plainSr) :=
  ⟨⟨by decide, by decide, by decide, by decide, by decide⟩,
    ⟨by decide, by decide, by decide, by decide, by decide⟩, by decide, by decide⟩

end Report

end CxxDeps.Rtp
