import Mathlib.Data.List.Basic
import CxxDeps.Library.BigEndian
import CxxDeps.Rtp.Receiver

/-! Incoming RTCP. `transport::handle_rtp_message` tells what a datagram is and calls
back `rtp_session`, which finds the media stream by an SSRC. The parsers of single
packets are parameters, as are the functions of the SRTP library. -/

namespace CxxDeps.Rtp

open Library

/-- `rtcp_packet_type`. -/
inductive RtcpType
  | sr | rr | sdes | bye | app | rtpfb | psfb
  deriving DecidableEq, Repr

def RtcpType.toByte : RtcpType → UInt8
  | .sr => 200
  | .rr => 201
  | .sdes => 202
  | .bye => 203
  | .app => 204
  | .rtpfb => 205
  | .psfb => 206

/-- The types that `detect_rtcp_packet` lets through. -/
def RtcpType.ofByte (b : UInt8) : Option RtcpType :=
  [.app, .bye, .rr, .sr, .sdes, .psfb, .rtpfb].find? fun t : RtcpType => t.toByte == b

@[simp] theorem RtcpType.ofByte_toByte (t : RtcpType) : ofByte t.toByte = some t := by
  cases t <;> rfl

/-- `rtcp_header`. -/
structure RtcpHeader where
  version : UInt8
  p : Bool
  count : UInt8
  pt : UInt8
  length : UInt16
  deriving DecidableEq, Repr

/-- `rtcp_header_parse`. -/
def RtcpHeader.parse : List UInt8 → Option RtcpHeader
  | b₀ :: b₁ :: b₂ :: b₃ :: _ =>
    if b₀ >>> 6 = 2 then
      some ⟨b₀ >>> 6, b₀ &&& 0x20 ≠ 0, b₀ &&& 0x1f, b₁, be16 b₂ b₃⟩
    else none
  | _ => none

theorem RtcpHeader.parse_append {bytes : List UInt8} {hdr : RtcpHeader}
    (h : parse bytes = some hdr) (rest : List UInt8) : parse (bytes ++ rest) = some hdr := by
  match bytes, h with
  | b₀ :: b₁ :: b₂ :: b₃ :: tail, h => exact h

/-- The first four bytes decide. -/
theorem RtcpHeader.parse_congr {buffer plain : List UInt8} (h : buffer.take 4 = plain.take 4)
    {hdr : RtcpHeader} (hparse : parse plain = some hdr) : parse buffer = some hdr := by
  match plain, hparse with
  | b₀ :: b₁ :: b₂ :: b₃ :: tail, hparse =>
    rw [← List.take_append_drop 4 buffer, h]
    exact hparse

/-! ### The packets -/

/-- `rtcp_report`. -/
structure RtcpReport where
  ssrc : UInt32
  fraction : UInt8 := 0
  lost : ℤ := 0
  lastSeq : UInt32 := 0
  jitter : UInt32 := 0
  lsr : UInt32 := 0
  dlsr : UInt32 := 0
  deriving DecidableEq, Repr

/-- `rtcp_sr`. -/
structure RtcpSr where
  ssrc : UInt32
  ntpSec : UInt32 := 0
  ntpFrac : UInt32 := 0
  rtpTs : UInt32 := 0
  pktCount : UInt32 := 0
  byteCount : UInt32 := 0
  reports : List RtcpReport := []
  extData : List UInt8 := []
  deriving DecidableEq, Repr

/-- `rtcp_rr`. -/
structure RtcpRr where
  ssrc : UInt32
  reports : List RtcpReport := []
  extData : List UInt8 := []
  deriving DecidableEq, Repr

/-- `rtcp_sdes_entry`, with the type and the data of its items. -/
structure RtcpSdesEntry where
  id : UInt32
  items : List (UInt8 × List UInt8) := []
  deriving DecidableEq, Repr

/-- `rtcp_bye`. -/
structure RtcpBye where
  srcIds : List UInt32
  message : Option (List UInt8) := none
  deriving DecidableEq, Repr

/-- `rtcp_app`. -/
structure RtcpApp where
  subtype : UInt8
  ssrc : UInt32
  name : UInt32
  appData : List UInt8 := []
  deriving DecidableEq, Repr

/-- `rtcp_fb`, with the type and the subtype of its header. -/
structure RtcpFb where
  payloadSpecific : Bool
  subtype : UInt8
  ssrcSender : UInt32
  ssrcMedia : UInt32
  fci : List UInt8 := []
  deriving DecidableEq, Repr

inductive Rtcp
  | sr (sr : RtcpSr)
  | rr (rr : RtcpRr)
  | sdes (srcs : List RtcpSdesEntry)
  | bye (bye : RtcpBye)
  | app (app : RtcpApp)
  | fb (fb : RtcpFb)
  deriving DecidableEq, Repr

def Rtcp.type : Rtcp → RtcpType
  | .sr _ => .sr
  | .rr _ => .rr
  | .sdes _ => .sdes
  | .bye _ => .bye
  | .app _ => .app
  | .fb packet => if packet.payloadSpecific then .psfb else .rtpfb

/-- The parsers of `rtpx/rtp` and `packet::parse`. -/
structure Parsers where
  rtcpSrParse : List UInt8 → Option RtcpSr
  rtcpRrParse : List UInt8 → Option RtcpRr
  rtcpSdesParse : List UInt8 → Option (List RtcpSdesEntry)
  rtcpByeParse : List UInt8 → Option RtcpBye
  rtcpAppParse : List UInt8 → Option RtcpApp
  rtcpFbParse : List UInt8 → Option RtcpFb
  packetParse : List UInt8 → Option Packet

/-- The parser for a type of packet. -/
def Parsers.parse (parsers : Parsers) (buffer : List UInt8) : RtcpType → Option Rtcp
  | .sr => (parsers.rtcpSrParse buffer).map .sr
  | .rr => (parsers.rtcpRrParse buffer).map .rr
  | .sdes => (parsers.rtcpSdesParse buffer).map .sdes
  | .bye => (parsers.rtcpByeParse buffer).map .bye
  | .app => (parsers.rtcpAppParse buffer).map .app
  | .rtpfb | .psfb => (parsers.rtcpFbParse buffer).map .fb

/-! ### The transport -/

/-- The callbacks of `transport` for RTP and RTCP. -/
inductive Callback
  | onRtpPacket (pkt : Packet)
  | onRtcpSr (sr : RtcpSr)
  | onRtcpRr (rr : RtcpRr)
  | onRtcpSdes (entry : RtcpSdesEntry)
  | onRtcpBye (ssrc : UInt32) (reason : Option (List UInt8))
  | onRtcpApp (app : RtcpApp)
  | onRtcpFb (fb : RtcpFb)
  deriving DecidableEq, Repr

def detectRtcpPacket (buffer : List UInt8) : Option RtcpHeader :=
  (RtcpHeader.parse buffer).filter fun hdr => (RtcpType.ofByte hdr.pt).isSome

def handleRtcpSdes (srcs : List RtcpSdesEntry) : List Callback := srcs.map .onRtcpSdes

def handleRtcpBye (bye : RtcpBye) : List Callback :=
  bye.srcIds.map fun ssrc => .onRtcpBye ssrc bye.message

/-- `handle_rtcp_message`, with the callbacks it makes. -/
def handleRtcpMessage (parsers : Parsers) (buffer : List UInt8) (hdr : RtcpHeader) :
    List Callback :=
  match RtcpType.ofByte hdr.pt with
  | some .rr => (parsers.rtcpRrParse buffer).elim [] fun rr => [.onRtcpRr rr]
  | some .sr => (parsers.rtcpSrParse buffer).elim [] fun sr => [.onRtcpSr sr]
  | some .rtpfb | some .psfb => (parsers.rtcpFbParse buffer).elim [] fun fb => [.onRtcpFb fb]
  | some .sdes => (parsers.rtcpSdesParse buffer).elim [] handleRtcpSdes
  | some .bye => (parsers.rtcpByeParse buffer).elim [] handleRtcpBye
  | some .app => (parsers.rtcpAppParse buffer).elim [] fun app => [.onRtcpApp app]
  | none => []

/-- `srtp_in_`: `srtp_unprotect_rtcp` and `srtp_unprotect`. -/
structure Srtp where
  unprotectRtcp : List UInt8 → Option (List UInt8)
  unprotect : List UInt8 → Option (List UInt8)

/-- `handle_rtp_message`. -/
def handleRtpMessage (parsers : Parsers) (srtpIn : Option Srtp) (buffer : List UInt8) :
    List Callback :=
  match detectRtcpPacket buffer with
  | some hdr =>
    let plain := srtpIn.elim (some buffer) fun srtp => srtp.unprotectRtcp buffer
    plain.elim [] fun plain => handleRtcpMessage parsers plain hdr
  | none =>
    let plain := srtpIn.elim (some buffer) fun srtp => srtp.unprotect buffer
    (plain.bind parsers.packetParse).elim [] fun pkt => [.onRtpPacket pkt]

/-! ### The session -/

/-- The SSRCs of `media_stream`. -/
structure MediaStream where
  localRtpSsrc : UInt32
  localRtxSsrc : UInt32
  remoteRtpSsrc : UInt32
  remoteRtxSsrc : UInt32
  deriving DecidableEq, Repr

/-- `get_media_stream_by_remote_ssrc`, with the stream's place among `media_streams_`. -/
def getMediaStreamByRemoteSsrc (streams : List MediaStream) (ssrc : UInt32) : Option ℕ :=
  streams.findIdx? fun ms => ms.remoteRtpSsrc == ssrc || ms.remoteRtxSsrc == ssrc

def getMediaStreamByLocalSsrc (streams : List MediaStream) (ssrc : UInt32) : Option ℕ :=
  streams.findIdx? fun ms => ms.localRtpSsrc == ssrc || ms.localRtxSsrc == ssrc

/-- What `media_stream` receives. -/
inductive Receipt
  | rtpPacket (pkt : Packet)
  | rtcpSr (sr : RtcpSr)
  | rtcpRr (report : RtcpReport)
  | rtcpSdes (entry : RtcpSdesEntry)
  | rtcpBye (ssrc : UInt32) (reason : Option (List UInt8))
  | rtcpApp (app : RtcpApp)
  | rtcpFeedback (fb : RtcpFb)
  deriving DecidableEq, Repr

inductive SessionEvent
  | received (stream : ℕ) (receipt : Receipt)
  | disconnected
  deriving DecidableEq, Repr

/-- A stream receives something, if there is one. -/
def received (ms : Option ℕ) (receipt : Receipt) : List SessionEvent :=
  ms.elim [] fun i => [.received i receipt]

/-- The `handle_` functions of `rtp_session` that the callbacks are bound to. -/
def handleCallback (streams : List MediaStream) : Callback → List SessionEvent
  | .onRtpPacket pkt => received (getMediaStreamByRemoteSsrc streams pkt.ssrc) (.rtpPacket pkt)
  | .onRtcpApp app => received (getMediaStreamByRemoteSsrc streams app.ssrc) (.rtcpApp app)
  | .onRtcpBye ssrc reason =>
    received (getMediaStreamByRemoteSsrc streams ssrc) (.rtcpBye ssrc reason) ++ [.disconnected]
  | .onRtcpSr sr => received (getMediaStreamByRemoteSsrc streams sr.ssrc) (.rtcpSr sr)
  | .onRtcpRr rr => rr.reports.flatMap fun report =>
    received (getMediaStreamByLocalSsrc streams report.ssrc) (.rtcpRr report)
  | .onRtcpSdes entry => received (getMediaStreamByLocalSsrc streams entry.id) (.rtcpSdes entry)
  | .onRtcpFb fb => received (getMediaStreamByLocalSsrc streams fb.ssrcMedia) (.rtcpFeedback fb)

/-! ### Compound packets -/

/-- The callbacks that a packet is worth. -/
def Rtcp.callbacks : Rtcp → List Callback
  | .sr packet => [.onRtcpSr packet]
  | .rr packet => [.onRtcpRr packet]
  | .sdes srcs => handleRtcpSdes srcs
  | .bye packet => handleRtcpBye packet
  | .app packet => [.onRtcpApp packet]
  | .fb packet => [.onRtcpFb packet]

/-- An SDES or a BYE without sources, which calls no handler. -/
def Rtcp.Sourceless : Rtcp → Prop
  | .sdes srcs => srcs = []
  | .bye packet => packet.srcIds = []
  | _ => False

theorem Rtcp.callbacks_eq_nil {packet : Rtcp} : packet.callbacks = [] ↔ packet.Sourceless := by
  cases packet <;> simp [callbacks, Sourceless, handleRtcpSdes, handleRtcpBye]

/-- The bytes are the packet: its header has the type and the length, and its parser
finds it at the start of a buffer. -/
structure Parsers.Encodes (parsers : Parsers) (bytes : List UInt8) (packet : Rtcp) : Prop where
  header : ∃ hdr, RtcpHeader.parse bytes = some hdr ∧ hdr.pt = packet.type.toByte ∧
    bytes.length = 4 * (hdr.length.toNat + 1)
  parsed : ∀ rest, parsers.parse (bytes ++ rest) packet.type = some packet

/-- `buffer` is the datagram `plain`, protected if there is SRTP, which leaves the header
in the clear. -/
def Carries (srtpIn : Option Srtp) (buffer plain : List UInt8) : Prop :=
  match srtpIn with
  | none => buffer = plain
  | some srtp => srtp.unprotectRtcp buffer = some plain ∧ buffer.take 4 = plain.take 4

theorem carries_none {buffer plain : List UInt8} : Carries none buffer plain ↔ buffer = plain :=
  Iff.rfl

/-- The stream that a callback concerns receives it: the one with the remote SSRC for
what the sender states of itself, the one with the local SSRC for what it reports. -/
def Routed (streams : List MediaStream) (callback : Callback) : Prop :=
  let events := handleCallback streams callback
  match callback with
  | .onRtpPacket pkt =>
    events = received (getMediaStreamByRemoteSsrc streams pkt.ssrc) (.rtpPacket pkt)
  | .onRtcpSr sr => events = received (getMediaStreamByRemoteSsrc streams sr.ssrc) (.rtcpSr sr) ∧
    ∀ report ∈ sr.reports, ∀ i, getMediaStreamByLocalSsrc streams report.ssrc = some i →
      .received i (.rtcpSr sr) ∈ events
  | .onRtcpRr rr => events = rr.reports.flatMap fun report =>
    received (getMediaStreamByLocalSsrc streams report.ssrc) (.rtcpRr report)
  | .onRtcpSdes entry =>
    events = received (getMediaStreamByRemoteSsrc streams entry.id) (.rtcpSdes entry)
  | .onRtcpBye ssrc reason => events =
    received (getMediaStreamByRemoteSsrc streams ssrc) (.rtcpBye ssrc reason) ++ [.disconnected]
  | .onRtcpApp app => events = received (getMediaStreamByRemoteSsrc streams app.ssrc) (.rtcpApp app)
  | .onRtcpFb fb =>
    events = received (getMediaStreamByLocalSsrc streams fb.ssrcMedia) (.rtcpFeedback fb)

/-- Every packet is handed to its handler once and in order, and reaches the stream
that it concerns. -/
def FullyProcessed (parsers : Parsers) (srtpIn : Option Srtp) (streams : List MediaStream)
    (buffer : List UInt8) (packets : List Rtcp) : Prop :=
  handleRtpMessage parsers srtpIn buffer = packets.flatMap Rtcp.callbacks ∧
    ∀ callback ∈ packets.flatMap Rtcp.callbacks, Routed streams callback

/-- An SDES source has the same stream by either lookup, and the reports of an SR are
for the stream that has its SSRC. -/
def SameStream (streams : List MediaStream) : Callback → Prop
  | .onRtcpSdes entry =>
    getMediaStreamByLocalSsrc streams entry.id = getMediaStreamByRemoteSsrc streams entry.id
  | .onRtcpSr sr => ∀ report ∈ sr.reports, ∀ i,
    getMediaStreamByLocalSsrc streams report.ssrc = some i →
      getMediaStreamByRemoteSsrc streams sr.ssrc = some i
  | _ => True

theorem received_inj {ms ms' : Option ℕ} {receipt : Receipt} :
    received ms receipt = received ms' receipt ↔ ms = ms' := by
  cases ms <;> cases ms' <;> simp [received]

theorem mem_received {ms : Option ℕ} {receipt : Receipt} {i : ℕ} :
    .received i receipt ∈ received ms receipt ↔ ms = some i := by
  cases ms <;> simp [received, eq_comm]

theorem routed_iff (streams : List MediaStream) (callback : Callback) :
    Routed streams callback ↔ SameStream streams callback := by
  cases callback with
  | onRtcpSdes entry => exact received_inj
  | onRtcpSr sr =>
    simp only [Routed, SameStream, handleCallback, true_and, mem_received]
  | _ => exact iff_of_true rfl trivial

theorem handleRtcpMessage_eq {parsers : Parsers} {buffer : List UInt8} {hdr : RtcpHeader}
    {packet : Rtcp} (hpt : hdr.pt = packet.type.toByte)
    (hparsed : parsers.parse buffer packet.type = some packet) :
    handleRtcpMessage parsers buffer hdr = packet.callbacks := by
  rw [handleRtcpMessage, hpt, RtcpType.ofByte_toByte]
  cases packet with
  | fb packet =>
    rw [Rtcp.type] at hparsed ⊢
    split at hparsed <;> next hp =>
      obtain ⟨fb, hfb, heq⟩ := Option.map_eq_some_iff.mp hparsed
      cases heq
      simp only [hp, if_true, hfb]
      rfl
  | _ =>
    obtain ⟨parsed, hsome, heq⟩ := Option.map_eq_some_iff.mp hparsed
    cases heq
    simp only [Rtcp.type, hsome]
    rfl

/-- Only the packet at the start of the datagram is handled. -/
theorem handleRtpMessage_eq {parsers : Parsers} {srtpIn : Option Srtp}
    {buffer bytes rest : List UInt8} {packet : Rtcp} (h : parsers.Encodes bytes packet)
    (hcarries : Carries srtpIn buffer (bytes ++ rest)) :
    handleRtpMessage parsers srtpIn buffer = packet.callbacks := by
  obtain ⟨hdr, hparse, hpt, -⟩ := h.header
  have hplain : RtcpHeader.parse buffer = some hdr ∧
      (srtpIn.elim (some buffer) fun srtp => srtp.unprotectRtcp buffer) = some (bytes ++ rest) := by
    cases srtpIn with
    | none =>
      have hbuffer : buffer = bytes ++ rest := hcarries
      exact ⟨hbuffer ▸ RtcpHeader.parse_append hparse rest, congrArg some hbuffer⟩
    | some srtp =>
      exact ⟨RtcpHeader.parse_congr hcarries.2 (RtcpHeader.parse_append hparse rest), hcarries.1⟩
  have hdetect : detectRtcpPacket buffer = some hdr := by
    simp [detectRtcpPacket, hplain.1, hpt]
  rw [handleRtpMessage, hdetect]
  simp only [hplain.2, Option.elim_some]
  exact handleRtcpMessage_eq hpt (h.parsed rest)

/-- A compound datagram is fully processed just when the packets after its first call no
handler, and the callbacks of the first find the stream that they concern. -/
theorem fully_processed_iff {parsers : Parsers} {srtpIn : Option Srtp}
    (streams : List MediaStream) {buffer : List UInt8} {first : List UInt8 × Rtcp}
    {rest : List (List UInt8 × Rtcp)}
    (hencodes : ∀ unit ∈ first :: rest, parsers.Encodes unit.1 unit.2)
    (hcarries : Carries srtpIn buffer ((first :: rest).flatMap Prod.fst)) :
    FullyProcessed parsers srtpIn streams buffer ((first :: rest).map Prod.snd) ↔
      (∀ unit ∈ rest, unit.2.Sourceless) ∧
        ∀ callback ∈ first.2.callbacks, SameStream streams callback := by
  have hfirst := hencodes first List.mem_cons_self
  have hhandled : handleRtpMessage parsers srtpIn buffer = first.2.callbacks :=
    handleRtpMessage_eq hfirst hcarries
  have hcalls : ((first :: rest).map Prod.snd).flatMap Rtcp.callbacks =
      first.2.callbacks ++ (rest.map Prod.snd).flatMap Rtcp.callbacks := rfl
  have hrest : (rest.map Prod.snd).flatMap Rtcp.callbacks = [] ↔
      ∀ unit ∈ rest, unit.2.Sourceless := by
    rw [List.flatMap_eq_nil_iff]
    simp only [List.forall_mem_map, Rtcp.callbacks_eq_nil]
  rw [FullyProcessed, hhandled, hcalls, List.self_eq_append_right, hrest]
  simp only [routed_iff]
  constructor
  · intro ⟨hsourceless, hsame⟩
    exact ⟨hsourceless, fun callback hmem => hsame callback (List.mem_append_left _ hmem)⟩
  · intro ⟨hsourceless, hsame⟩
    refine ⟨hsourceless, fun callback hmem => ?_⟩
    rw [hrest.mpr hsourceless, List.append_nil] at hmem
    exact hsame callback hmem

/-- A sender report without report blocks, and the description of its sender. -/
private def reportBytes : List UInt8 :=
  [0x80, 200, 0, 6, 0, 0, 0, 7] ++ List.replicate 20 0

private def describedBytes : List UInt8 := [0x81, 202, 0, 2, 0, 0, 0, 7, 1, 0, 0, 0]

private def described : RtcpSdesEntry := { id := 7, items := [(1, [])] }

private def twoParsers : Parsers where
  rtcpSrParse buffer := if buffer.take 28 = reportBytes then some { ssrc := 7 } else none
  rtcpRrParse _ := none
  rtcpSdesParse buffer := if buffer.take 12 = describedBytes then some [described] else none
  rtcpByeParse _ := none
  rtcpAppParse _ := none
  rtcpFbParse _ := none
  packetParse _ := none

private theorem encodes_report : twoParsers.Encodes reportBytes (.sr { ssrc := 7 }) where
  header := ⟨⟨2, false, 0, 200, 6⟩, rfl, rfl, rfl⟩
  parsed rest := by
    have htake : (reportBytes ++ rest).take 28 = reportBytes := List.take_left' rfl
    simp [Parsers.parse, Rtcp.type, twoParsers, htake]

private theorem encodes_described : twoParsers.Encodes describedBytes (.sdes [described]) where
  header := ⟨⟨2, false, 1, 202, 2⟩, rfl, rfl, rfl⟩
  parsed rest := by
    have htake : (describedBytes ++ rest).take 12 = describedBytes := List.take_left' rfl
    simp [Parsers.parse, Rtcp.type, twoParsers, htake]

theorem fully_processed_iff_report :
    FullyProcessed twoParsers none [⟨1, 2, 7, 8⟩] reportBytes [.sr { ssrc := 7 }] := by
  have hencodes : ∀ unit ∈ [(reportBytes, Rtcp.sr { ssrc := 7 })],
      twoParsers.Encodes unit.1 unit.2 := by
    intro unit hunit
    rw [List.mem_singleton.mp hunit]
    exact encodes_report
  apply (fully_processed_iff [⟨1, 2, 7, 8⟩] hencodes (carries_none.mpr rfl)).mpr
  refine ⟨fun unit hunit => by simp at hunit, fun callback hmem => ?_⟩
  rw [List.mem_singleton.mp hmem]
  exact fun report hreport => by simp at hreport

/-- The SDES after the SR is dropped. -/
theorem description_dropped :
    ¬ ∀ (parsers : Parsers) (srtpIn : Option Srtp) (streams : List MediaStream)
      (buffer : List UInt8) (units : List (List UInt8 × Rtcp)), units ≠ [] →
      (∀ unit ∈ units, parsers.Encodes unit.1 unit.2) →
      Carries srtpIn buffer (units.flatMap Prod.fst) →
      FullyProcessed parsers srtpIn streams buffer (units.map Prod.snd) := by
  intro h
  have hencodes : ∀ unit ∈ [(reportBytes, Rtcp.sr { ssrc := 7 }),
      (describedBytes, .sdes [described])], twoParsers.Encodes unit.1 unit.2 := by
    intro unit hunit
    rcases List.mem_pair.mp hunit with rfl | rfl
    · exact encodes_report
    · exact encodes_described
  have hprocessed := h twoParsers none [⟨1, 2, 7, 8⟩] (reportBytes ++ describedBytes) _
    (List.cons_ne_nil _ _) hencodes (carries_none.mpr (by simp))
  have hhandled : handleRtpMessage twoParsers none (reportBytes ++ describedBytes) =
      [.onRtcpSr { ssrc := 7 }] :=
    handleRtpMessage_eq encodes_report (carries_none.mpr rfl)
  have hboth := hhandled.symm.trans hprocessed.1
  cases hboth

end CxxDeps.Rtp
