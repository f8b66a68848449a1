import CxxDeps.Rtp.NackList
import CxxDeps.Rtp.Wire

/-! `rtcp_fb.c`, the feedback that `media_stream` sends, and what the other end makes of it:
from the numbers that a receiver waits for, over the bytes of RTCP, to the packets that a
sender sends again, and over the bytes of RTP back. The outer `none` of a result stands for
an access outside of the buffer. -/

namespace CxxDeps.Rtp

open Library

/-! ### `rtcp_fb.c` -/

/-- `rtcp_fb`; `fci_size` is the length of `fci`, which is `none` where the pointer is null. The
subtype is the count of the header. -/
structure FbPacket where
  header : RtcpHeader
  ssrcSender : UInt32 := 0
  ssrcMedia : UInt32 := 0
  fci : Option (List UInt8) := none
  deriving DecidableEq, Repr

namespace FbPacket

/-- `rtcp_fb_init`. -/
def init (pt : RtcpType) (fmt : UInt8) : FbPacket where
  header := ⟨2, false, fmt &&& 0x1f, pt.toByte, 2⟩

/-- `rtcp_fb_size`. -/
def size (packet : FbPacket) : ℕ := 12 + (packet.fci.getD []).length

/-- `rtcp_fb_set_fci`, where there is memory. -/
def setFci (packet : FbPacket) (fci : List UInt8) : ℤ × FbPacket :=
  if packet.fci.isSome then (-1, packet)
  else
    let packet := { packet with fci := some fci }
    (0, { packet with header.length := UInt16.ofNat (packet.size / 4 - 1) })

def bytes (packet : FbPacket) : List UInt8 :=
  packet.header.bytes ++ toBe32 packet.ssrcSender ++ toBe32 packet.ssrcMedia ++
    packet.fci.getD []

/-- `rtcp_fb_serialize`. -/
def serialize (packet : FbPacket) (size : ℕ) : Option (List UInt8) :=
  if size < packet.size then none else some packet.bytes

/-- `rtcp_fb_parse` of a new packet. Both sizes are `uint16_t`. -/
def parse (buffer : List UInt8) : Option (Option FbPacket) :=
  match RtcpHeader.parse buffer with
  | none => some none
  | some header =>
    if header.pt ≠ RtcpType.rtpfb.toByte ∧ header.pt ≠ RtcpType.psfb.toByte then some none
    else do
      let ssrcSender ← readU32 buffer 4
      let ssrcMedia ← readU32 buffer 8
      let fciSize := (header.length - 2) * 4
      let packetSize := 12 + fciSize
      if buffer.length < packetSize.toNat then return none
      else if buffer.length < 12 + fciSize.toNat then none
      else
        return (setFci { header, ssrcSender, ssrcMedia } ((buffer.drop 12).take fciSize.toNat)).2

/-- The packet as it is handed to the callback. -/
def toFb (packet : FbPacket) : RtcpFb where
  payloadSpecific := packet.header.pt = RtcpType.psfb.toByte
  subtype := packet.header.count
  ssrcSender := packet.ssrcSender
  ssrcMedia := packet.ssrcMedia
  fci := packet.fci.getD []

/-- `rtcp_fb_parse`; what is outside of the buffer is taken as nothing. -/
def parseFb (buffer : List UInt8) : Option RtcpFb := (parse buffer).join.map toFb

end FbPacket

/-! ### What a media stream sends -/

def nackFmt : UInt8 := 1

def pliFmt : UInt8 := 1

def firFmt : UInt8 := 4

/-- A packet of feedback between two sources, in the buffer of 2048 bytes. -/
def sendFb (pt : RtcpType) (fmt : UInt8) (ssrcSender ssrcMedia : UInt32)
    (fci : Option (List UInt8)) : Option (List UInt8) :=
  let packet := { FbPacket.init pt fmt with ssrcSender, ssrcMedia }
  FbPacket.serialize (fci.elim packet fun fci => (packet.setFci fci).2) 2048

/-- `send_rtcp_nack`. -/
def sendRtcpNack (ssrcSender ssrcMedia : UInt32) (pid blp : UInt16) : Option (List UInt8) :=
  sendFb .rtpfb nackFmt ssrcSender ssrcMedia (some (toBe16 pid ++ toBe16 blp))

/-- `send_rtcp_keyframe_pli`. -/
def sendRtcpKeyframePli (ssrcSender ssrcMedia : UInt32) : Option (List UInt8) :=
  sendFb .psfb pliFmt ssrcSender ssrcMedia none

/-- `send_rtcp_keyframe_fir`, with the count of the receiver. -/
def sendRtcpKeyframeFir (ssrcSender ssrcMedia firCount : UInt32) : Option (List UInt8) :=
  sendFb .psfb firFmt ssrcSender ssrcMedia
    (some (toBe32 ssrcMedia ++ [firCount.toUInt8, 0, 0, 0]))

/-! ### What a media stream receives -/

/-- The handlers `on_rtcp_fb_nack`, `on_rtcp_fb_pli` and `on_rtcp_fb_fir`. -/
inductive FbAction
  | nack (ssrc : UInt32) (pid bld : UInt16)
  | pli (ssrc : UInt32)
  | fir (ssrc : UInt32) (nr : UInt8)
  deriving DecidableEq, Repr

/-- `rtcp_rtpfb_nack_get`; the numbers are 0 before it. -/
def nackGet (fci : List UInt8) : UInt16 × UInt16 :=
  match fci with
  | a :: b :: c :: d :: _ => (be16 a b, be16 c d)
  | _ => (0, 0)

/-- `rtcp_psfb_fir_item_count`, of the length that `rtcp_fb_set_fci` gave the header. -/
def firItemCount (fci : List UInt8) : ℕ := ((12 + fci.length) / 4 - 1 - 2) / 2

/-- `rtcp_psfb_fir_get_item`; nothing reads the reserved bits. -/
def firGetItem (fci : List UInt8) (idx : ℕ) : FbAction :=
  .fir (u32At fci (8 * idx)) (fci.getD (8 * idx + 4) 0)

/-- `receive_rtcp_feedback`. -/
def receiveRtcpFeedback (fb : RtcpFb) : List FbAction :=
  if fb.payloadSpecific then
    if fb.subtype = pliFmt then [.pli fb.ssrcMedia]
    else if fb.subtype = firFmt then (List.range (firItemCount fb.fci)).map (firGetItem fb.fci)
    else []
  else if fb.subtype = nackFmt then
    let (pid, bld) := nackGet fb.fci
    [.nack fb.ssrcMedia pid bld]
  else []

/-! ### The parser and its buffer -/

theorem toNat_fciSize (n : UInt16) : ((n - 2) * 4).toNat = (n.toNat + 65534) * 4 % 65536 := by
  rw [UInt16.toNat_mul, UInt16.toNat_sub]
  simp only [UInt16.toNat_ofNat]
  omega

theorem toNat_packetSize (n : UInt16) : (12 + (n - 2) * 4).toNat =
    (12 + (n.toNat + 65534) * 4 % 65536) % 65536 := by
  rw [UInt16.toNat_add, toNat_fciSize]
  rfl

theorem FbPacket.parse_of_fb {buffer : List UInt8} {header : RtcpHeader}
    (hheader : RtcpHeader.parse buffer = some header)
    (hpt : header.pt = RtcpType.rtpfb.toByte ∨ header.pt = RtcpType.psfb.toByte)
    (hlen : 12 ≤ buffer.length) :
    parse buffer =
      if buffer.length < (12 + (header.length - 2) * 4).toNat then some none
      else if buffer.length < 12 + ((header.length - 2) * 4).toNat then none
      else some (some (setFci { header, ssrcSender := u32At buffer 4, ssrcMedia := u32At buffer 8 }
        ((buffer.drop 12).take ((header.length - 2) * 4).toNat)).2) := by
  have hfb : ¬ (header.pt ≠ RtcpType.rtpfb.toByte ∧ header.pt ≠ RtcpType.psfb.toByte) :=
    fun h => hpt.elim h.1 h.2
  have hsender : readU32 buffer 4 = some (u32At buffer 4) := if_pos (by omega)
  have hmedia : readU32 buffer 8 = some (u32At buffer 8) := if_pos (by omega)
  rw [parse, hheader]
  simp only [if_neg hfb, hsender, hmedia, Option.bind_eq_bind, Option.bind_some, Option.pure_def]

/-- The parser stays in a datagram exactly if it is no feedback, or it has the twelve bytes of
the fixed words and the length that it announces does not make the sizes wrap. -/
theorem fb_parse_in_bounds_iff {buffer : List UInt8} (hlen : buffer.length < 65536) :
    (FbPacket.parse buffer).isSome ↔
      ∀ header, RtcpHeader.parse buffer = some header →
        header.pt = RtcpType.rtpfb.toByte ∨ header.pt = RtcpType.psfb.toByte →
        12 ≤ buffer.length ∧ 2 ≤ header.length.toNat % 16384 ∧
          header.length.toNat % 16384 ≤ 16382 := by
  rcases hheader : RtcpHeader.parse buffer with _ | header
  · simp [FbPacket.parse, hheader]
  simp only [Option.some.injEq, forall_eq']
  by_cases hpt : header.pt = RtcpType.rtpfb.toByte ∨ header.pt = RtcpType.psfb.toByte
  · rw [forall_prop_of_true hpt]
    by_cases h12 : 12 ≤ buffer.length
    · have hlt := header.length.toNat_lt
      rw [FbPacket.parse_of_fb hheader hpt h12, toNat_packetSize, toNat_fciSize]
      split
      · simp only [Option.isSome_some, true_iff]
        omega
      · split
        · simp only [Option.isSome_none, Bool.false_eq_true, false_iff]
          omega
        · simp only [Option.isSome_some, true_iff]
          omega
    · have hfb : ¬ (header.pt ≠ RtcpType.rtpfb.toByte ∧ header.pt ≠ RtcpType.psfb.toByte) :=
        fun h => hpt.elim h.1 h.2
      have hmedia : readU32 buffer 8 = none := if_neg (by omega)
      have hnone : FbPacket.parse buffer = none := by
        rw [FbPacket.parse, hheader]
        simp only [if_neg hfb, hmedia]
        cases readU32 buffer 4 <;> rfl
      simp [hnone, h12]
  · rw [forall_prop_of_false hpt, iff_true, FbPacket.parse, hheader]
    have hother : header.pt ≠ RtcpType.rtpfb.toByte ∧ header.pt ≠ RtcpType.psfb.toByte :=
      not_or.mp hpt
    simp only [if_pos hother, Option.isSome_some]

/-- A NACK with four bytes of control information. -/
theorem fb_parse_in_bounds_nack :
    (FbPacket.parse [0x81, 205, 0, 3, 0, 0, 0, 1, 0, 0, 0, 2, 0, 7, 0, 0]).isSome := by
  rw [fb_parse_in_bounds_iff (by decide)]
  decide

/-! ### Feedback over the wire -/

theorem rtcp_first_byte (count : UInt8) : count &&& 0x1f = count →
    ((2 : UInt8) <<< 6 ||| 0 ||| count) >>> 6 = 2 ∧
      ((2 : UInt8) <<< 6 ||| 0 ||| count) &&& 0x20 = 0 ∧
      ((2 : UInt8) <<< 6 ||| 0 ||| count) &&& 0x1f = count := by
  revert count
  exact forall_uint8 (by decide +kernel)

theorem RtcpHeader.parse_bytes {count : UInt8} (h : count &&& 0x1f = count) (pt : UInt8)
    (length : UInt16) (rest : List UInt8) :
    parse (bytes ⟨2, false, count, pt, length⟩ ++ rest) =
      some ⟨2, false, count, pt, length⟩ := by
  obtain ⟨hversion, hp, hcount⟩ := rtcp_first_byte count h
  have hlength : be16 (length >>> 8).toUInt8 length.toUInt8 = length := be16_toBe16 length
  simp only [bytes, toBe16, List.cons_append, List.nil_append, parse, Bool.false_eq_true,
    if_false]
  rw [if_pos hversion, hversion, hp, hcount, hlength]
  rfl

/-- A packet of feedback comes back from its bytes. -/
theorem FbPacket.parse_bytes {packet : FbPacket} {pt : RtcpType} {count : UInt8}
    (hcount : count &&& 0x1f = count) (hpt : pt = .rtpfb ∨ pt = .psfb) {fci : List UInt8}
    (hfci : packet.fci.getD [] = fci) (hmod : fci.length % 4 = 0) (hlen : fci.length ≤ 2036)
    (hheader : packet.header =
      ⟨2, false, count, pt.toByte, UInt16.ofNat ((12 + fci.length) / 4 - 1)⟩) :
    (parse packet.bytes).join.map toFb = some packet.toFb := by
  have hparse : RtcpHeader.parse packet.bytes = some packet.header := by
    rw [bytes, List.append_assoc, List.append_assoc, hheader]
    exact RtcpHeader.parse_bytes hcount _ _ _
  have hbytes : packet.bytes = (packet.header.bytes ++ toBe32 packet.ssrcSender ++
      toBe32 packet.ssrcMedia) ++ fci := by rw [bytes, hfci]
  have hfixed : (packet.header.bytes ++ toBe32 packet.ssrcSender ++
      toBe32 packet.ssrcMedia).length = 12 := rfl
  have hsize : packet.bytes.length = 12 + fci.length := by
    rw [hbytes, List.length_append, hfixed]
  have htype : packet.header.pt = RtcpType.rtpfb.toByte ∨
      packet.header.pt = RtcpType.psfb.toByte := by
    rw [hheader]
    exact hpt.imp (congrArg RtcpType.toByte) (congrArg RtcpType.toByte)
  have hfciSize : ((packet.header.length - 2) * 4).toNat = fci.length := by
    rw [toNat_fciSize, hheader, UInt16.toNat_ofNat']
    omega
  have hpacketSize : (12 + (packet.header.length - 2) * 4).toNat = 12 + fci.length := by
    rw [toNat_packetSize, hheader, UInt16.toNat_ofNat']
    omega
  have hdrop : (packet.bytes.drop 12).take fci.length = fci := by
    rw [hbytes, ← hfixed, List.drop_left, List.take_length]
  have hsender : u32At packet.bytes 4 = packet.ssrcSender := be32_toBe32 packet.ssrcSender
  have hmedia : u32At packet.bytes 8 = packet.ssrcMedia := be32_toBe32 packet.ssrcMedia
  rw [parse_of_fb hparse htype (by omega), hpacketSize, hfciSize, if_neg (by omega),
    if_neg (by omega), hdrop, hsender, hmedia]
  simp [setFci, toFb, hfci]

/-- What a stream sends is at the other end what was to be sent. -/
theorem sendFb_received (parsers : Parsers) (pt : RtcpType) (fmt : UInt8)
    (ssrcSender ssrcMedia : UInt32) (fci : Option (List UInt8)) (hpt : pt = .rtpfb ∨ pt = .psfb)
    (hfmt : fmt &&& 0x1f = fmt) (hmod : (fci.getD []).length % 4 = 0)
    (hlen : (fci.getD []).length ≤ 2036) :
    ∃ bytes, sendFb pt fmt ssrcSender ssrcMedia fci = some bytes ∧
      detectMessage (bytes.getD 0 0) = .rtp ∧
      handleRtpMessage { parsers with rtcpFbParse := FbPacket.parseFb } none bytes =
        [.onRtcpFb
          ⟨pt.toByte = RtcpType.psfb.toByte, fmt, ssrcSender, ssrcMedia, fci.getD []⟩] := by
  obtain ⟨packet, hpacket⟩ : ∃ packet, packet =
      fci.elim { FbPacket.init pt fmt with ssrcSender, ssrcMedia } fun fci =>
        (FbPacket.setFci { FbPacket.init pt fmt with ssrcSender, ssrcMedia } fci).2 := ⟨_, rfl⟩
  have hheader : packet.header =
      ⟨2, false, fmt, pt.toByte, UInt16.ofNat ((12 + (fci.getD []).length) / 4 - 1)⟩ := by
    cases fci <;> simp [hpacket, FbPacket.init, FbPacket.setFci, FbPacket.size, hfmt]
  have hfci : packet.fci.getD [] = fci.getD [] := by
    cases fci <;> simp [hpacket, FbPacket.init, FbPacket.setFci]
  have hssrc : packet.ssrcSender = ssrcSender ∧ packet.ssrcMedia = ssrcMedia := by
    cases fci <;> simp [hpacket, FbPacket.setFci, FbPacket.init]
  have hsize : ¬ 2048 < packet.size := by
    rw [FbPacket.size, hfci]
    omega
  have hback := FbPacket.parse_bytes hfmt hpt hfci hmod hlen hheader
  have hparse : RtcpHeader.parse packet.bytes = some packet.header := by
    rw [FbPacket.bytes, List.append_assoc, List.append_assoc, hheader]
    exact RtcpHeader.parse_bytes hfmt _ _ _
  have hdetect : detectRtcpPacket packet.bytes = some packet.header := by
    rw [detectRtcpPacket, hparse, hheader]
    simp [Option.filter]
  have hfb : packet.toFb =
      ⟨pt.toByte = RtcpType.psfb.toByte, fmt, ssrcSender, ssrcMedia, fci.getD []⟩ := by
    rw [FbPacket.toFb, hheader, hfci, hssrc.1, hssrc.2]
  refine ⟨packet.bytes, by rw [sendFb, ← hpacket, FbPacket.serialize, if_neg hsize], ?_, ?_⟩
  · apply detectMessage_of_version
    have hfirst := (rtcp_first_byte fmt hfmt).1
    rw [version_byte] at hfirst
    have hhead : packet.bytes.getD 0 0 = (2 : UInt8) <<< 6 ||| 0 ||| fmt := by
      rw [FbPacket.bytes, hheader]
      rfl
    rw [hhead]
    exact hfirst
  · rw [handleRtpMessage, hdetect]
    simp only [Option.elim_none, Option.elim_some, handleRtcpMessage, hheader,
      RtcpType.ofByte_toByte]
    rcases hpt with rfl | rfl <;> simp [FbPacket.parseFb, hback, hfb]

theorem sendRtcpNack_received (parsers : Parsers) (ssrcSender ssrcMedia : UInt32)
    (pid blp : UInt16) :
    ∃ bytes fb, sendRtcpNack ssrcSender ssrcMedia pid blp = some bytes ∧
      detectMessage (bytes.getD 0 0) = .rtp ∧
      handleRtpMessage { parsers with rtcpFbParse := FbPacket.parseFb } none bytes =
        [.onRtcpFb fb] ∧ fb.ssrcMedia = ssrcMedia ∧
      receiveRtcpFeedback fb = [.nack ssrcMedia pid blp] := by
  have hlen : (toBe16 pid ++ toBe16 blp).length = 4 := rfl
  obtain ⟨bytes, hbytes, hproto, hcallback⟩ := sendFb_received parsers .rtpfb nackFmt ssrcSender
    ssrcMedia (some (toBe16 pid ++ toBe16 blp)) (.inl rfl) rfl (by simp [hlen]) (by simp [hlen])
  refine ⟨bytes, _, hbytes, hproto, hcallback, rfl, ?_⟩
  have hpid : be16 (pid >>> 8).toUInt8 pid.toUInt8 = pid := be16_toBe16 pid
  have hblp : be16 (blp >>> 8).toUInt8 blp.toUInt8 = blp := be16_toBe16 blp
  simp [receiveRtcpFeedback, nackGet, toBe16, hpid, hblp, RtcpType.toByte]

/-- Each request is at the other end the request that was sent. -/
theorem feedback_over_transport (parsers : Parsers) (ssrcSender ssrcMedia firCount : UInt32)
    (pid blp : UInt16) :
    ∀ r ∈ [(sendRtcpNack ssrcSender ssrcMedia pid blp, FbAction.nack ssrcMedia pid blp),
        (sendRtcpKeyframePli ssrcSender ssrcMedia, .pli ssrcMedia),
        (sendRtcpKeyframeFir ssrcSender ssrcMedia firCount, .fir ssrcMedia firCount.toUInt8)],
      ∃ bytes fb, r.1 = some bytes ∧ detectMessage (bytes.getD 0 0) = .rtp ∧
        handleRtpMessage { parsers with rtcpFbParse := FbPacket.parseFb } none bytes =
          [.onRtcpFb fb] ∧ fb.ssrcMedia = ssrcMedia ∧ receiveRtcpFeedback fb = [r.2] := by
  intro r hr
  simp only [List.mem_cons, List.not_mem_nil, or_false] at hr
  rcases hr with rfl | rfl | rfl
  · exact sendRtcpNack_received parsers ssrcSender ssrcMedia pid blp
  · obtain ⟨bytes, hbytes, hproto, hcallback⟩ := sendFb_received parsers .psfb pliFmt ssrcSender
      ssrcMedia none (.inr rfl) rfl rfl (by decide)
    exact ⟨bytes, _, hbytes, hproto, hcallback, rfl, by simp [receiveRtcpFeedback]⟩
  · have hlen : (toBe32 ssrcMedia ++ [firCount.toUInt8, 0, 0, 0]).length = 8 := rfl
    obtain ⟨bytes, hbytes, hproto, hcallback⟩ := sendFb_received parsers .psfb firFmt ssrcSender
      ssrcMedia (some (toBe32 ssrcMedia ++ [firCount.toUInt8, 0, 0, 0])) (.inr rfl) rfl
      (by simp [hlen]) (by simp [hlen])
    refine ⟨bytes, _, hbytes, hproto, hcallback, rfl, ?_⟩
    have hssrc : u32At (toBe32 ssrcMedia ++ [firCount.toUInt8, 0, 0, 0]) 0 = ssrcMedia :=
      be32_toBe32 ssrcMedia
    simp [receiveRtcpFeedback, firItemCount, firGetItem, pliFmt, firFmt, hssrc]
    rfl

/-- A PLI from one source to another. -/
theorem feedback_over_transport_pli :
    ∃ bytes fb, sendRtcpKeyframePli 1 2 = some bytes ∧ detectMessage (bytes.getD 0 0) = .rtp ∧
      handleRtpMessage { noParsers with rtcpFbParse := FbPacket.parseFb } none bytes =
        [.onRtcpFb fb] ∧ fb.ssrcMedia = 2 ∧ receiveRtcpFeedback fb = [.pli 2] :=
  feedback_over_transport noParsers 1 2 0 0 0 (sendRtcpKeyframePli 1 2, .pli 2) (by simp)

/-! ### From a gap to the packets -/

/-- The datagrams of `on_nack`. -/
def sendRtcpNacks (ssrcSender ssrcMedia : UInt32) (out : List Feedback) : List (List UInt8) :=
  out.filterMap fun
    | .nack pid bid => sendRtcpNack ssrcSender ssrcMedia pid bid
    | .keyframe => none

/-- What a datagram asks of the stream that it is for. -/
def actionsOf (parsers : Parsers) (streams : List MediaStream) (datagram : List UInt8) :
    List FbAction :=
  (handleRtpMessage { parsers with rtcpFbParse := FbPacket.parseFb } none datagram).flatMap
    fun callback => (handleCallback streams callback).flatMap fun
      | .received _ (.rtcpFeedback fb) => receiveRtcpFeedback fb
      | _ => []

namespace Responder

/-- A request for a key frame leaves the history alone. -/
def act (st : Responder × List Resent) : FbAction → Responder × List Resent
  | .nack _ pid bld => ((st.1.onRtcpFbNack pid bld).1, st.2 ++ (st.1.onRtcpFbNack pid bld).2)
  | _ => st

/-- The datagrams come one after the other. -/
def handle (parsers : Parsers) (streams : List MediaStream) (r : Responder)
    (datagrams : List (List UInt8)) : Responder × List Resent :=
  (datagrams.flatMap (actionsOf parsers streams)).foldl act (r, [])

/-- Without RTX a packet goes out as it is stored. -/
structure Plain (r : Responder) (st : Responder × List Resent) : Prop where
  sender_eq : st.1.sender = r.sender
  rtx_eq : st.1.rtx = none
  wire_eq : ∀ x ∈ st.2, x.wire = x.packet

variable {r : Responder} {st : Responder × List Resent}

theorem Plain.resend (h : Plain r st) (seq : UInt16) : Plain r (resend seq st) := by
  unfold Responder.resend
  cases hget : st.1.sender.getHistory seq with
  | none => exact h
  | some pkt =>
    rw [h.rtx_eq]
    refine ⟨h.sender_eq, h.rtx_eq, fun x hx => ?_⟩
    rcases List.mem_append.mp hx with hx | hx
    · exact h.wire_eq x hx
    · rw [List.mem_singleton.mp hx]

theorem Plain.bitLoop (h : Plain r st) (pid : UInt16) (n i : ℕ) (bld : UInt16) :
    Plain r (bitLoop pid n i bld st) := by
  induction n generalizing i bld st with
  | zero => exact h
  | succ n ih =>
    rw [Responder.bitLoop]
    apply ih
    split
    · exact h.resend _
    · exact h

theorem plain_onRtcpFbNack (hrtx : r.rtx = none) (pid bld : UInt16) :
    Plain r (r.onRtcpFbNack pid bld) := by
  have hstart : Plain r (r, []) := ⟨rfl, hrtx, by simp⟩
  have hloop := (hstart.resend pid).bitLoop pid 16 0 bld
  exact ⟨hloop.sender_eq, hloop.rtx_eq, hloop.wire_eq⟩

theorem lookedUp_zero (pid : UInt16) : lookedUp pid 0 = [pid] := by simp [lookedUp]

/-- The requests for single numbers, one after the other. -/
theorem foldl_act_single (seqs : List UInt16) (ssrc : UInt32) (h : Plain r st) :
    Plain r ((seqs.map fun seq => FbAction.nack ssrc seq 0).foldl act st) ∧
      ((seqs.map fun seq => FbAction.nack ssrc seq 0).foldl act st).2.map Resent.packet =
        st.2.map Resent.packet ++ seqs.filterMap r.sender.getHistory := by
  induction seqs generalizing st with
  | nil => simpa using h
  | cons seq seqs ih =>
    have hnack := plain_onRtcpFbNack h.rtx_eq seq 0
    have hnext : Plain r (act st (.nack ssrc seq 0)) := by
      refine ⟨hnack.sender_eq.trans h.sender_eq, hnack.rtx_eq, fun x hx => ?_⟩
      rcases List.mem_append.mp hx with hx | hx
      · exact h.wire_eq x hx
      · exact hnack.wire_eq x hx
    have hpackets := onRtcpFbNack_packets seq 0 st.1
    rw [lookedUp_zero, h.sender_eq] at hpackets
    obtain ⟨hplain, hout⟩ := ih hnext
    rw [List.map_cons, List.foldl_cons]
    refine ⟨hplain, ?_⟩
    rw [hout, act, List.map_append, hpackets, List.append_assoc, ← List.filterMap_append]
    rfl

end Responder

/-- A list without a wrap is asked for number by number. -/
theorem pack_noWrap {seqs : List UInt16} (hd : Receiver.Descending seqs) (hw : NoWrap seqs) :
    Receiver.pack seqs = seqs.map fun seq => .nack seq 0 := by
  cases seqs with
  | nil => rfl
  | cons a t =>
    rw [Receiver.pack_cons, Receiver.packed_noWrap hd hw []]
    rfl

/-- The requests, at the stream that they are for. -/
theorem actionsOf_sendRtcpNacks (parsers : Parsers) {streams : List MediaStream} {i : ℕ}
    {ssrcMedia : UInt32} (hstream : getMediaStreamByLocalSsrc streams ssrcMedia = some i)
    (ssrcSender : UInt32) (seqs : List UInt16) :
    (sendRtcpNacks ssrcSender ssrcMedia (seqs.map fun seq => .nack seq 0)).flatMap
        (actionsOf parsers streams) = seqs.map fun seq => .nack ssrcMedia seq 0 := by
  induction seqs with
  | nil => rfl
  | cons seq seqs ih =>
    obtain ⟨bytes, fb, hbytes, -, hcallback, hmedia, hreceive⟩ :=
      sendRtcpNack_received parsers ssrcSender ssrcMedia seq 0
    have haction : actionsOf parsers streams bytes = [.nack ssrcMedia seq 0] := by
      rw [actionsOf, hcallback]
      simp [handleCallback, received, hmedia, hstream, hreceive]
    have hcons : sendRtcpNacks ssrcSender ssrcMedia ((seq :: seqs).map fun seq => .nack seq 0) =
        bytes :: sendRtcpNacks ssrcSender ssrcMedia (seqs.map fun seq => .nack seq 0) := by
      rw [sendRtcpNacks, List.map_cons, List.filterMap_cons]
      simp only [hbytes]
      rfl
    rw [hcons, List.flatMap_cons, haction, ih]
    rfl

/-- The packets that are sent, at the other end. -/
theorem flatMap_received (parsers : Parsers) {pkts : List Packet}
    (hpt : ∀ pkt ∈ pkts, pkt.pt < 128 ∧ ¬ (pkt.pt < 96 ∧ 71 < pkt.pt)) :
    (pkts.filterMap Packet.serialize).flatMap
        (handleRtpMessage { parsers with packetParse := Packet.parse } none) =
      pkts.map .onRtpPacket := by
  induction pkts with
  | nil => rfl
  | cons pkt pkts ih =>
    obtain ⟨hlt, hok⟩ := hpt pkt (by simp)
    obtain ⟨bytes, hbytes, -, hreceived⟩ := exists_serialize parsers hlt hok
    rw [List.filterMap_cons_some hbytes, List.flatMap_cons, hreceived,
      ih fun p hp => hpt p (List.mem_cons_of_mem _ hp)]
    rfl

/-- A receiver asks for the numbers that it waits for; the stream of the sender looks them up and
sends again; and what comes back at the receiver, over the bytes of both ways, are exactly the
packets that the history holds in the places of these numbers, with every packet that is
still stored under one of them. -/
theorem repair_over_transport (parsers : Parsers) {r : Receiver} (hf : r.NackFiled)
    (hfull : r.nackPacks.size < 1000) (hkey : r.waitingForKeyframe = false)
    (hwrap : NoWrap r.pending) (now : ℤ) (clock : KeyframeClock) (ssrcSender : UInt32)
    {streams : List MediaStream} {i : ℕ}
    (hstream : getMediaStreamByLocalSsrc streams r.ssrc = some i) {resp : Responder}
    (hfiled : resp.sender.Filed) (hrtx : resp.rtx = none)
    (hpt : ∀ pkt, resp.sender.Stored pkt → pkt.pt < 128 ∧ ¬ (pkt.pt < 96 ∧ 71 < pkt.pt)) :
    let requests := sendRtcpNacks ssrcSender r.ssrc (r.processNack now clock).2.2.1
    let answers := ((resp.handle parsers streams requests).2.map Resent.wire).filterMap
      Packet.serialize
    answers.flatMap (handleRtpMessage { parsers with packetParse := Packet.parse } none) =
        (r.pending.filterMap resp.sender.getHistory).map .onRtpPacket ∧
      ∀ pkt, resp.sender.Stored pkt → pkt.seq ∈ r.nackPacks →
        pkt ∈ r.pending.filterMap resp.sender.getHistory := by
  dsimp only
  have hlist : ¬ (1000 ≤ r.nackList.length ∨ r.waitingForKeyframe = true) := by
    rw [Receiver.length_nackList, hkey]
    simp only [Bool.false_eq_true, or_false]
    omega
  have hout : (r.processNack now clock).2.2.1 = r.pending.map fun seq => .nack seq 0 := by
    rw [← pack_noWrap (Receiver.descending_pending hf) hwrap, Receiver.processNack]
    simp only [if_neg hlist]
    rfl
  have hplain : Responder.Plain resp (resp, []) := ⟨rfl, hrtx, by simp⟩
  obtain ⟨hend, hpackets⟩ := Responder.foldl_act_single r.pending r.ssrc hplain
  have hwire : (resp.handle parsers streams
      (sendRtcpNacks ssrcSender r.ssrc (r.processNack now clock).2.2.1)).2.map Resent.wire =
      r.pending.filterMap resp.sender.getHistory := by
    rw [Responder.handle, hout, actionsOf_sendRtcpNacks parsers hstream,
      List.map_congr_left hend.wire_eq, hpackets]
    rfl
  constructor
  · rw [hwire]
    apply flatMap_received
    intro pkt hpkt
    obtain ⟨seq, -, hget⟩ := List.mem_filterMap.mp hpkt
    exact hpt pkt ⟨_, hget⟩
  · intro pkt hstored hseq
    exact List.mem_filterMap.mpr ⟨pkt.seq, (Receiver.mem_pending hf).mpr hseq,
      (Sender.stored_iff hfiled).mp hstored⟩

/-- What is stored was sent. -/
theorem Sender.stored_sendAll {s : Sender} (h : s.historyPackets = Slots.empty)
    {pkts : List Packet} {pkt : Packet} (hp : (s.sendAll pkts).Stored pkt) : pkt ∈ pkts := by
  have hstep (pkts sent : List Packet) (s : Sender) (hs : ∀ p, s.Stored p → p ∈ sent)
      (hp : (s.sendAll pkts).Stored pkt) : pkt ∈ sent ++ pkts := by
    induction pkts generalizing s sent with
    | nil => simpa using hs pkt hp
    | cons q pkts ih =>
      have hnext : ∀ p, (s.sendPacket q).Stored p → p ∈ sent ++ [q] := by
        rintro p ⟨i, hi⟩
        have hset : (s.historyPackets.set (slot q.seq.toNat) (some q)) i = some p := hi
        by_cases hslot : i = slot q.seq.toNat
        · rw [hslot, Slots.set_self] at hset
          simp [Option.some.inj hset]
        · rw [Slots.set_of_ne _ _ hslot] at hset
          exact List.mem_append_left _ (hs p ⟨i, hset⟩)
      simpa using ih (sent ++ [q]) (s.sendPacket q) hnext hp
  have hnone : ∀ p, s.Stored p → p ∈ ([] : List Packet) := by
    rintro p ⟨i, hi⟩
    rw [h, Slots.empty_apply] at hi
    cases hi
  exact hstep pkts [] s hnone hp

/-- Four packets of a stream, two of which are lost. -/
private def gapPacket (seq : UInt16) : Packet := ⟨false, 96, seq, 0, 1, [0]⟩

private def gapReceiver : Receiver :=
  (Receiver.insertPacket { ssrc := 1 } (gapPacket 5) 0).insertPacket (gapPacket 8) 0

private def gapSender : Sender :=
  Sender.sendAll { pt := 96, ssrc := 1, seq := 5 } ([5, 6, 7, 8].map gapPacket)

theorem repair_two_packets :
    let requests := sendRtcpNacks 2 1 (gapReceiver.processNack 0 ⟨false, 0⟩).2.2.1
    let answers := ((Responder.handle noParsers [⟨1, 0, 2, 0⟩] ⟨gapSender, none, 0⟩ requests).2.map
      Resent.wire).filterMap Packet.serialize
    answers.flatMap (handleRtpMessage { noParsers with packetParse := Packet.parse } none) =
        (gapReceiver.pending.filterMap gapSender.getHistory).map .onRtpPacket ∧
      ∀ pkt, gapSender.Stored pkt → pkt.seq ∈ gapReceiver.nackPacks →
        pkt ∈ gapReceiver.pending.filterMap gapSender.getHistory := by
  have hfiled : gapReceiver.NackFiled :=
    Receiver.nackFiled_insertPacket
      (Receiver.nackFiled_insertPacket (fun _ _ hget => by simp at hget) _ _) _ _
  have hpt : ∀ pkt, gapSender.Stored pkt → pkt.pt < 128 ∧ ¬ (pkt.pt < 96 ∧ 71 < pkt.pt) := by
    intro pkt hpkt
    obtain ⟨seq, -, rfl⟩ := List.mem_map.mp (Sender.stored_sendAll rfl hpkt)
    exact ⟨show (96 : UInt8) < 128 by decide,
      show ¬ ((96 : UInt8) < 96 ∧ 71 < (96 : UInt8)) by decide⟩
  exact repair_over_transport noParsers hfiled (by decide +kernel) (by decide +kernel)
    (by decide +kernel) 0 ⟨false, 0⟩ 2 (show getMediaStreamByLocalSsrc [⟨1, 0, 2, 0⟩] 1 = some 0
      from rfl) (Sender.filed_sendAll rfl _) rfl hpt

end CxxDeps.Rtp
