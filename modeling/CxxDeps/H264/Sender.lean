import CxxDeps.H264.Nal
import CxxDeps.Rtp.Sender

/-! `sender_video_h264`: an Annex-B access unit is split into NAL units, which
are sent as one aggregation packet when they all fit into one, and else one by
one, the long ones in fragments. `none` stands for a read behind the end of a
NAL unit. The packets come back in the order they are sent. -/

namespace CxxDeps.H264

open Rtp

/-- `index * MAX_RTP_PAYLOAD_SIZE`, a product of `uint32_t`. -/
def fragmentOffset (index : ℕ) : ℕ := index * maxRtpPayloadSize % 2 ^ 32

/-- The fragmentation loop of `send_nal`, with `rest` the bytes from `pos` on. -/
def fuLoop (fuInd t : UInt8) (nalSize : ℕ) (islast : Bool) :
    ℕ → Sender → (index : ℕ) → (rest : List UInt8) → Option (Sender × List Packet)
  | 0, s, _, _ => some (s, [])
  | n + 1, s, index, rest =>
    if fragmentOffset index < nalSize then
      let payloadLength :=
        if fragmentOffset (index + 1) < nalSize then maxRtpPayloadSize
        else nalSize - fragmentOffset index
      let isFinalPacket := decide (fragmentOffset (index + 1) ≥ nalSize)
      let fu : FuHeader :=
        if index = 0 then ⟨1, 0, 0, t⟩ else if isFinalPacket then ⟨0, 1, 0, t⟩ else ⟨0, 0, 0, t⟩
      if rest.length < payloadLength then none
      else
        let pkt := s.newPacket (islast && isFinalPacket)
          (fuInd :: fuHeaderGet fu :: rest.take payloadLength)
        (fuLoop fuInd t nalSize islast n (s.sendPacket pkt) ((index + 1) % 2 ^ 32)
          (rest.drop payloadLength)).map fun q => (q.1, pkt :: q.2)
    else some (s, [])

/-- The packets of `send_nal`. -/
def nalPackets (s : Sender) (nal : List UInt8) (islast : Bool) : Option (Sender × List Packet) :=
  if nal.length ≤ maxRtpPayloadSize then
    let pkt := s.newPacket islast nal
    some (s.sendPacket pkt, [pkt])
  else
    match nal with
    | [] => none
    | nal0 :: rest =>
      let nalHeader := nalHeaderSet nal0
      let fuInd := nalHeaderGet ⟨nalHeader.f, nalHeader.nri, 28⟩ -- FU-A
      fuLoop fuInd nalHeader.t rest.length islast nal.length s 0 rest

/-- `send_nal`. -/
def sendNal (s : Sender) (duration : UInt32) (nal : List UInt8) (islast : Bool) :
    Option (Sender × List Packet) :=
  (nalPackets s nal islast).map fun q =>
    (if islast then { q.1 with timestamp := q.1.timestamp + duration } else q.1, q.2)

/-- The loop of `send_frame` that sends NAL units one by one. -/
def sendNals (s : Sender) (duration : UInt32) : List (List UInt8) → Option (Sender × List Packet)
  | [] => some (s, [])
  | nal :: nals => do
    let (s, pkts) ← sendNal s duration nal nals.isEmpty
    let (s, pkts') ← sendNals s duration nals
    return (s, pkts ++ pkts')

/-- A `uint16_t` in network order. -/
def hton16 (n : ℕ) : List UInt8 := [UInt8.ofNat (n / 256), UInt8.ofNat n]

/-- The payload of the aggregation packet. -/
def stapPayload (nals : List (List UInt8)) : List UInt8 :=
  let nalHeader := nalHeaderSet ((nals.headD []).headD 0)
  nalHeaderGet ⟨nalHeader.f, nalHeader.nri, 24⟩ :: nals.flatMap fun nal => hton16 nal.length ++ nal

/-- `sender_video_h264::send_frame`. -/
def sendFrame (s : Sender) (frame : List UInt8) (duration : UInt32) :
    Option (Sender × List Packet) :=
  let nals := findNals frame (frame.length + 1) 0
  let totalNalSize := (nals.map List.length).sum
  if totalNalSize ≤ maxRtpPayloadSize ∧ nals.length > 1 then
    let t := (nalHeaderSet ((nals.headD []).headD 0)).t
    let pkt := s.newPacket (!(t == 7 || t == 8)) (stapPayload nals)
    some (s.sendPacket pkt, [pkt])
  else sendNals s duration nals

end CxxDeps.H264
