import CxxDeps.H264.Sender
import CxxDeps.H265.Nal
import CxxDeps.Rtp.Stream

/-! `sender_video_h265`, built like the H.264 sender. A NAL unit lies in a
`std::string`: `behind` holds the bytes that can be read behind its end, which
is the terminating zero. With `behind = []` the sender fails as soon as a
fragment reads past the end of its NAL unit. -/

namespace CxxDeps.H265

open Rtp
open H264 (FuHeader fuHeaderGet fragmentOffset hton16)

/-- The fragmentation loop of `send_nal`, with `rest` the bytes from `pos` on. -/
def fuLoop (fuInd : List UInt8) (t : UInt8) (nalSize : ℕ) (islast : Bool) :
    ℕ → Sender → (index : ℕ) → (rest : List UInt8) → Option (Sender × List Packet)
  | 0, s, _, _ => some (s, [])
  | n + 1, s, index, rest =>
    if fragmentOffset index < nalSize then
      let payloadLength :=
        if fragmentOffset (index + 1) < nalSize then maxRtpPayloadSize
        else nalSize - fragmentOffset index
      let isFinalPacket := decide (fragmentOffset (index + 1) ≥ nalSize)
      let fu : FuHeader :=
        if index = 0 then ⟨1, 0, 0, t⟩ else if isFinalPacket then ⟨0, 1, 0, t⟩ else ⟨0, 0, 0, t⟩
      if rest.length < payloadLength then none
      else
        let pkt := s.newPacket (islast && isFinalPacket)
          (fuInd ++ fuHeaderGet fu :: rest.take payloadLength)
        (fuLoop fuInd t nalSize islast n (s.sendPacket pkt) ((index + 1) % 2 ^ 32)
          (rest.drop payloadLength)).map fun q => (q.1, pkt :: q.2)
    else some (s, [])

/-- The packets of `send_nal`. Two header bytes are skipped, but the size is
reduced by one. -/
def nalPackets (behind : List UInt8) (s : Sender) (nal : List UInt8) (islast : Bool) :
    Option (Sender × List Packet) :=
  if nal.length ≤ maxRtpPayloadSize then
    let pkt := s.newPacket islast nal
    some (s.sendPacket pkt, [pkt])
  else
    let nalHeader := nalHeaderSet {} nal
    let fuInd := nalHeaderGet { nalHeader with type := 49 } -- FU
    -- the type loses its highest bit in the five bits of the FU header
    fuLoop fuInd (nalHeader.type &&& 0x1f) (nal.length - 1) islast nal.length s 0
      ((nal ++ behind).drop 2)

/-- `send_nal`. -/
def sendNal (behind : List UInt8) (s : Sender) (duration : UInt32) (nal : List UInt8)
    (islast : Bool) : Option (Sender × List Packet) :=
  (nalPackets behind s nal islast).map fun q =>
    (if islast then { q.1 with timestamp := q.1.timestamp + duration } else q.1, q.2)

/-- The loop of `send_frame` that sends NAL units one by one. -/
def sendNals (behind : List UInt8) (s : Sender) (duration : UInt32)
    (nals : List (List UInt8)) : Option (Sender × List Packet) :=
  sendEach (fun s nal islast => sendNal behind s duration nal islast) s nals

/-- The payload of the aggregation packet. -/
def apPayload (nals : List (List UInt8)) : List UInt8 :=
  let nalHeader := nalHeaderSet {} (nals.headD [])
  nalHeaderGet { nalHeader with type := 48 } ++ nals.flatMap fun nal => hton16 nal.length ++ nal

/-- `sender_video_h265::send_frame`. The scanner finds no NAL unit without its
two header bytes, so the header is always set before it is read. -/
def sendFrame (behind : List UInt8) (s : Sender) (frame : List UInt8) (duration : UInt32) :
    Option (Sender × List Packet) :=
  let nals := findNals frame (frame.length + 1) 0
  let totalNalSize := (nals.map List.length).sum
  if totalNalSize ≤ maxRtpPayloadSize ∧ nals.length > 1 then
    let type := (nalHeaderSet {} (nals.headD [])).type
    let pkt := s.newPacket (!(type == 34 || type == 33)) (apPayload nals)
    some (s.sendPacket pkt, [pkt])
  else sendNals behind s duration nals

/-- The terminating zero of the `std::string` that holds a NAL unit. -/
def terminator : List UInt8 := [0]

end CxxDeps.H265
