import CxxDeps.Rtp.Sender

/-! `sender_video_vp8`: a frame is cut into pieces, each behind one byte that
marks the first of them. -/

namespace CxxDeps.Vp8

open Rtp

/-- The loop of `send_frame`. The copy stays inside the frame. -/
def pieces (frame : List UInt8) : ℕ → Sender → (index : ℕ) → Sender × List Packet
  | 0, s, _ => (s, [])
  | n + 1, s, index =>
    if index * maxRtpPayloadSize < frame.length then
      let offset := index * maxRtpPayloadSize
      let payloadLength :=
        if offset + maxRtpPayloadSize < frame.length then maxRtpPayloadSize
        else frame.length - offset
      let vp8Header : UInt8 := if index = 0 then 0x10 else 0x00
      let pkt := s.newPacket (decide (offset + payloadLength ≥ frame.length))
        (vp8Header :: (frame.drop offset).take payloadLength)
      let q := pieces frame n (s.sendPacket pkt) (index + 1)
      (q.1, pkt :: q.2)
    else (s, [])

/-- `sender_video_vp8::send_frame`. -/
def sendFrame (s : Sender) (frame : List UInt8) (duration : UInt32) : Sender × List Packet :=
  let q := pieces frame frame.length s 0
  ({ q.1 with timestamp := q.1.timestamp + duration }, q.2)

end CxxDeps.Vp8
