import CxxDeps.H264.Nal
import CxxDeps.Ps.Frame
import CxxDeps.Rtp.Sender

/-! `sender_ps`: the NAL units of a frame, each to be cut into PES packets, in one
program stream frame that is sent in pieces. `find_next_nal` leaves the start codes out
of the NAL units, and `send_nal` looks for one in each of them. -/

namespace CxxDeps.Ps

open Rtp

/-- `h264::find_nal_start`: the position behind the first start code. -/
def findNalStart : List UInt8 → (i : ℕ) → (zeroes : ℤ) → Option ℕ
  | [], _, _ => none
  | b :: bs, i, zeroes =>
    if b = 0 then findNalStart bs (i + 1) (H264.incZeroes zeroes)
    else if b = 1 ∧ zeroes ≥ 2 then some (i + 1)
    else findNalStart bs (i + 1) 0

/-- `is_key_frame` of `get_nal_type`. -/
def isKeyFrame (b : UInt8) : Bool :=
  let type := b &&& 0x1F
  type = 5 || type = 7 || type = 8

/-- `sys_header::serialize` of the header that `send_nal` fills in: the rate, the bounds
and locks of one audio and one video stream, and their buffers. -/
def sysHeaderBytes : List UInt8 :=
  let rateBound : UInt32 := 10036
  let one : UInt8 := 1
  let three : UInt8 := 3
  [(0x80 : UInt8) ||| ((rateBound &&& 0x3f8000) >>> 15).toUInt8,
    ((rateBound &&& 0x7f80) >>> 7).toUInt8, ((rateBound &&& 0x7f) <<< 1).toUInt8 ||| one,
    one <<< 2, (one <<< 7) ||| (one <<< 6) ||| (one <<< 5) ||| one, 0x7F,
    videoStart, (three <<< 6) ||| (one <<< 5) ||| 0x00, 0x80,
    audioStart, (three <<< 6) ||| 0x00, 0x08]

/-- `psm2::serialize` of a current map of version 0x17 without streams. -/
def psmBytes : List UInt8 := [((1 : UInt8) <<< 7) ||| 0x60 ||| 0x17, 0xFF, 0, 0, 0, 0]

/-- The blocks in front of a key frame, each at most once. -/
def addHeaders (frame : PsFrame) : PsFrame :=
  let frame :=
    if frame.hasHeader systemHeader then frame
    else { frame with blocks := frame.blocks ++ [⟨systemHeader, sysHeaderBytes⟩] }
  if frame.hasHeader programMap then frame
  else { frame with blocks := frame.blocks ++ [⟨programMap, psmBytes⟩] }

/-- The pieces of a NAL unit. Their length is computed in sixteen bits, so a rest of a
multiple of 65536 bytes is never finished: `none`. -/
def chunks : ℕ → List UInt8 → Option (List (List UInt8))
  | _, [] => some []
  | 0, _ :: _ => none
  | n + 1, b :: bs =>
    let len := min 65000 ((b :: bs).length % 65536)
    (chunks n ((b :: bs).drop len)).map ((b :: bs).take len :: ·)

/-- The PES packet of a piece, behind a start code. -/
def pesBlock (ts : UInt64) (key : Bool) (piece : List UInt8) : Block :=
  let pes : Pes :=
    { pesPriority := if key then 1 else 0
      ptsDtsFlags := 2
      pts := ts &&& 0x1ffffffff
      stuffingLength := 2
      data := [0, 0, 0, 1] ++ piece }
  ⟨videoStart, pes.serialize⟩

/-- The body of the loop over the NAL units. -/
def addNal (ts : UInt64) (frame : PsFrame) (nal : List UInt8) : Option PsFrame :=
  match findNalStart nal 0 0 with
  | none => some frame
  | some nalStart =>
    let key := isKeyFrame (nal.getD nalStart 0)
    let frame := if key then addHeaders frame else frame
    (chunks (nal.length + 1) nal).map fun pieces =>
      { frame with blocks := frame.blocks ++ pieces.map (pesBlock ts key) }

/-- The frame of `send_nal` before any NAL unit. -/
def emptyFrame (ts : UInt64) : PsFrame :=
  { psh := { timestamp := ts &&& 0x1ffffffff, programMuxRate := 10036, packStuffingLength := 6 } }

/-- `send_rtp_frame`. `share` is the product of floating-point numbers by which a packet
moves the clock; no packet has a marker. -/
def sendRtpFrame (share : ℕ → ℕ → UInt32 → UInt32) (frame : List UInt8) (duration : UInt32) :
    ℕ → Sender → (index : ℕ) → Sender × List Packet
  | 0, s, _ => (s, [])
  | n + 1, s, index =>
    if index * maxRtpPayloadSize < frame.length then
      let offset := index * maxRtpPayloadSize
      let payloadLength :=
        if offset + maxRtpPayloadSize < frame.length then maxRtpPayloadSize
        else frame.length - offset
      let pkt := s.newPacket false ((frame.drop offset).take payloadLength)
      let s := s.sendPacket pkt
      let s := { s with timestamp := s.timestamp + share payloadLength frame.length duration }
      let q := sendRtpFrame share frame duration n s (index + 1)
      (q.1, pkt :: q.2)
    else (s, [])

/-- `send_nal`. -/
def sendNal (share : ℕ → ℕ → UInt32 → UInt32) (s : Sender) (duration : UInt32)
    (nals : List (List UInt8)) : Option (Sender × List Packet) :=
  let ts := (s.timestamp + duration).toUInt64
  (nals.foldlM (addNal ts) (emptyFrame ts)).map fun psframe =>
    let frame := psframe.serialize
    sendRtpFrame share frame duration (frame.length + 1) s 0

/-- `sender_ps::send_frame`; `none` where it does not return. -/
def sendFrame (share : ℕ → ℕ → UInt32 → UInt32) (s : Sender) (frame : List UInt8)
    (duration : UInt32) : Option (Sender × List Packet) :=
  sendNal share s duration (H264.findNals frame (frame.length + 1) 0)

end CxxDeps.Ps
