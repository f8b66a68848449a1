import CxxDeps.H264.Nal
import CxxDeps.Rtp.Receiver

/-! `receiver_video_h264::combin_frame`: the packets of one frame are turned
into Annex-B NAL units. `none` stands for a read behind the end of a payload,
or for an append whose length underflows. -/

namespace CxxDeps.H264

open Rtp

/-- The NAL types that end the wait for a key frame. -/
def keyType (t : UInt8) : Bool := t == 7 || t == 8 || t == 5

def startCode : List UInt8 := [0, 0, 0, 1]

/-- The local variables of `combin_frame` that outlive one packet, with the
frames handed to `on_frame` so far. -/
structure Combin where
  receiver : Receiver
  firstPkt : Option Packet := none
  fuFrameData : List UInt8 := []
  out : List Frame := []

namespace Combin

def sawKey (c : Combin) (t : UInt8) : Combin :=
  if keyType t then { c with receiver := { c.receiver with waitingForKeyframe := false } } else c

/-- `invoke_rtp_frame` or the count of a dropped frame. The frame comes back as
`invoke_rtp_frame` leaves it. -/
def emit (c : Combin) (frame : Frame) : Combin × Frame :=
  let st := c.receiver.stats
  if c.receiver.waitingForKeyframe then
    ({ c with receiver := { c.receiver with
        stats := { st with framesDroped := st.framesDroped + 1 } } }, frame)
  else
    let (r, frame) := c.receiver.invokeRtpFrame frame
    ({ c with
      receiver := { r with stats := { st with framesReceived := st.framesReceived + 1 } }
      out := c.out ++ [frame] }, frame)

end Combin

/-- The frame of one packet before any data. -/
def frameAt (pts : ℤ) : Frame := ⟨pts, pts, [], 0⟩

/-- The loop over the NAL units of an aggregation packet. The four formats
differ in the bytes before each NAL unit: `hl` of them, of which the first two
are its size, and `ts` reads the presentation time off them. -/
def aggregateLoop (t : UInt8) (hl : ℕ) (ts : List UInt8 → ℤ) :
    ℕ → List UInt8 → Frame → Combin → Option Combin
  | 0, _, _, c => some c
  | n + 1, buf, frame, c =>
    match buf with
    | b0 :: b1 :: _ =>
      if buf.length < hl then some c
      else
        let nalSize := b0.toNat * 256 + b1.toNat
        let data := buf.drop hl
        if nalSize > data.length then some c
        else
          -- nal_header_set reads *nal_data before anything else
          match data with
          | [] => none
          | _ :: _ =>
            let c := c.sawKey t
            let pts := ts buf
            let (c, frame) := c.emit
              { frame with pts, dts := pts, data := startCode ++ data.take nalSize }
            aggregateLoop t hl ts n (data.drop nalSize) frame c
    | _ => some c

def be (bytes : List UInt8) : ℕ := bytes.foldl (fun n b => n * 256 + b.toNat) 0

/-- The bytes before each NAL unit of an aggregation packet: its size, in the
MTAP formats also a decoding order difference and a time offset of two or three
bytes. -/
def aggregateHeader (t : UInt8) : ℕ := if t = 26 then 5 else if t = 27 then 6 else 2

/-- One round of the loop of `combin_frame`; `Except.error` is its `return
false`. -/
def combinPacket (c : Combin) (pkt : Packet) : Option (Except Combin Combin) :=
  let pts : ℤ := pkt.ts.toNat
  match pkt.payload with
  | p0 :: p1 :: rest =>
    let fui := nalHeaderSet p0
    if fui.f ≠ 0 then some (.ok c)
    else if fui.t ≤ 23 then
      let c := c.sawKey fui.t
      some (.ok (c.emit { frameAt pts with data := startCode ++ pkt.payload }).1)
    else if fui.t = 24 then -- STAP-A
      (aggregateLoop fui.t 2 (fun _ => pts) (p1 :: rest).length (p1 :: rest) (frameAt pts) c).map
        .ok
    else if fui.t ≤ 27 then -- STAP-B, MTAP16, MTAP24
      match rest with
      | [] => none -- payload[2]
      | _ :: buf =>
        let hl := aggregateHeader fui.t
        let ts : List UInt8 → ℤ := fun buf => pts + be ((buf.take hl).drop 3)
        (aggregateLoop fui.t hl ts buf.length buf (frameAt pts) c).map .ok
    else if fui.t ≤ 29 then -- FU-A and FU-B
      let fuh := fuHeaderSet p1
      let c := if fuh.s = 1 then { c with
          firstPkt := some pkt
          fuFrameData := startCode ++ [nalHeaderGet ⟨fui.f, fui.nri, fuh.t⟩] }
        else c
      if c.firstPkt = none then some (.ok c)
      else
        let skip := if fui.t = 29 then 4 else 2
        if pkt.payload.length < skip then none
        else some (.ok { c with fuFrameData := c.fuFrameData ++ pkt.payload.drop skip })
    else some (.error c)
  | _ => some (.ok c)

def combinLoop (c : Combin) : List Packet → Option (Except Combin Combin)
  | [] => some (.ok c)
  | pkt :: pkts =>
    match combinPacket c pkt with
    | none => none
    | some (.error c) => some (.error c)
    | some (.ok c) => combinLoop c pkts

/-- The block of `combin_frame` behind its loop. -/
def combinFu (c : Combin) : Option Combin :=
  if c.fuFrameData = [] then some c
  else
    match c.firstPkt, c.fuFrameData[4]? with
    | some pkt, some b =>
      let c := c.sawKey (nalHeaderSet b).t
      some (c.emit { frameAt pkt.ts.toNat with data := c.fuFrameData }).1
    | _, _ => none

/-- `combin_frame`: the receiver and the frames handed out. Its result is read
by no caller. -/
def combinFrame (r : Receiver) (pkts : List Packet) : Option (Receiver × List Frame) :=
  match combinLoop { receiver := r } pkts with
  | none => none
  | some (.error c) => some (c.receiver, c.out)
  | some (.ok c) => (combinFu c).map fun c => (c.receiver, c.out)

end CxxDeps.H264
