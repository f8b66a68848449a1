import CxxDeps.H264.Depacketize
import CxxDeps.H265.Nal

/-! `receiver_video_h265::combin_frame`. Its local variables and the way it hands
out a frame are those of the H.264 receiver. `none` stands for a read behind the
end of a payload. -/

namespace CxxDeps.H265

open Rtp
open H264 (Combin frameAt startCode fuHeaderSet)

/-- `is_key_frame`. -/
def keyType (t : UInt8) : Bool := t == 19 || t == 34 || t == 33

def sawKey (c : Combin) (t : UInt8) : Combin :=
  if keyType t then { c with receiver := { c.receiver with waitingForKeyframe := false } } else c

/-- The loop over the NAL units of an aggregation packet. -/
def apLoop : ℕ → List UInt8 → Frame → Combin → Combin
  | 0, _, _, c => c
  | n + 1, buf, frame, c =>
    match buf with
    | b0 :: b1 :: data =>
      let nalSize := b0.toNat * 256 + b1.toNat
      if nalSize > data.length then c
      else
        let nalh := nalHeaderSet {} (data.take nalSize)
        let c := sawKey c nalh.type
        let (c, frame) := c.emit { frame with data := startCode ++ data.take nalSize }
        apLoop n (data.drop nalSize) frame c
    | _ => c

/-- One round of the loop of `combin_frame`; `Except.error` is its `return
false`. -/
def combinPacket (c : Combin) (pkt : Packet) : Option (Except Combin Combin) :=
  if pkt.payload.length < 2 then some (.ok c)
  else
    let frame := frameAt pkt.ts.toNat
    let fui := nalHeaderSet {} pkt.payload
    if fui.f ≠ 0 then some (.ok c)
    else if fui.type < 48 then
      let c := sawKey c fui.type
      some (.ok (c.emit { frame with data := startCode ++ pkt.payload }).1)
    else if fui.type = 48 then -- AP
      some (.ok (apLoop pkt.payload.length (pkt.payload.drop 2) frame c))
    else if fui.type = 49 then -- FU
      match pkt.payload[2]? with
      | none => none
      | some v =>
        let fuh := fuHeaderSet v
        let c := if fuh.s = 1 then { c with
            firstPkt := some pkt
            fuFrameData := startCode ++ nalHeaderGet { fui with type := fuh.t } }
          else c
        if c.firstPkt = none then some (.ok c)
        else some (.ok { c with fuFrameData := c.fuFrameData ++ pkt.payload.drop 3 })
    else some (.error c)

def combinLoop (c : Combin) : List Packet → Option (Except Combin Combin)
  | [] => some (.ok c)
  | pkt :: pkts =>
    match combinPacket c pkt with
    | none => none
    | some (.error c) => some (.error c)
    | some (.ok c) => combinLoop c pkts

/-- The block of `combin_frame` behind its loop. -/
def combinFu (c : Combin) : Option Combin :=
  if c.fuFrameData = [] then some c
  else
    match c.firstPkt with
    | none => none
    | some pkt =>
      let nalh := nalHeaderSet {} (c.fuFrameData.drop 4)
      let c := sawKey c nalh.type
      some (c.emit { frameAt pkt.ts.toNat with data := c.fuFrameData }).1

/-- `combin_frame`: the receiver and the frames handed out. -/
def combinFrame (r : Receiver) (pkts : List Packet) : Option (Receiver × List Frame) :=
  match combinLoop { receiver := r } pkts with
  | none => none
  | some (.error c) => some (c.receiver, c.out)
  | some (.ok c) => (combinFu c).map fun c => (c.receiver, c.out)

end CxxDeps.H265
