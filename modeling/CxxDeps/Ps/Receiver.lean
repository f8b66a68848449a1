import CxxDeps.H264.Receiver
import CxxDeps.Ps.Frame

/-! `receiver_ps`: a frame is the packets of one time stamp, up to a marker or a packet
of another time stamp. The window and the ring are those of the other receivers. -/

namespace CxxDeps.Ps

open Rtp
open H264 (noWindow takeSlots deref)

/-- The search loop of `find_a_frame`: the ring positions of the first frame and the
number behind it; `ts` is zero before the first packet. -/
def scanFrame (w : Slots) : List ℕ → UInt32 → Option (List (Fin packetBufferSize) × ℕ)
  | [], _ => none
  | i :: is, ts =>
    match w (slot i) with
    | none => none
    | some pkt =>
      let ts := if ts = 0 then pkt.ts else ts
      if ts ≠ pkt.ts then some ([], i)
      else if pkt.m then some ([slot i], (i + 1) % 65536)
      else (scanFrame w is ts).map fun q => (slot i :: q.1, q.2)

/-- `find_a_frame`; `none` is its `false`, which leaves the receiver alone. -/
def findAFrame (r : Receiver) (now : ℤ) : Option (Receiver × List (Option Packet)) :=
  if noWindow r then none
  else
    match scanFrame r.recvPacks (Sn.numbers (u16 r.beginSeq) (u16 r.endSeq)) 0 with
    | none => none
    | some (idxLst, i) =>
      if idxLst = [] then none
      else
        let (pkts, w) := takeSlots r.recvPacks idxLst
        some ({ r with beginSeq := i, frameBeginTs := now, recvPacks := w }, pkts)

/-- The loop of `check_for_drop`, with the number it stops at. -/
def dropLoop (now : ℤ) (r : Receiver) (ts : UInt32) (i : ℕ) : List ℕ → Receiver × ℕ
  | [] => (r, i)
  | j :: js =>
    match r.recvPacks (slot j) with
    | none => dropLoop now r ts ((j + 1) % 65536) js
    | some pkt =>
      let ts := if ts = 0 then pkt.ts else ts
      if ts ≠ pkt.ts then ({ r with frameBeginTs := now }, j)
      else
        let r := { r with recvPacks := r.recvPacks.set (slot j) none }
        if pkt.m then ({ r with frameBeginTs := now }, (j + 1) % 65536)
        else dropLoop now r ts ((j + 1) % 65536) js

def checkForDrop (r : Receiver) (now : ℤ) : Receiver :=
  if noWindow r then r
  else if !r.isTimeout now then r
  else
    let q := dropLoop now r 0 (u16 r.beginSeq) (Sn.numbers (u16 r.beginSeq) (u16 r.endSeq))
    { q.1 with beginSeq := q.2 }

/-- The frame of PES packets of one kind. -/
def joinPes (pes : List Pes) (pts dts : ℤ) : Frame :=
  ⟨pts, dts, pes.flatMap Pes.data, 0⟩

/-- The video frame of `combin_frame`, unless the receiver waits for a key frame. -/
def combinVideo (r : Receiver) (key : Bool) : List Pes → Receiver × List Frame
  | [] => (r, [])
  | p :: ps =>
    let r := { r with waitingForKeyframe := r.waitingForKeyframe && !key }
    if r.waitingForKeyframe then
      ({ r with stats := { r.stats with framesDroped := r.stats.framesDroped + 1 } }, [])
    else
      let pts : ℤ := p.pts.toNat
      let dts : ℤ := if p.ptsDtsFlags = 3 then p.dts.toNat else pts
      let (r, f) := r.invokeRtpFrame (joinPes (p :: ps) pts dts)
      ({ r with stats := { r.stats with framesReceived := r.stats.framesReceived + 1 } }, [f])

/-- The audio frame of `combin_frame`; the second stamp replaces the first. -/
def combinAudio (r : Receiver) : List Pes → Receiver × List Frame
  | [] => (r, [])
  | p :: ps =>
    let (pts, dts) : ℤ × ℤ :=
      if p.ptsDtsFlags = 3 then (p.dts.toNat, 0) else (p.pts.toNat, p.pts.toNat)
    let (r, f) := r.invokeRtpFrame (joinPes (p :: ps) pts dts)
    ({ r with stats := { r.stats with framesReceived := r.stats.framesReceived + 1 } }, [f])

/-- The PES packets among the blocks of a stream. -/
def pesOf (startCode : UInt8) (blocks : List Block) : List Pes :=
  blocks.filterMap fun b => if b.startCode = startCode then Pes.deserialize b.block else none

/-- `combin_frame`. What the system header and the map say is not used. -/
def combinFrame (r : Receiver) (pkts : List Packet) : Receiver × List Frame :=
  let blocks := (PsFrame.deserialize (pkts.flatMap Packet.payload)).getD []
  let key := blocks.any (·.startCode = systemHeader)
  let (r, video) := combinVideo r key (pesOf videoStart blocks)
  let (r, audio) := combinAudio r (pesOf audioStart blocks)
  (r, video ++ audio)

/-- `while (find_a_frame(frame)) combin_frame(frame);` -/
def drainFrames (now : ℤ) : ℕ → Receiver → Option (Receiver × List Frame)
  | 0, r => some (r, [])
  | n + 1, r =>
    match findAFrame r now with
    | none => some (r, [])
    | some (r, pkts) => do
      let packets ← deref pkts
      let (r, frames) := combinFrame r packets
      let (r, rest) ← drainFrames now n r
      return (r, frames ++ rest)

/-- `receiver_ps::insert_packet`, with one reading of the clock. -/
def insertPacket (r : Receiver) (pkt : Packet) (now : ℤ) : Option (Receiver × List Frame) := do
  let (r, frames) ← drainFrames now (packetBufferSize + 1) (r.insertPacket pkt now)
  return (checkForDrop r now, frames)

/-- Packets that arrive in order. -/
def receive : Receiver → List (Packet × ℤ) → Option (Receiver × List Frame)
  | r, [] => some (r, [])
  | r, (pkt, now) :: rest => do
    let (r, frames) ← insertPacket r pkt now
    let (r, more) ← receive r rest
    return (r, frames ++ more)

end CxxDeps.Ps
