import CxxDeps.H264.Depacketize

/-! The H.264 receiver: extraction of complete frames from the window, the drop
of a frame that stays incomplete, and `insert_packet`. Every call reads the clock
once. -/

namespace CxxDeps.H264

open Rtp

/-- The search loop of `find_a_frame` over the window numbers: the ring
positions up to the first marker and the number behind it. -/
def scanFrame (w : Slots) : List ℕ → Option (List (Fin packetBufferSize) × ℕ)
  | [] => none
  | i :: is =>
    match w (slot i) with
    | none => none
    | some pkt =>
      if pkt.m then some ([slot i], (i + 1) % 65536)
      else (scanFrame w is).map fun q => (slot i :: q.1, q.2)

/-- `pkts.push_back(recv_packs_[idx]); recv_packs_[idx].reset();` for each
position. A position that comes twice gives a null pointer the second time. -/
def takeSlots (w : Slots) : List (Fin packetBufferSize) → List (Option Packet) × Slots
  | [] => ([], w)
  | i :: is =>
    let (pkts, w') := takeSlots (w.set i none) is
    (w i :: pkts, w')

/-- The test at the head of `find_a_frame` and `check_for_drop`. -/
def noWindow (r : Receiver) : Bool :=
  decide (r.beginSeq < 0) || decide (r.endSeq < 0) ||
    Sn.aheadOf 16 0 (u16 r.beginSeq) (u16 r.endSeq)

/-- `find_a_frame`; `none` is its `false`, which leaves the receiver alone. -/
def findAFrame (r : Receiver) (now : ℤ) : Option (Receiver × List (Option Packet)) :=
  if noWindow r then none
  else
    match scanFrame r.recvPacks (Sn.numbers (u16 r.beginSeq) (u16 r.endSeq)) with
    | none => none
    | some (idxLst, i) =>
      let (pkts, w) := takeSlots r.recvPacks idxLst
      some ({ r with beginSeq := i, frameBeginTs := now, recvPacks := w }, pkts)

/-- The body of the loop of `check_for_drop` for a packet whose payload starts
with `b`. -/
def releaseSlot (r : Receiver) (i : Fin packetBufferSize) (b : UInt8) : Receiver :=
  { r with
    waitingForKeyframe := r.waitingForKeyframe || decide ((nalHeaderSet b).nri > 0)
    recvPacks := r.recvPacks.set i none }

/-- The loop of `check_for_drop`, with the number it stops at. The first byte of
a dropped packet is read without a test. -/
def dropLoop (now : ℤ) (r : Receiver) (i : ℕ) : List ℕ → Option (Receiver × ℕ)
  | [] => some (r, i)
  | j :: js =>
    match r.recvPacks (slot j) with
    | none => dropLoop now r ((j + 1) % 65536) js
    | some pkt =>
      match pkt.payload with
      | [] => none
      | b :: _ =>
        let r := releaseSlot r (slot j) b
        if pkt.m then some ({ r with frameBeginTs := now }, (j + 1) % 65536)
        else dropLoop now r ((j + 1) % 65536) js

/-- `check_for_drop`. -/
def checkForDrop (r : Receiver) (now : ℤ) : Option Receiver :=
  if noWindow r then some r
  else if !r.isTimeout now then some r
  else
    (dropLoop now r (u16 r.beginSeq) (Sn.numbers (u16 r.beginSeq) (u16 r.endSeq))).map
      fun q => { q.1 with beginSeq := q.2 }

/-- A frame taken out of the window, with what `combin_frame` made of it. -/
structure Handed where
  packets : List Packet
  frames : List Frame

/-- The pointers of a frame, when none of them is null. -/
def deref : List (Option Packet) → Option (List Packet)
  | [] => some []
  | none :: _ => none
  | some p :: ps => (deref ps).map (p :: ·)

@[simp] theorem deref_map_some (ps : List Packet) : deref (ps.map some) = some ps := by
  induction ps with
  | nil => rfl
  | cons p ps ih => simp [deref, ih]

/-- `while (find_a_frame(frame)) combin_frame(frame);` -/
def drainFrames (now : ℤ) : ℕ → Receiver → Option (Receiver × List Handed)
  | 0, r => some (r, [])
  | n + 1, r =>
    match findAFrame r now with
    | none => some (r, [])
    | some (r, pkts) => do
      let packets ← deref pkts
      let (r, frames) ← combinFrame r packets
      let (r, hs) ← drainFrames now n r
      return (r, ⟨packets, frames⟩ :: hs)

/-- `receiver_video_h264::insert_packet`. Each round of its loop empties a slot,
so `PACKET_BUFFER_SIZE` rounds and a last one are all it can make. -/
def insertPacket (r : Receiver) (pkt : Packet) (now : ℤ) : Option (Receiver × List Handed) := do
  let (r, hs) ← drainFrames now (packetBufferSize + 1) (r.insertPacket pkt now)
  let r ← checkForDrop r now
  return (r, hs)

/-! ### `combin_frame` leaves the window alone -/

/-- The window part of a receiver, which `combin_frame` never touches. -/
structure SameWindow (r r' : Receiver) : Prop where
  beginSeq : r'.beginSeq = r.beginSeq
  endSeq : r'.endSeq = r.endSeq
  reset : r'.reset = r.reset
  recvPacks : r'.recvPacks = r.recvPacks

namespace SameWindow

theorem refl (r : Receiver) : SameWindow r r := ⟨rfl, rfl, rfl, rfl⟩

theorem trans {r s t : Receiver} (h : SameWindow r s) (h' : SameWindow s t) : SameWindow r t :=
  ⟨h'.1.trans h.1, h'.2.trans h.2, h'.3.trans h.3, h'.4.trans h.4⟩

end SameWindow

theorem Combin.sawKey_sameWindow (c : Combin) (t : UInt8) :
    SameWindow c.receiver (c.sawKey t).receiver := by
  unfold Combin.sawKey
  split <;> exact ⟨rfl, rfl, rfl, rfl⟩

theorem Combin.emit_sameWindow (c : Combin) (f : Frame) :
    SameWindow c.receiver (c.emit f).1.receiver := by
  unfold Combin.emit
  dsimp only
  split <;> exact ⟨rfl, rfl, rfl, rfl⟩

theorem aggregateLoop_sameWindow {t : UInt8} {hl : ℕ} {ts : List UInt8 → ℤ} (n : ℕ)
    {buf : List UInt8} {f : Frame} {c c' : Combin}
    (h : aggregateLoop t hl ts n buf f c = some c') : SameWindow c.receiver c'.receiver := by
  induction n generalizing buf f c with
  | zero => cases h; exact .refl _
  | succ n ih =>
    unfold aggregateLoop at h
    split at h
    · split at h
      · cases h; exact .refl _
      · dsimp only at h
        split at h
        · cases h; exact .refl _
        · split at h
          · cases h
          · exact ((c.sawKey_sameWindow t).trans (Combin.emit_sameWindow _ _)).trans (ih h)
    · cases h; exact .refl _

/-- The combination after a packet, on either way out of the loop's body. -/
def afterPacket : Except Combin Combin → Combin
  | .ok c => c
  | .error c => c

theorem combinPacket_sameWindow {c : Combin} {pkt : Packet} {q : Except Combin Combin}
    (h : combinPacket c pkt = some q) : SameWindow c.receiver (afterPacket q).receiver := by
  unfold combinPacket at h
  dsimp only at h
  split at h
  · split_ifs at h
    all_goals first
      | (cases h; exact .refl _)
      | (cases h; exact (c.sawKey_sameWindow _).trans (Combin.emit_sameWindow _ _))
      | skip
    · obtain ⟨c', hc, rfl⟩ := Option.map_eq_some_iff.mp h
      exact aggregateLoop_sameWindow _ hc
    · split at h
      · cases h
      · obtain ⟨c', hc, rfl⟩ := Option.map_eq_some_iff.mp h
        exact aggregateLoop_sameWindow _ hc
  · cases h; exact .refl _

theorem combinLoop_sameWindow {c : Combin} {pkts : List Packet} {q : Except Combin Combin}
    (h : combinLoop c pkts = some q) : SameWindow c.receiver (afterPacket q).receiver := by
  induction pkts generalizing c with
  | nil => cases h; exact .refl _
  | cons pkt pkts ih =>
    unfold combinLoop at h
    split at h
    · cases h
    · next hp => cases h; exact combinPacket_sameWindow hp
    · next hp => exact (combinPacket_sameWindow hp).trans (ih h)

theorem combinFrame_sameWindow {r r' : Receiver} {pkts : List Packet} {fs : List Frame}
    (h : combinFrame r pkts = some (r', fs)) : SameWindow r r' := by
  unfold combinFrame at h
  split at h
  · cases h
  · next hl => cases h; exact combinLoop_sameWindow hl
  · next c hl =>
    obtain ⟨c', hc, he⟩ := Option.map_eq_some_iff.mp h
    cases he
    refine (combinLoop_sameWindow hl).trans ?_
    unfold combinFu at hc
    dsimp only at hc
    split_ifs at hc
    · cases hc; exact .refl _
    · split at hc
      · cases hc; exact (c.sawKey_sameWindow _).trans (Combin.emit_sameWindow _ _)
      · cases hc

end CxxDeps.H264
