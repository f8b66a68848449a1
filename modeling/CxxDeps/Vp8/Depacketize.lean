import CxxDeps.Rtp.VideoStreams
import CxxDeps.Vp8.Header

/-! `receiver_video_vp8::combin_frame`: the packets of a frame without their
descriptors, one after the other. What `sender_video_vp8` made of a frame comes
back as that frame. -/

namespace CxxDeps.Vp8

open Rtp

/-- The local variables of `combin_frame` behind a packet. -/
structure Combin where
  firstPkt : Option Packet := none
  firstPktVp8Header : Header := {}
  frameData : List UInt8 := []

/-- One round of the loop of `combin_frame`, with `true` for its `break`. -/
def combinPacket (c : Combin) (pkt : Packet) : Combin × Bool :=
  match headerDeserialize 0 pkt.payload with
  | .error _ => (c, false)
  | .ok r =>
    let c := if r.hdr.startofVp8Partition ≠ 0
      then { c with firstPkt := some pkt, firstPktVp8Header := r.hdr } else c
    if c.firstPkt = none then (c, false)
    else if pkt.payload.length ≤ r.headerSize then (c, false)
    else ({ c with frameData := c.frameData ++ pkt.payload.drop r.headerSize }, pkt.m)

def combinLoop (c : Combin) : List Packet → Combin
  | [] => c
  | pkt :: pkts =>
    let q := combinPacket c pkt
    if q.2 then q.1 else combinLoop q.1 pkts

/-- `combin_frame`: the receiver and the frame handed out, if there is one. Its
result is read by no caller. -/
def combinFrame (r : Receiver) (pkts : List Packet) : Receiver × Option Frame :=
  let c := combinLoop {} pkts
  match c.firstPkt with
  | none => (r, none)
  | some first =>
    let h := c.firstPktVp8Header
    let r := if h.startofVp8Partition = 1 ∧ h.partIndex = 0 ∧ h.p = 0
      then { r with waitingForKeyframe := false } else r
    let pts : ℤ := first.ts.toNat
    if r.waitingForKeyframe then
      ({ r with stats := { r.stats with framesDroped := r.stats.framesDroped + 1 } }, none)
    else
      let (r', frame) := r.invokeRtpFrame ⟨pts, pts, c.frameData, 0⟩
      ({ r' with stats := { r.stats with framesReceived := r.stats.framesReceived + 1 } },
        some frame)

/-! ### Packets without an extension -/

/-- The first packet of a frame: the first payload byte tells a key frame. -/
theorem headerDeserialize_first (b0 b1 b2 : UInt8) (rest : List UInt8) :
    ∃ hdr, headerDeserialize 0 (0x10 :: b0 :: b1 :: b2 :: rest) = .ok ⟨hdr, 1, 4, rest⟩ ∧
      hdr.startofVp8Partition = 1 ∧ hdr.partIndex = 0 ∧ hdr.p = field 1 b0 0x01 0 :=
  ⟨_, rfl, rfl, rfl, rfl⟩

theorem headerDeserialize_next (rest : List UInt8) :
    headerDeserialize 0 (0x00 :: rest) = .ok ⟨{}, 1, 1, rest⟩ := rfl

/-- A packet behind the first one adds its bytes. -/
theorem combinPacket_next {c : Combin} (hfirst : c.firstPkt ≠ none) {pkt : Packet}
    {chunk : List UInt8} (hp : pkt.payload = 0x00 :: chunk) (hne : chunk ≠ []) :
    combinPacket c pkt = ({ c with frameData := c.frameData ++ chunk }, pkt.m) := by
  have hpos := List.length_pos_iff.mpr hne
  have hS : ¬ (({} : Header).startofVp8Partition ≠ 0) := by decide
  simp only [combinPacket, hp, headerDeserialize_next, if_neg hS, if_neg hfirst,
    List.length_cons, List.drop_succ_cons, List.drop_zero]
  rw [if_neg (by omega)]

theorem combinPacket_first (pkt : Packet) (b0 b1 b2 : UInt8) (rest : List UInt8)
    (hp : pkt.payload = 0x10 :: b0 :: b1 :: b2 :: rest) :
    ∃ hdr, combinPacket {} pkt = (⟨some pkt, hdr, b0 :: b1 :: b2 :: rest⟩, pkt.m) ∧
      hdr.startofVp8Partition = 1 ∧ hdr.partIndex = 0 ∧ hdr.p = field 1 b0 0x01 0 := by
  obtain ⟨hdr, hread, hS, hpid, hkey⟩ := headerDeserialize_first b0 b1 b2 rest
  refine ⟨hdr, ?_, hS, hpid, hkey⟩
  have hstart : hdr.startofVp8Partition ≠ 0 := by rw [hS]; decide
  simp only [combinPacket, hp, hread, if_pos hstart, reduceCtorEq, if_false, List.length_cons,
    List.drop_succ_cons, List.drop_zero, List.nil_append]
  rw [if_neg (by omega)]

/-! ### The pieces of a frame -/

theorem pieces_of_le {frame : List UInt8} (fuel : ℕ) (s : Sender) {index : ℕ}
    (h : frame.length ≤ index * 1200) : pieces frame fuel s index = (s, []) := by
  cases fuel with
  | zero => rfl
  | succ fuel =>
    rw [pieces, if_neg (show ¬ index * maxRtpPayloadSize < frame.length from Nat.not_lt.mpr h)]

/-- The pieces from `index` on, behind a first one, add the rest of the frame. The
marker of the last of them ends the loop. -/
theorem combinLoop_pieces {frame : List UInt8} (fuel : ℕ) (s : Sender) {index : ℕ}
    (hi : 0 < index) (hfuel : frame.length - index * 1200 ≤ fuel) {c : Combin}
    (hfirst : c.firstPkt ≠ none) :
    combinLoop c (pieces frame fuel s index).2 =
      { c with frameData := c.frameData ++ frame.drop (index * 1200) } := by
  induction fuel generalizing s index c with
  | zero =>
    rw [pieces_of_le 0 s (by omega), List.drop_eq_nil_of_le (by omega), List.append_nil]
    rfl
  | succ fuel ih =>
    by_cases hlt : index * 1200 < frame.length
    · have hpayload : (piece frame s index).payload =
          0x00 :: (frame.drop (index * 1200)).take 1200 := by
        simp only [piece, Sender.newPacket, if_neg hi.ne']
      have hne : (frame.drop (index * 1200)).take 1200 ≠ [] := by
        simp only [ne_eq, List.take_eq_nil_iff, List.drop_eq_nil_iff]
        omega
      rw [pieces_step fuel s hlt, combinLoop, combinPacket_next hfirst hpayload hne]
      by_cases hlast : frame.length ≤ (index + 1) * 1200
      · have hm : (piece frame s index).m = true := decide_eq_true hlast
        rw [if_pos hm, List.take_of_length_le (by rw [List.length_drop]; omega)]
      · have hm : ¬ (piece frame s index).m = true := by
          rw [piece, Sender.newPacket, decide_eq_true_eq]
          exact hlast
        have hnext : frame.length - (index + 1) * 1200 ≤ fuel := by
          rw [Nat.add_mul, ← Nat.sub_sub]
          exact (Nat.sub_le_sub_right hfuel _).trans (by omega)
        have hrest := @ih (s.sendPacket (piece frame s index)) (index + 1) (by omega) hnext
          { c with frameData := c.frameData ++ (frame.drop (index * 1200)).take 1200 } hfirst
        rw [if_neg hm, hrest, Nat.add_mul, Nat.one_mul, ← List.drop_drop]
        simp only [List.append_assoc, List.take_append_drop]
    · rw [pieces_of_le _ s (by omega), List.drop_eq_nil_of_le (by omega), List.append_nil]
      rfl

/-- The loop of `combin_frame` over all pieces. -/
theorem combinLoop_sendFrame (s : Sender) (b0 b1 b2 : UInt8) (rest : List UInt8)
    (duration : UInt32) :
    ∃ pkt hdr, combinLoop {} (sendFrame s (b0 :: b1 :: b2 :: rest) duration).2 =
        ⟨some pkt, hdr, b0 :: b1 :: b2 :: rest⟩ ∧
      hdr.startofVp8Partition = 1 ∧ hdr.partIndex = 0 ∧ hdr.p = field 1 b0 0x01 0 := by
  set frame := b0 :: b1 :: b2 :: rest with hframe
  have hpos : 0 * 1200 < frame.length := by rw [hframe, List.length_cons]; omega
  obtain ⟨hdr, hfirst, hhdr⟩ := combinPacket_first (piece frame s 0) b0 b1 b2 (rest.take 1197) rfl
  refine ⟨piece frame s 0, hdr, ?_, hhdr⟩
  have hsend : (sendFrame s frame duration).2 = (pieces frame (rest.length + 3) s 0).2 := rfl
  rw [hsend, pieces_step (rest.length + 2) s hpos, combinLoop, hfirst]
  have htake : b0 :: b1 :: b2 :: rest.take 1197 = frame.take 1200 := rfl
  rw [htake]
  by_cases hlast : frame.length ≤ (0 + 1) * 1200
  · have hm : (piece frame s 0).m = true := decide_eq_true hlast
    rw [if_pos hm, List.take_of_length_le (by omega)]
  · have hm : ¬ (piece frame s 0).m = true := by
      rw [piece, Sender.newPacket, decide_eq_true_eq]
      exact hlast
    have hlen : frame.length = rest.length + 3 := rfl
    rw [if_neg hm, combinLoop_pieces _ _ (Nat.succ_pos 0) (by omega) (by simp)]
    simp only [Nat.one_mul, List.take_append_drop]

/-- The first payload byte of a key frame. -/
def keyFrame (frame : List UInt8) : Prop := ∀ b ∈ frame.head?, b &&& 0x01 = 0

theorem field_p (b : UInt8) : field 1 b 0x01 0 = 0 ↔ b &&& 0x01 = 0 := by
  revert b; exact Library.forall_uint8 (by decide +kernel)

/-- A frame of at least three bytes comes back, if it is a key frame or none is
waited for. -/
theorem combinFrame_sendFrame (s : Sender) (r : Receiver) (frame : List UInt8)
    (duration : UInt32) (h3 : 3 ≤ frame.length)
    (hkey : keyFrame frame ∨ r.waitingForKeyframe = false) :
    ∃ r' f, combinFrame r (sendFrame s frame duration).2 = (r', some f) ∧ f.data = frame := by
  rcases frame with _ | ⟨b0, _ | ⟨b1, _ | ⟨b2, rest⟩⟩⟩
  · simp at h3
  · simp at h3
  · simp at h3
  obtain ⟨pkt, hdr, hloop, hS, hpid, hp⟩ := combinLoop_sendFrame s b0 b1 b2 rest
    duration
  have hr : (if hdr.startofVp8Partition = 1 ∧ hdr.partIndex = 0 ∧ hdr.p = 0
      then { r with waitingForKeyframe := false } else r).waitingForKeyframe = false := by
    rcases hkey with hkey | hwait
    · have hp0 : hdr.p = 0 := by rw [hp, field_p]; exact hkey b0 rfl
      rw [if_pos ⟨hS, hpid, hp0⟩]
    · split_ifs
      · rfl
      · exact hwait
  rw [combinFrame, hloop]
  simp only [hr, Bool.false_eq_true, if_false]
  refine ⟨_, _, rfl, ?_⟩
  unfold Receiver.invokeRtpFrame
  dsimp only
  split_ifs <;> rfl

/-- A key frame of four bytes, for a receiver that waits for one. -/
theorem combinFrame_keyFrame :
    ∃ r' f, combinFrame (Receiver.newVideo 1)
      (sendFrame { pt := 96, ssrc := 1, seq := 7 } [0x50, 2, 0, 9] 3000).2 = (r', some f) ∧
        f.data = [0x50, 2, 0, 9] :=
  combinFrame_sendFrame _ _ _ 3000 (by decide) (.inl (by rintro b ⟨⟩; decide))

end CxxDeps.Vp8
