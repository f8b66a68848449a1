import CxxDeps.H265.Fragmentation
import CxxDeps.Vp8.Sender

/-! The packet streams of the three video senders. NAL units sent one by one and
VP8 frames keep the stream well formed. A frame that goes out as one aggregation
packet does not: `send_frame` returns without moving the timestamp, and the marker
bit stays off when the first NAL unit is a parameter set. -/

namespace CxxDeps.Rtp

open H264 (Sendable maxFragmented)

/-! ### H.264 -/

theorem h264_nalPackets_burst {nal : List UInt8} (hs : Sendable nal) (s : Sender)
    (islast : Bool) :
    ∃ s' pkts, H264.nalPackets s nal islast = some (s', pkts) ∧ Burst s s' islast pkts := by
  unfold H264.nalPackets
  by_cases hlen : nal.length ≤ maxRtpPayloadSize
  · rw [if_pos hlen]
    exact ⟨_, _, rfl, .packet s islast nal⟩
  · rw [if_neg hlen]
    simp only [Sendable] at hs
    simp only [maxRtpPayloadSize, not_le] at hlen
    rcases nal with _ | ⟨nal0, rest⟩
    · simp at hlen
    · rw [List.length_cons] at hs hlen
      simp only [H265.fuLoop_h264]
      exact H265.fuLoop_burst (by omega) islast s rest (by omega) (by omega) (by simp)

theorem h264_sendNals_eq (s : Sender) (duration : UInt32) (nals : List (List UInt8)) :
    H264.sendNals s duration nals =
      sendEach (fun s nal islast => H264.sendNal s duration nal islast) s nals := by
  induction nals generalizing s with
  | nil => rfl
  | cons nal nals ih => simp only [H264.sendNals, sendEach, ih]

/-! ### Senders with aggregation -/

/-- All NAL units of an aggregation packet are short. -/
theorem Aggregated.sendable {nals : List (List UInt8)} (h : Aggregated nals) :
    ∀ nal ∈ nals, Sendable nal := by
  intro nal hnal
  have hle := (List.le_sum_of_mem (List.mem_map_of_mem hnal)).trans h.1
  exact hle.trans (by norm_num [maxRtpPayloadSize, maxFragmented])

/-- What the calls of a sender have to meet: no NAL unit is too long for the
32-bit offsets, a frame sent as one aggregation packet starts with no parameter
set, and if another frame follows it its duration is zero. -/
structure StreamOk (nalsOf : List UInt8 → List (List UInt8)) (parameterSet : List UInt8 → Bool)
    (calls : List Call) : Prop where
  sendable : ∀ c ∈ calls, ∀ nal ∈ nalsOf c.frame, Sendable nal
  marked : ∀ c ∈ calls, Aggregated (nalsOf c.frame) →
    parameterSet ((nalsOf c.frame).headD []) = false
  advances : ∀ c ∈ calls.dropLast, Aggregated (nalsOf c.frame) → c.duration = 0

section

variable {nalsOf : List UInt8 → List (List UInt8)} {parameterSet : List UInt8 → Bool}
  {payload : List (List UInt8) → List UInt8}
  {sendNal : Sender → UInt32 → List UInt8 → Bool → Option (Sender × List Packet)}

/-- `send_frame` as both senders have it. -/
def sendAggregating (nalsOf : List UInt8 → List (List UInt8)) (parameterSet : List UInt8 → Bool)
    (payload : List (List UInt8) → List UInt8)
    (sendNal : Sender → UInt32 → List UInt8 → Bool → Option (Sender × List Packet)) (s : Sender)
    (c : Call) : Option (Sender × List Packet) :=
  if Aggregated (nalsOf c.frame) then
    let pkt := s.newPacket (!parameterSet ((nalsOf c.frame).headD [])) (payload (nalsOf c.frame))
    some (s.sendPacket pkt, [pkt])
  else sendEach (fun s nal islast => sendNal s c.duration nal islast) s (nalsOf c.frame)

theorem sendAggregating_sends
    (hsent : ∀ nal, Sendable nal → ∀ s duration islast,
      Sent s (sendNal s duration nal islast) islast (if islast then duration else 0))
    {c : Call} (hne : nalsOf c.frame ≠ []) (hs : ∀ nal ∈ nalsOf c.frame, Sendable nal) :
    Sends (sendAggregating nalsOf parameterSet payload sendNal) c
      (if Aggregated (nalsOf c.frame) then !parameterSet ((nalsOf c.frame).headD []) else true)
      (if Aggregated (nalsOf c.frame) then 0 else c.duration) := by
  intro s
  unfold sendAggregating
  by_cases ha : Aggregated (nalsOf c.frame)
  · simp only [if_pos ha]
    exact ⟨_, _, _, rfl, .packet s _ _, rfl, (UInt32.add_zero _).symm⟩
  · simp only [if_neg ha]
    exact sendEach_sent hne (fun nal hnal s islast => hsent nal (hs nal hnal) s c.duration islast) s

/-- The stream of a sender with aggregation. -/
theorem sendAggregating_streams_iff
    (hsent : ∀ nal, Sendable nal → ∀ s duration islast,
      Sent s (sendNal s duration nal islast) islast (if islast then duration else 0))
    (hnone : ∀ nal, ¬ Sendable nal → nal.length < 2 ^ 32 → ∀ s duration islast,
      sendNal s duration nal islast = none)
    (hlen : ∀ frame, ∀ nal ∈ nalsOf frame, nal.length ≤ frame.length) (s : Sender)
    {calls : List Call} (h32 : ∀ c ∈ calls, c.frame.length < 2 ^ 32)
    (hne : ∀ c ∈ calls, nalsOf c.frame ≠ []) :
    Streams (sendAggregating nalsOf parameterSet payload sendNal) s calls ↔
      StreamOk nalsOf parameterSet calls := by
  by_cases hs : ∀ c ∈ calls, ∀ nal ∈ nalsOf c.frame, Sendable nal
  · rw [streams_iff (fun c hc => sendAggregating_sends hsent (hne c hc) (hs c hc)) s]
    constructor
    · rintro ⟨hm, hd⟩
      refine ⟨hs, fun c hc ha => ?_, fun c hc ha => ?_⟩
      · simpa [ha] using hm c hc
      · simpa [ha, eq_comm] using hd c hc
    · rintro ⟨-, hm, hd⟩
      refine ⟨fun c hc => ?_, fun c hc => ?_⟩
      · by_cases ha : Aggregated (nalsOf c.frame)
        · have hmark := hm c hc ha
          simp only [if_pos ha, hmark, Bool.not_false]
        · simp [ha]
      · by_cases ha : Aggregated (nalsOf c.frame)
        · simp [ha, hd c hc ha]
        · simp [ha]
  · refine ⟨fun h => absurd h ?_, fun h => absurd h.sendable hs⟩
    simp only [not_forall] at hs
    obtain ⟨c, hc, nal, hnal, hlong⟩ := hs
    refine not_streams hc (fun s => ?_) s
    have ha : ¬ Aggregated (nalsOf c.frame) := fun ha => hlong (ha.sendable nal hnal)
    rw [sendAggregating, if_neg ha]
    have h32' := lt_of_le_of_lt (hlen c.frame nal hnal) (h32 c hc)
    exact sendEach_eq_none hnal (fun s islast => hnone nal hlong h32' s c.duration islast) s

end

/-! ### VP8 -/

/-- The packet of one piece of a frame. -/
def piece (frame : List UInt8) (s : Sender) (index : ℕ) : Packet :=
  s.newPacket (decide (frame.length ≤ (index + 1) * 1200))
    ((if index = 0 then 0x10 else 0x00) :: (frame.drop (index * 1200)).take 1200)

theorem pieces_step {frame : List UInt8} (fuel : ℕ) (s : Sender) {index : ℕ}
    (hi : index * 1200 < frame.length) :
    Vp8.pieces frame (fuel + 1) s index =
      ((Vp8.pieces frame fuel (s.sendPacket (piece frame s index)) (index + 1)).1,
        piece frame s index ::
          (Vp8.pieces frame fuel (s.sendPacket (piece frame s index)) (index + 1)).2) := by
  have hmax : maxRtpPayloadSize = 1200 := rfl
  have hlen : (if index * maxRtpPayloadSize + maxRtpPayloadSize < frame.length
      then maxRtpPayloadSize else frame.length - index * maxRtpPayloadSize) =
        min 1200 (frame.drop (index * 1200)).length := by
    by_cases h : index * maxRtpPayloadSize + maxRtpPayloadSize < frame.length
    · rw [if_pos h, List.length_drop]
      simp only [maxRtpPayloadSize] at h ⊢
      omega
    · rw [if_neg h, List.length_drop]
      simp only [maxRtpPayloadSize] at h ⊢
      omega
  have hm : decide (index * maxRtpPayloadSize + min 1200 (frame.drop (index * 1200)).length ≥
      frame.length) = decide (frame.length ≤ (index + 1) * 1200) := by
    simp only [maxRtpPayloadSize, List.length_drop, decide_eq_decide]
    omega
  rw [Vp8.pieces, if_pos (show index * maxRtpPayloadSize < frame.length from hi)]
  simp only [hlen, hm]
  rw [hmax, ← List.take_eq_take_min, ← piece]

theorem pieces_burst {frame : List UInt8} {fuel : ℕ} (s : Sender) (index : ℕ)
    (hi : index * 1200 < frame.length) (hf : frame.length - index * 1200 ≤ fuel) :
    Burst s (Vp8.pieces frame fuel s index).1 true (Vp8.pieces frame fuel s index).2 := by
  induction fuel generalizing s index with
  | zero => omega
  | succ fuel ih =>
    have hfuel : frame.length - (index + 1) * 1200 ≤ fuel := by
      rw [Nat.add_mul, ← Nat.sub_sub]
      exact (Nat.sub_le_sub_right hf _).trans (by omega)
    rw [pieces_step fuel s hi]
    set pkt := piece frame s index
    have hpkt : Burst s (s.sendPacket pkt) (decide (frame.length ≤ (index + 1) * 1200)) [pkt] :=
      .packet s _ _
    by_cases hnext : (index + 1) * 1200 < frame.length
    · rw [decide_eq_false (by omega)] at hpkt
      have htail := ih (s.sendPacket pkt) (index + 1) hnext hfuel
      exact hpkt.append htail
    · have hend : Vp8.pieces frame fuel (s.sendPacket pkt) (index + 1) =
          (s.sendPacket pkt, []) := by
        rcases fuel with _ | fuel
        · rfl
        · rw [Vp8.pieces, if_neg (show ¬ (index + 1) * maxRtpPayloadSize < frame.length from hnext)]
      rw [decide_eq_true (by omega)] at hpkt
      rw [hend]
      exact hpkt

theorem vp8_sends {c : Call} (hne : c.frame ≠ []) :
    Sends (fun s c => some (Vp8.sendFrame s c.frame c.duration)) c true c.duration := by
  intro s
  have hpos := List.length_pos_iff.mpr hne
  exact ⟨_, _, _, rfl, pieces_burst s 0 (by omega) (by omega), rfl, rfl⟩

/-! ### The three senders -/

/-- The NAL units of an H.264 and of an H.265 frame. -/
def h264Nals (frame : List UInt8) : List (List UInt8) :=
  H264.findNals frame (frame.length + 1) 0

def h265Nals (frame : List UInt8) : List (List UInt8) :=
  H265.findNals frame (frame.length + 1) 0

/-- SPS and PPS. -/
def h264ParameterSet (nal : List UInt8) : Bool :=
  let t := (H264.nalHeaderSet (nal.headD 0)).t
  t == 7 || t == 8

def h265ParameterSet (nal : List UInt8) : Bool :=
  let type := (H265.nalHeaderSet {} nal).type
  type == 34 || type == 33

/-- The calls of the three senders. -/
def h264Send (s : Sender) (c : Call) : Option (Sender × List Packet) :=
  H264.sendFrame s c.frame c.duration

def h265Send (s : Sender) (c : Call) : Option (Sender × List Packet) :=
  H265.sendFrame H265.terminator s c.frame c.duration

def vp8Send (s : Sender) (c : Call) : Option (Sender × List Packet) :=
  some (Vp8.sendFrame s c.frame c.duration)

theorem h264Send_eq :
    h264Send = sendAggregating h264Nals h264ParameterSet H264.stapPayload H264.sendNal := by
  funext s c
  simp only [h264Send, H264.sendFrame, sendAggregating, h264_sendNals_eq]
  rfl

theorem h265Send_eq : h265Send = sendAggregating h265Nals h265ParameterSet H265.apPayload
    (H265.sendNal H265.terminator) := by
  funext s c
  rfl

theorem h264_streams_iff (s : Sender) {calls : List Call}
    (h32 : ∀ c ∈ calls, c.frame.length < 2 ^ 32) (hne : ∀ c ∈ calls, h264Nals c.frame ≠ []) :
    Streams h264Send s calls ↔ StreamOk h264Nals h264ParameterSet calls := by
  rw [h264Send_eq]
  refine sendAggregating_streams_iff (fun nal hs s duration islast => ?_)
    (fun nal hs h32 s duration islast => H264.sendNal_eq_none hs h32 s duration islast)
    (fun frame nal hnal => H264.length_le_of_mem_findNals hnal) s h32 hne
  obtain ⟨s', pkts, hsend, hb⟩ := h264_nalPackets_burst hs s islast
  exact hb.sent hsend duration

theorem h265_streams_iff (s : Sender) {calls : List Call}
    (h32 : ∀ c ∈ calls, c.frame.length < 2 ^ 32) (hne : ∀ c ∈ calls, h265Nals c.frame ≠ []) :
    Streams h265Send s calls ↔ StreamOk h265Nals h265ParameterSet calls := by
  rw [h265Send_eq]
  exact sendAggregating_streams_iff
    (fun nal hs s duration islast => H265.sendNal_sent hs s duration islast)
    (fun nal hs h32 s duration islast => H265.sendNal_eq_none hs h32 s duration islast)
    (fun frame nal hnal =>
      H264.length_le_of_mem_findNals ((H265.findNals_prefix frame _ _).mem hnal)) s h32 hne

theorem vp8_streams (s : Sender) {calls : List Call} (hne : ∀ c ∈ calls, c.frame ≠ []) :
    Streams vp8Send s calls := by
  have hsends : ∀ c ∈ calls, Sends vp8Send c true c.duration := fun c hc => vp8_sends (hne c hc)
  exact (streams_iff hsends s).mpr ⟨fun c hc => rfl, fun c hc => rfl⟩

/-- In a sequence of calls with at least one NAL unit or byte each, the stream of
the H.264 and of the H.265 sender is well formed if and only if the condition
holds, and that of the VP8 sender always is. -/
theorem sender_streams_iff (s : Sender) (calls : List Call)
    (h32 : ∀ c ∈ calls, c.frame.length < 2 ^ 32) :
    ((∀ c ∈ calls, h264Nals c.frame ≠ []) →
      (Streams h264Send s calls ↔ StreamOk h264Nals h264ParameterSet calls)) ∧
    ((∀ c ∈ calls, h265Nals c.frame ≠ []) →
      (Streams h265Send s calls ↔ StreamOk h265Nals h265ParameterSet calls)) ∧
    ((∀ c ∈ calls, c.frame ≠ []) → Streams vp8Send s calls) :=
  ⟨fun hne => h264_streams_iff s h32 hne, fun hne => h265_streams_iff s h32 hne,
    fun hne => vp8_streams s hne⟩

/-- A frame of one NAL unit and a frame of two parameter sets behind it, which is
the last one and has lost its marker. -/
theorem sender_streams_iff_two :
    ¬ Streams h264Send { pt := 96, ssrc := 1, seq := 7 }
      [⟨[0, 0, 1, 0x41, 0x9a], 3000⟩, ⟨[0, 0, 1, 0x67, 0x42, 0, 0, 1, 0x68, 0xce], 3000⟩] ∧
    Streams vp8Send { pt := 96, ssrc := 1, seq := 7 } [⟨[0, 0, 1, 0x41, 0x9a], 3000⟩] := by
  have h := (sender_streams_iff { pt := 96, ssrc := 1, seq := 7 }
    [⟨[0, 0, 1, 0x41, 0x9a], 3000⟩, ⟨[0, 0, 1, 0x67, 0x42, 0, 0, 1, 0x68, 0xce], 3000⟩]
    (by decide)).1 (by decide)
  have h' := (sender_streams_iff { pt := 96, ssrc := 1, seq := 7 } [⟨[0, 0, 1, 0x41, 0x9a], 3000⟩]
    (by decide)).2.2 (by decide)
  refine ⟨fun hs => ?_, h'⟩
  have hmark := (h.mp hs).marked ⟨[0, 0, 1, 0x67, 0x42, 0, 0, 1, 0x68, 0xce], 3000⟩ (by decide)
    (by decide)
  exact absurd hmark (by decide)

/-- Behind a frame of two short NAL units the timestamp stands still. -/
theorem aggregated_frame_keeps_timestamp :
    ¬ ∀ (s : Sender) (calls : List Call), (∀ c ∈ calls, c.frame.length < 2 ^ 32) →
      (∀ c ∈ calls, h264Nals c.frame ≠ []) → Streams h264Send s calls := by
  intro h
  have hs := h { pt := 96, ssrc := 1, seq := 7 }
    [⟨[0, 0, 1, 0x41, 0x9a, 0, 0, 1, 0x41, 0x9b], 3000⟩, ⟨[0, 0, 1, 0x41, 0x9c], 3000⟩]
    (by decide) (by decide)
  have hadv := ((h264_streams_iff _ (by decide) (by decide)).mp hs).advances
    ⟨[0, 0, 1, 0x41, 0x9a, 0, 0, 1, 0x41, 0x9b], 3000⟩ (by decide) (by decide)
  exact absurd hadv (by decide)

end CxxDeps.Rtp
