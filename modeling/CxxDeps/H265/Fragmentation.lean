import CxxDeps.H264.RoundTrip
import CxxDeps.H265.Sender

/-! The fragmentation loop that the H.264 and the H.265 sender share, step by
step. -/

namespace CxxDeps.H265

open Rtp
open H264 (Sendable maxFragmented fragmentOffset fragmentOffset_eq fuHeaderGet)

/-- The H.264 loop is the same behind a header of one byte. -/
theorem fuLoop_h264 (fuInd t : UInt8) (nalSize : ℕ) (islast : Bool) (fuel : ℕ) (s : Sender)
    (index : ℕ) (rest : List UInt8) :
    H264.fuLoop fuInd t nalSize islast fuel s index rest =
      fuLoop [fuInd] t nalSize islast fuel s index rest := by
  induction fuel generalizing s index rest with
  | zero => rfl
  | succ fuel ih => simp only [H264.fuLoop, fuLoop, ih, List.singleton_append]

variable {fuInd fuInd' : List UInt8} {t t' : UInt8} {nalSize : ℕ}

/-- Whether the loop stays inside the NAL unit does not depend on the headers. -/
theorem fuLoop_eq_none_iff (islast : Bool) (fuel : ℕ) (s s' : Sender) (index : ℕ)
    (rest : List UInt8) :
    fuLoop fuInd t nalSize islast fuel s index rest = none ↔
      fuLoop fuInd' t' nalSize islast fuel s' index rest = none := by
  induction fuel generalizing s s' index rest with
  | zero => simp [fuLoop]
  | succ fuel ih =>
    simp only [fuLoop]
    by_cases hcur : fragmentOffset index < nalSize
    · simp only [if_pos hcur]
      set len := if fragmentOffset (index + 1) < nalSize then maxRtpPayloadSize
        else nalSize - fragmentOffset index
      by_cases hlen : rest.length < len
      · simp only [if_pos hlen]
      · simp only [if_neg hlen, Option.map_eq_none_iff]
        exact ih _ _ _ _
    · simp [if_neg hcur]

/-- The loop is over. -/
theorem fuLoop_done {index : ℕ} (hi : index ≤ 3579139) (h : nalSize ≤ index * 1200) (islast : Bool)
    (fuel : ℕ) (s : Sender) (rest : List UInt8) :
    fuLoop fuInd t nalSize islast fuel s index rest = some (s, []) := by
  rcases fuel with _ | fuel
  · rfl
  · rw [fuLoop, fragmentOffset_eq hi, if_neg (by omega)]

/-- The FU header of a fragment. -/
def fragmentHeader (t : UInt8) (nalSize index : ℕ) : UInt8 :=
  fuHeaderGet (if index = 0 then ⟨1, 0, 0, t⟩
    else if decide (nalSize ≤ (index + 1) * 1200) then ⟨0, 1, 0, t⟩ else ⟨0, 0, 0, t⟩)

/-- The packet of a fragment: 1200 bytes, or all that are left. -/
def fragment (fuInd : List UInt8) (t : UInt8) (nalSize : ℕ) (islast : Bool) (s : Sender)
    (index : ℕ) (rest : List UInt8) : Packet :=
  s.newPacket (islast && decide (nalSize ≤ (index + 1) * 1200))
    (fuInd ++ fragmentHeader t nalSize index :: rest.take 1200)

theorem fuLoop_step (hsize : nalSize ≤ maxFragmented) (islast : Bool) (fuel : ℕ) (s : Sender)
    {index : ℕ} {rest : List UInt8} (hi : index * 1200 < nalSize)
    (hr : rest.length = nalSize - index * 1200) :
    fuLoop fuInd t nalSize islast (fuel + 1) s index rest =
      (fuLoop fuInd t nalSize islast fuel
        (s.sendPacket (fragment fuInd t nalSize islast s index rest)) (index + 1)
          (rest.drop 1200)).map fun q =>
            (q.1, fragment fuInd t nalSize islast s index rest :: q.2) := by
  simp only [maxFragmented] at hsize
  have hlen : (if (index + 1) * 1200 < nalSize then 1200 else nalSize - index * 1200) =
      min 1200 rest.length := by
    split_ifs <;> omega
  simp only [fuLoop, maxRtpPayloadSize, fragmentOffset_eq (show index ≤ 3579139 by omega),
    fragmentOffset_eq (show index + 1 ≤ 3579139 by omega), if_pos hi, hlen,
    show (index + 1) % 2 ^ 32 = index + 1 by omega]
  rw [if_neg (by omega), ← List.take_eq_take_min, ← List.drop_eq_drop_min]
  rfl

/-- A NAL unit within the limit is sent in fragments to its end, and only the last
one may be marked. -/
theorem fuLoop_burst (hsize : nalSize ≤ maxFragmented) (islast : Bool) {fuel : ℕ} (s : Sender)
    {index : ℕ} (rest : List UInt8) (hi : index * 1200 < nalSize)
    (hr : rest.length = nalSize - index * 1200) (hf : rest.length ≤ fuel) :
    ∃ s' pkts, fuLoop fuInd t nalSize islast fuel s index rest = some (s', pkts) ∧
      Burst s s' islast pkts := by
  induction fuel generalizing s index rest with
  | zero => omega
  | succ fuel ih =>
    rw [fuLoop_step hsize islast fuel s hi hr]
    set pkt := fragment fuInd t nalSize islast s index rest
    have hpkt : Burst s (s.sendPacket pkt) (islast && decide (nalSize ≤ (index + 1) * 1200))
        [pkt] :=
      .packet s _ _
    by_cases hnext : (index + 1) * 1200 < nalSize
    · obtain ⟨s', pkts, hloop, hb⟩ := ih (s.sendPacket pkt) (rest.drop 1200) hnext
        (by rw [List.length_drop]; omega) (by rw [List.length_drop]; omega)
      refine ⟨s', pkt :: pkts, by rw [hloop]; rfl, ?_⟩
      rw [decide_eq_false (by omega), Bool.and_false] at hpkt
      exact hpkt.append hb
    · have hend : index + 1 ≤ 3579139 := by simp only [maxFragmented] at hsize; omega
      refine ⟨s.sendPacket pkt, [pkt], by rw [fuLoop_done hend (by omega)]; rfl, ?_⟩
      rwa [decide_eq_true (by omega), Bool.and_true] at hpkt

theorem fuLoop_none (hsize : maxFragmented < nalSize) (h32 : nalSize < 2 ^ 32) (islast : Bool)
    {fuel : ℕ} (s : Sender) {rest : List UInt8} (hr : rest.length = nalSize)
    (hf : 3579139 < fuel) : fuLoop fuInd t nalSize islast fuel s 0 rest = none := by
  have h264 : fuLoop [0] 0 nalSize islast fuel s 0 rest = none := by
    rw [← fuLoop_h264]
    exact H264.fuLoop_none hsize h32 islast (Nat.zero_le _) (by omega) (by omega)
  exact (fuLoop_eq_none_iff islast fuel s s 0 rest).mpr h264

/-! ### One NAL unit -/

theorem nalPackets_burst {nal : List UInt8} (hs : Sendable nal) (s : Sender) (islast : Bool) :
    ∃ s' pkts, nalPackets terminator s nal islast = some (s', pkts) ∧ Burst s s' islast pkts := by
  unfold nalPackets
  by_cases hlen : nal.length ≤ maxRtpPayloadSize
  · rw [if_pos hlen]
    exact ⟨_, _, rfl, .packet s islast nal⟩
  · rw [if_neg hlen]
    simp only [Sendable] at hs
    simp only [maxRtpPayloadSize, not_le] at hlen
    have hrest : ((nal ++ terminator).drop 2).length = nal.length - 1 := by
      simp [terminator]
    exact fuLoop_burst (by omega) islast s _ (by omega) (by omega) (by omega)

theorem sendNal_sent {nal : List UInt8} (hs : Sendable nal) (s : Sender) (duration : UInt32)
    (islast : Bool) :
    Sent s (sendNal terminator s duration nal islast) islast (if islast then duration else 0) := by
  obtain ⟨s', pkts, hsend, hb⟩ := nalPackets_burst hs s islast
  exact hb.sent hsend duration

theorem sendNal_eq_none {nal : List UInt8} (hs : ¬ Sendable nal) (h32 : nal.length < 2 ^ 32)
    (s : Sender) (duration : UInt32) (islast : Bool) :
    sendNal terminator s duration nal islast = none := by
  have hlong : ¬ nal.length ≤ maxRtpPayloadSize := fun hle =>
    hs (hle.trans (by norm_num [maxRtpPayloadSize, maxFragmented]))
  have hlimit : maxFragmented + 1 < nal.length := by simpa [Sendable] using hs
  have hrest : ((nal ++ terminator).drop 2).length = nal.length - 1 := by simp [terminator]
  have hfuel : 3579139 < nal.length := lt_trans (by norm_num [maxFragmented]) hlimit
  rw [sendNal, nalPackets, if_neg hlong]
  rw [fuLoop_none (by omega) (by omega) islast s hrest hfuel]
  rfl

end CxxDeps.H265
