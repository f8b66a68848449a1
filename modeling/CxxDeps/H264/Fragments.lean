import CxxDeps.H265.Fragmentation

/-! The fragments of a long NAL unit. The byte that the fragments leave out is taken off
before they are counted, so a NAL unit of one byte more than the limit is sent as a single
fragment, which starts the NAL unit and never ends it. -/

namespace CxxDeps.H264

open Rtp
open H265 (fragment fragmentHeader fuLoop_h264 fuLoop_step fuLoop_done)

/-- The payloads from a fragment on, of a NAL unit whose bytes from there on are `rest`. -/
structure Pieces (fuInd t : UInt8) (nalSize index : ℕ) (rest : List UInt8)
    (payloads : List (List UInt8)) : Prop where
  count : payloads.length = (rest.length + 1199) / 1200
  payload : ∀ i < payloads.length, payloads[i]? =
    some (fuInd :: fragmentHeader t nalSize (index + i) :: (rest.drop (i * 1200)).take 1200)
  bodies : payloads.flatMap (List.drop 2) = rest

theorem fuLoop_pieces {fuInd t : UInt8} {nalSize : ℕ} (hsize : nalSize ≤ maxFragmented)
    (islast : Bool) {fuel : ℕ} (s : Sender) {index : ℕ} {rest : List UInt8}
    (hi : index * 1200 < nalSize) (hr : rest.length = nalSize - index * 1200)
    (hf : rest.length ≤ fuel) :
    ∃ s' pkts, fuLoop fuInd t nalSize islast fuel s index rest = some (s', pkts) ∧
      Pieces fuInd t nalSize index rest (pkts.map Packet.payload) := by
  induction fuel generalizing s index rest with
  | zero => omega
  | succ fuel ih =>
    rw [fuLoop_h264, fuLoop_step hsize islast fuel s hi hr]
    set pkt := fragment [fuInd] t nalSize islast s index rest
    have hpayload : pkt.payload = fuInd :: fragmentHeader t nalSize index :: rest.take 1200 := rfl
    by_cases hnext : (index + 1) * 1200 < nalSize
    · obtain ⟨s', pkts, hloop, hpieces⟩ := ih (s.sendPacket pkt) hnext
        (show (rest.drop 1200).length = _ by rw [List.length_drop]; omega)
        (by rw [List.length_drop]; omega)
      rw [fuLoop_h264] at hloop
      refine ⟨s', pkt :: pkts, by rw [hloop]; rfl, ?_, fun i hlt => ?_, ?_⟩
      · rw [List.map_cons, List.length_cons, hpieces.count, List.length_drop]
        omega
      · cases i with
        | zero =>
          rw [List.map_cons, List.getElem?_cons_zero, hpayload, Nat.zero_mul, List.drop_zero,
            Nat.add_zero]
        | succ i =>
          rw [List.map_cons, List.length_cons, Nat.add_lt_add_iff_right] at hlt
          rw [List.map_cons, List.getElem?_cons_succ, hpieces.payload i hlt, List.drop_drop,
            Nat.succ_mul, Nat.add_comm 1200, Nat.add_assoc, Nat.add_comm 1]
      · rw [List.map_cons, List.flatMap_cons, hpieces.bodies, hpayload]
        exact List.take_append_drop 1200 rest
    · have hend : index + 1 ≤ 3579139 := by simp only [maxFragmented] at hsize; omega
      refine ⟨s.sendPacket pkt, [pkt], by rw [fuLoop_done hend (by omega)]; rfl, ?_,
        fun i hlt => ?_, ?_⟩
      · rw [List.map_singleton, List.length_singleton]
        omega
      · rw [List.map_singleton, List.length_singleton, Nat.lt_one_iff] at hlt
        subst hlt
        rw [List.map_singleton, List.getElem?_cons_zero, hpayload, Nat.zero_mul, List.drop_zero,
          Nat.add_zero]
      · rw [List.map_singleton, List.flatMap_singleton, hpayload]
        exact List.take_of_length_le (by omega)

/-- The payloads are those of a NAL unit in fragments: at least two, of 1202 bytes at the
most, the first one alone is marked as the start and the last one alone as the end, and
behind the headers are the bytes of the NAL unit without the first one. -/
structure FragmentedNal (nal : List UInt8) (payloads : List (List UInt8)) : Prop where
  two : 2 ≤ payloads.length
  size : ∀ payload ∈ payloads, payload.length ≤ maxRtpPayloadSize + 2
  headers : ∀ i < payloads.length, ∃ fuInd fu chunk, payloads[i]? = some (fuInd :: fu :: chunk) ∧
    ((fuHeaderSet fu).s = 1 ↔ i = 0) ∧ ((fuHeaderSet fu).e = 1 ↔ i + 1 = payloads.length) ∧
    ∀ nal0 ∈ nal.head?, (nalHeaderSet fuInd).nri = (nalHeaderSet nal0).nri ∧
      (nalHeaderSet fuInd).t = 28 ∧ (fuHeaderSet fu).t = (nalHeaderSet nal0).t
  bodies : payloads.flatMap (List.drop 2) = nal.drop 1

/-- From two fragments on the flags are right. -/
theorem Pieces.fragmentedNal {nal0 : UInt8} {rest : List UInt8} {payloads : List (List UInt8)}
    (h : Pieces (nalHeaderGet ⟨(nalHeaderSet nal0).f, (nalHeaderSet nal0).nri, 28⟩)
      (nalHeaderSet nal0).t rest.length 0 rest payloads) (htwo : 1200 < rest.length) :
    FragmentedNal (nal0 :: rest) payloads := by
  have hcount := h.count
  have zero_ne_one' : ¬ (0 : UInt8) = 1 := by decide
  obtain ⟨hfirst, hlast, hmiddle⟩ := fuHeader_set_get nal0
  refine ⟨by omega, fun payload hp => ?_, fun i hi => ⟨_, _, _, h.payload i hi, ?_⟩, h.bodies⟩
  · obtain ⟨i, hi, rfl⟩ := List.mem_iff_getElem.mp hp
    have hpayload := h.payload i hi
    rw [List.getElem?_eq_getElem hi, Option.some.injEq] at hpayload
    rw [hpayload, List.length_cons, List.length_cons, List.length_take, maxRtpPayloadSize]
    omega
  · rw [Nat.zero_add, fragmentHeader]
    have hnri : ∀ b ∈ (nal0 :: rest).head?,
        (nalHeaderSet (nalHeaderGet ⟨(nalHeaderSet nal0).f, (nalHeaderSet nal0).nri, 28⟩)).nri =
          (nalHeaderSet b).nri ∧ (nalHeaderSet (nalHeaderGet
          ⟨(nalHeaderSet nal0).f, (nalHeaderSet nal0).nri, 28⟩)).t = 28 ∧
        (nalHeaderSet nal0).t = (nalHeaderSet b).t := by
      rintro b ⟨⟩
      rw [nalHeader_set_get]
      exact ⟨rfl, rfl, rfl⟩
    by_cases h0 : i = 0
    · rw [if_pos h0, hfirst]
      exact ⟨iff_of_true rfl h0, iff_of_false zero_ne_one' (by omega), hnri⟩
    rw [if_neg h0]
    by_cases hend : rest.length ≤ (i + 1) * 1200
    · rw [decide_eq_true hend, if_pos rfl, hlast]
      exact ⟨iff_of_false zero_ne_one' h0, iff_of_true rfl (by omega), hnri⟩
    · rw [decide_eq_false hend, if_neg Bool.false_ne_true, hmiddle]
      exact ⟨iff_of_false zero_ne_one' h0, iff_of_false zero_ne_one' (by omega), hnri⟩

/-- A NAL unit beyond the limit goes through the fragmentation loop without its first byte. -/
theorem sendNal_pieces {nal0 : UInt8} {rest : List UInt8} (hlong : 1200 ≤ rest.length)
    (hs : Sendable (nal0 :: rest)) (s : Sender) (duration : UInt32) (islast : Bool) :
    ∃ s' pkts, sendNal s duration (nal0 :: rest) islast = some (s', pkts) ∧
      Pieces (nalHeaderGet ⟨(nalHeaderSet nal0).f, (nalHeaderSet nal0).nri, 28⟩)
        (nalHeaderSet nal0).t rest.length 0 rest (pkts.map Packet.payload) := by
  obtain ⟨s', pkts, hloop, hpieces⟩ := @fuLoop_pieces
    (nalHeaderGet ⟨(nalHeaderSet nal0).f, (nalHeaderSet nal0).nri, 28⟩) (nalHeaderSet nal0).t
    rest.length (Nat.le_of_succ_le_succ hs) islast (rest.length + 1) s 0 rest (by omega) (by omega)
    (Nat.le_succ _)
  refine ⟨if islast then { s' with timestamp := s'.timestamp + duration } else s', pkts, ?_,
    hpieces⟩
  unfold sendNal nalPackets
  rw [if_neg (by simp only [List.length_cons, maxRtpPayloadSize]; omega)]
  dsimp only
  rw [List.length_cons, hloop]
  rfl

/-- A long NAL unit is sent in proper fragments unless it has one byte more than the limit,
or more than the 32-bit products of the loop allow. -/
theorem sendNal_fragmented_iff {nal : List UInt8} (hlong : maxRtpPayloadSize < nal.length)
    (h32 : nal.length < 2 ^ 32) (s : Sender) (duration : UInt32) (islast : Bool) :
    (∃ s' pkts, sendNal s duration nal islast = some (s', pkts) ∧
      FragmentedNal nal (pkts.map Packet.payload)) ↔
    nal.length ≠ maxRtpPayloadSize + 1 ∧ Sendable nal := by
  rcases nal with _ | ⟨nal0, rest⟩
  · exact absurd hlong (Nat.not_lt_zero _)
  rw [List.length_cons, maxRtpPayloadSize] at hlong ⊢
  by_cases hs : Sendable (nal0 :: rest)
  · obtain ⟨s', pkts, hsend, hpieces⟩ := sendNal_pieces (by omega) hs s duration islast
    constructor
    · rintro ⟨s'', pkts', hsend', hfragmented⟩
      refine ⟨fun hone => ?_, hs⟩
      -- the only fragment
      rw [hsend, Option.some.injEq, Prod.mk.injEq] at hsend'
      have htwo := hfragmented.two
      rw [← hsend'.2, hpieces.count] at htwo
      omega
    · rintro ⟨hone, -⟩
      exact ⟨s', pkts, hsend, hpieces.fragmentedNal (by omega)⟩
  · refine iff_of_false ?_ (fun h => hs h.2)
    rintro ⟨s', pkts, hsend, -⟩
    rw [sendNal_eq_none hs h32] at hsend
    cases hsend

private def freshSender : Sender := { pt := 96, ssrc := 1, seq := 0 }

theorem sendNal_fragmented_long :
    (∃ s' pkts, sendNal freshSender 3600 (List.replicate 1202 0x65) true = some (s', pkts) ∧
      FragmentedNal (List.replicate 1202 0x65) (pkts.map Packet.payload)) ↔
    (List.replicate 1202 (0x65 : UInt8)).length ≠ maxRtpPayloadSize + 1 ∧
      Sendable (List.replicate 1202 0x65) :=
  sendNal_fragmented_iff (by rw [List.length_replicate]; decide)
    (by rw [List.length_replicate]; norm_num) freshSender 3600 true

/-- One byte more than the limit: a single fragment, marked as the start and not as the end. -/
theorem single_fragment_unfinished :
    ∃ s' pkts fuInd fu body,
      sendNal freshSender 3600 (List.replicate 1201 0x65) true = some (s', pkts) ∧
      pkts.map Packet.payload = [fuInd :: fu :: body] ∧
      (fuHeaderSet fu).s = 1 ∧ (fuHeaderSet fu).e = 0 ∧
      ¬ FragmentedNal (List.replicate 1201 0x65) (pkts.map Packet.payload) := by
  obtain ⟨s', pkts, hsend, hpieces⟩ := @sendNal_pieces 0x65
    (List.replicate 1200 0x65) (by rw [List.length_replicate])
    (by rw [Sendable, List.length_cons, List.length_replicate]; decide) freshSender 3600 true
  have hcount := hpieces.count
  rw [List.length_replicate] at hcount
  obtain ⟨payload, hp⟩ := List.length_eq_one_iff.mp hcount
  have hpayload := hpieces.payload 0 (by omega)
  rw [hp, List.getElem?_cons_zero, Option.some.injEq, List.length_replicate] at hpayload
  refine ⟨s', pkts, _, _, _, hsend, by rw [hp, hpayload], by decide +kernel, by decide +kernel,
    fun h => ?_⟩
  have htwo := h.two
  omega

end CxxDeps.H264
