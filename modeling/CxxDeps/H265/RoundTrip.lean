import CxxDeps.H265.Depacketize
import CxxDeps.H265.Fragmentation
import CxxDeps.Rtp.VideoStreams

/-! Packetisation followed by depacketisation for H.265. `nal_header_get` writes
the temporal id in the place of the type, so the receiver takes every fragment
and every aggregation packet for a NAL unit of its own and hands out the payload
as it is. An access unit comes back exactly when each of its NAL units travels
alone in one packet. -/

namespace CxxDeps.H265

open Rtp
open H264 (Combin Shows startCode annexB Sendable maxFragmented hton16)

/-- A NAL unit that may be sent: two header bytes and more, no forbidden bit, no
type that the payload format uses for itself. -/
structure NalOk (nal : List UInt8) : Prop where
  delimited : H264.Delimited nal
  three : 3 ≤ nal.length
  forbidden : (nalHeaderSet {} nal).f = 0
  type : (nalHeaderSet {} nal).type < 48

/-! ### The header written by the sender -/

/-- A payload that the receiver takes for a NAL unit. -/
structure Whole (payload : List UInt8) : Prop where
  two : 2 ≤ payload.length
  forbidden : (nalHeaderSet {} payload).f = 0
  type : (nalHeaderSet {} payload).type < 48

theorem NalOk.whole {nal : List UInt8} (h : NalOk nal) : Whole nal :=
  ⟨by have := h.three; omega, h.forbidden, h.type⟩

private theorem tid_mem (v : UInt8) : v &&& 0x07 ∈ ([0, 1, 2, 3, 4, 5, 6, 7] : List UInt8) := by
  revert v; exact Library.forall_uint8 (by decide +kernel)

private theorem layer_bit_mem (l : UInt8) : (l &&& 0x20) >>> 5 ∈ ([0, 1] : List UInt8) := by
  revert l; exact Library.forall_uint8 (by decide +kernel)

private theorem written_header : ∀ tid ∈ ([0, 1, 2, 3, 4, 5, 6, 7] : List UInt8),
    ∀ bit ∈ ([0, 1] : List UInt8),
      (((0 : UInt8) <<< 7 ||| tid <<< 1 ||| bit) &&& 0x80) >>> 7 = 0 ∧
      (((0 : UInt8) <<< 7 ||| tid <<< 1 ||| bit) &&& 0x7e) >>> 1 < 48 := by
  decide +kernel

/-- Whatever type is asked for, what follows the written header is taken for a NAL
unit. -/
theorem whole_of_header {nal : List UInt8} (h : Whole nal) (type : UInt8) (rest : List UInt8) :
    Whole (nalHeaderGet { nalHeaderSet {} nal with type } ++ rest) := by
  obtain ⟨v0, v1, tail, rfl⟩ : ∃ v0 v1 tail, nal = v0 :: v1 :: tail := by
    rcases nal with _ | ⟨v0, _ | ⟨v1, tail⟩⟩
    · exact absurd h.two (by simp)
    · exact absurd h.two (by simp)
    · exact ⟨v0, v1, tail, rfl⟩
  have hf := h.forbidden
  simp only [nalHeaderSet] at hf
  have hw := written_header _ (tid_mem v1) _
    (layer_bit_mem ((v0 &&& 0x01 ||| v1 &&& 0xf8) &&& 0x3f))
  refine ⟨by simp [nalHeaderGet], ?_, ?_⟩
  · simp only [nalHeaderSet, nalHeaderGet, List.cons_append, hf]
    exact hw.1
  · simp only [nalHeaderSet, nalHeaderGet, List.cons_append, hf]
    exact hw.2

/-! ### The receiver -/

theorem shows_sawKey {c : Combin} {out : List (List UInt8)} {fu : List UInt8}
    (h : Shows c out fu) (t : UInt8) : Shows (sawKey c t) out fu := by
  unfold sawKey
  split
  · exact ⟨rfl, h.out, h.fuFrameData, h.firstPkt⟩
  · exact h

theorem combinPacket_whole {c : Combin} {out : List (List UInt8)} {fu : List UInt8}
    (h : Shows c out fu) {pkt : Packet} (hw : Whole pkt.payload) :
    ∃ c', combinPacket c pkt = some (.ok c') ∧ Shows c' (out ++ [startCode ++ pkt.payload]) fu := by
  refine ⟨_, ?_, (shows_sawKey h (nalHeaderSet {} pkt.payload).type).emit
    { H264.frameAt pkt.ts.toNat with data := startCode ++ pkt.payload }⟩
  have htwo := hw.two
  rw [combinPacket, if_neg (by omega)]
  simp only [hw.forbidden, ne_eq, not_true_eq_false, if_false, hw.type, if_true]

theorem combinLoop_whole {pkts : List Packet} (hw : ∀ p ∈ pkts, Whole p.payload) {c : Combin}
    {out : List (List UInt8)} {fu : List UInt8} (h : Shows c out fu) :
    ∃ c', combinLoop c pkts = some (.ok c') ∧
      Shows c' (out ++ pkts.map (startCode ++ ·.payload)) fu := by
  induction pkts generalizing c out with
  | nil => exact ⟨c, rfl, by simpa using h⟩
  | cons p pkts ih =>
    obtain ⟨c₁, h₁, hs₁⟩ := combinPacket_whole h (hw p (by simp))
    obtain ⟨c', h', hs'⟩ := ih (fun q hq => hw q (by simp [hq])) hs₁
    exact ⟨c', by rw [combinLoop, h₁]; exact h', by simpa using hs'⟩

/-- A receiver that waits for no key frame hands out every payload. -/
theorem combinFrame_whole {r : Receiver} (hr : r.waitingForKeyframe = false) {pkts : List Packet}
    (hw : ∀ p ∈ pkts, Whole p.payload) :
    ∃ r' frames, combinFrame r pkts = some (r', frames) ∧
      frames.map Frame.data = (pkts.map Packet.payload).map (startCode ++ ·) := by
  obtain ⟨c, hc, hs⟩ := combinLoop_whole hw (c := { receiver := r }) ⟨hr, rfl, rfl, by simp⟩
  refine ⟨c.receiver, c.out, ?_, by simpa [Function.comp_def] using hs.out⟩
  simp only [combinFrame, hc, combinFu, hs.fuFrameData, if_true, Option.map_some]

/-! ### The sender -/

/-- The payload bytes of packets. -/
def payloadBytes (pkts : List Packet) : ℕ := (pkts.map fun p => p.payload.length).sum

@[simp] theorem payloadBytes_nil : payloadBytes [] = 0 := rfl

@[simp] theorem payloadBytes_cons (p : Packet) (pkts : List Packet) :
    payloadBytes (p :: pkts) = p.payload.length + payloadBytes pkts := List.sum_cons

@[simp] theorem payloadBytes_append (xs ys : List Packet) :
    payloadBytes (xs ++ ys) = payloadBytes xs + payloadBytes ys := by
  simp [payloadBytes]

theorem payloadBytes_eq (pkts : List Packet) :
    payloadBytes pkts = ((pkts.map Packet.payload).map List.length).sum := by
  rw [payloadBytes, List.map_map]
  rfl

/-- The fragments carry the rest of the NAL unit, each behind a header of its own. -/
theorem fuLoop_payloads (fuInd : List UInt8) (t : UInt8) {nalSize : ℕ}
    (hsize : nalSize ≤ maxFragmented) (islast : Bool) {fuel : ℕ} (s : Sender) (index : ℕ)
    (rest : List UInt8) (hi : index * 1200 < nalSize)
    (hr : rest.length = nalSize - index * 1200) (hf : rest.length ≤ fuel) :
    ∃ s' pkts, fuLoop fuInd t nalSize islast fuel s index rest = some (s', pkts) ∧
      (∀ p ∈ pkts, ∃ chunk, p.payload = fuInd ++ chunk) ∧
      fuInd.length + 1 + rest.length ≤ payloadBytes pkts := by
  induction fuel generalizing s index rest with
  | zero => omega
  | succ fuel ih =>
    rw [fuLoop_step hsize islast fuel s hi hr]
    set pkt := fragment fuInd t nalSize islast s index rest with hpkt
    have hpay : pkt.payload = fuInd ++ fragmentHeader t nalSize index :: rest.take 1200 := rfl
    by_cases hnext : (index + 1) * 1200 < nalSize
    · obtain ⟨s', pkts, hloop, hall, hlen⟩ := ih (s.sendPacket pkt) (index + 1)
        (rest.drop 1200) hnext
        (by rw [List.length_drop]; omega) (by rw [List.length_drop]; omega)
      refine ⟨s', pkt :: pkts, by rw [hloop]; rfl, ?_, ?_⟩
      · exact List.forall_mem_cons.mpr ⟨⟨_, hpay⟩, hall⟩
      · rw [List.length_drop] at hlen
        rw [payloadBytes_cons, hpay, List.length_append, List.length_cons, List.length_take]
        omega
    · have hend : index + 1 ≤ 3579139 := by simp only [maxFragmented] at hsize; omega
      refine ⟨s.sendPacket pkt, [pkt], by rw [fuLoop_done hend (by omega)]; rfl, ?_, ?_⟩
      · exact List.forall_mem_singleton.mpr ⟨_, hpay⟩
      · rw [payloadBytes_cons, payloadBytes_nil, hpay, List.length_append, List.length_cons,
          List.length_take]
        omega

/-- What the packets of NAL units are to the receiver: the units themselves when
all are short, and more bytes than they have otherwise. -/
structure Carries (nals : List (List UInt8)) (pkts : List Packet) : Prop where
  whole : ∀ p ∈ pkts, Whole p.payload
  bytes : (nals.map List.length).sum ≤ payloadBytes pkts
  short : (∀ nal ∈ nals, nal.length ≤ maxRtpPayloadSize) → pkts.map Packet.payload = nals
  long : (∃ nal ∈ nals, maxRtpPayloadSize < nal.length) →
    (nals.map List.length).sum < payloadBytes pkts

theorem Carries.nil : Carries [] [] := by constructor <;> simp

theorem Carries.append {nal : List UInt8} {nals : List (List UInt8)} {xs ys : List Packet}
    (hx : Carries [nal] xs) (hy : Carries nals ys) : Carries (nal :: nals) (xs ++ ys) where
  whole p hp := (List.mem_append.mp hp).elim (hx.whole p) (hy.whole p)
  bytes := by
    have hb := hx.bytes
    rw [List.map_singleton, List.sum_singleton] at hb
    rw [List.map_cons, List.sum_cons, payloadBytes_append]
    exact Nat.add_le_add hb hy.bytes
  short h := by
    obtain ⟨hnal, hnals⟩ := List.forall_mem_cons.mp h
    rw [List.map_append, hx.short (by simpa using hnal), hy.short hnals, List.singleton_append]
  long := by
    rintro ⟨m, hm, hlong⟩
    have hb := hx.bytes
    rw [List.map_singleton, List.sum_singleton] at hb
    rw [List.map_cons, List.sum_cons, payloadBytes_append]
    rcases List.mem_cons.mp hm with rfl | hm
    · have := hx.long ⟨m, by simp, hlong⟩
      rw [List.map_singleton, List.sum_singleton] at this
      exact Nat.add_lt_add_of_lt_of_le this hy.bytes
    · exact Nat.add_lt_add_of_le_of_lt hb (hy.long ⟨m, hm, hlong⟩)

theorem sendNal_carries {nal : List UInt8} (hn : NalOk nal) (hs : Sendable nal) (s : Sender)
    (duration : UInt32) (islast : Bool) :
    ∃ s' pkts, sendNal terminator s duration nal islast = some (s', pkts) ∧
      Carries [nal] pkts := by
  unfold sendNal nalPackets
  by_cases hlen : nal.length ≤ maxRtpPayloadSize
  · rw [if_pos hlen]
    refine ⟨_, _, rfl, ?_⟩
    have hnot : ¬ ∃ m ∈ [nal], maxRtpPayloadSize < m.length := by simpa using hlen
    exact ⟨by simpa [Sender.newPacket] using hn.whole, by simp [Sender.newPacket], fun _ => rfl,
      fun h => absurd h hnot⟩
  · rw [if_neg hlen]
    simp only [Sendable] at hs
    have hlong : 1200 < nal.length := by simpa [maxRtpPayloadSize] using hlen
    have hrest : ((nal ++ terminator).drop 2).length = nal.length - 1 := by simp [terminator]
    have hsize : nal.length - 1 ≤ maxFragmented := by omega
    have hfuel : ((nal ++ terminator).drop 2).length ≤ nal.length := by omega
    obtain ⟨s', pkts, hloop, hall, hbytes⟩ := fuLoop_payloads
      (nalHeaderGet { nalHeaderSet {} nal with type := 49 }) ((nalHeaderSet {} nal).type &&& 0x1f)
      hsize islast s 0 _ (by omega) (by omega) hfuel
    have hind : (nalHeaderGet { nalHeaderSet {} nal with type := 49 }).length = 2 := rfl
    rw [hind, hrest] at hbytes
    refine ⟨_, pkts, by rw [hloop]; rfl, fun p hp => ?_, ?_, fun h => ?_, fun _ => ?_⟩
    · obtain ⟨chunk, hp⟩ := hall p hp
      rw [hp]
      exact whole_of_header hn.whole 49 chunk
    · rw [List.map_singleton, List.sum_singleton]
      omega
    · exact absurd (h nal (by simp)) hlen
    · rw [List.map_singleton, List.sum_singleton]
      omega

theorem sendNals_carries {nals : List (List UInt8)} (hn : ∀ nal ∈ nals, NalOk nal)
    (hs : ∀ nal ∈ nals, Sendable nal) (s : Sender) (duration : UInt32) :
    ∃ s' pkts, sendNals terminator s duration nals = some (s', pkts) ∧ Carries nals pkts := by
  unfold sendNals
  induction nals generalizing s with
  | nil => exact ⟨s, [], rfl, .nil⟩
  | cons nal nals ih =>
    obtain ⟨s₁, xs, h₁, hx⟩ := sendNal_carries (hn nal (by simp)) (hs nal (by simp)) s duration
      nals.isEmpty
    obtain ⟨s', ys, h', hy⟩ := ih (fun m hm => hn m (by simp [hm]))
      (fun m hm => hs m (by simp [hm])) s₁
    refine ⟨s', xs ++ ys, ?_, hx.append hy⟩
    simp [sendEach, h₁, h']

/-- Without a long NAL unit nothing behind a NAL unit is read. -/
theorem sendNals_short (behind : List UInt8) {nals : List (List UInt8)}
    (h : ∀ nal ∈ nals, nal.length ≤ maxRtpPayloadSize) (s : Sender) (duration : UInt32) :
    sendNals behind s duration nals = sendNals terminator s duration nals := by
  unfold sendNals
  induction nals generalizing s with
  | nil => rfl
  | cons nal nals ih =>
    have hnal := h nal (by simp)
    have hsend : ∀ islast, sendNal behind s duration nal islast =
        sendNal terminator s duration nal islast := by
      intro islast
      rw [sendNal, sendNal, nalPackets, nalPackets, if_pos hnal, if_pos hnal]
    simp only [sendEach, hsend, ih fun m hm => h m (by simp [hm])]

/-! ### Access units -/

/-- The aggregation packet is a NAL unit to the receiver, with bytes of its own. -/
theorem apPayload_whole {nals : List (List UInt8)} (hne : nals ≠ [])
    (hn : ∀ nal ∈ nals, NalOk nal) :
    Whole (apPayload nals) ∧ (nals.map List.length).sum < (apPayload nals).length := by
  obtain ⟨nal, nals', rfl⟩ := List.exists_cons_of_ne_nil hne
  refine ⟨whole_of_header (hn nal (by simp)).whole 48 _, ?_⟩
  have hsum : ∀ nals : List (List UInt8), (nals.map List.length).sum ≤
      (nals.flatMap fun nal => hton16 nal.length ++ nal).length := by
    intro nals
    induction nals with
    | nil => simp
    | cons m nals ih =>
      rw [List.map_cons, List.sum_cons, List.flatMap_cons, List.length_append, List.length_append]
      omega
  have hind : ∀ h, (nalHeaderGet h).length = 2 := fun _ => rfl
  have := hsum (nal :: nals')
  rw [apPayload, List.length_append, hind]
  omega

/-- The condition on an access unit: every NAL unit goes alone in one packet. -/
def RoundTripOk (nals : List (List UInt8)) : Prop :=
  (∀ nal ∈ nals, nal.length ≤ maxRtpPayloadSize) ∧ ¬ Aggregated nals

instance (nals : List (List UInt8)) : Decidable (RoundTripOk nals) :=
  inferInstanceAs (Decidable (_ ∧ _))

/-- The data handed out for the packets of an access unit. -/
def roundTrip (s : Sender) (r : Receiver) (frame : List UInt8) (duration : UInt32) :
    Option (List (List UInt8)) := do
  let (_, pkts) ← sendFrame terminator s frame duration
  let (_, frames) ← combinFrame r pkts
  return frames.map Frame.data

/-- No fragment of the access unit reads past the end of its NAL unit. -/
def StaysInside (s : Sender) (frame : List UInt8) (duration : UInt32) : Prop :=
  sendFrame [] s frame duration ≠ none

/-- The packets of an access unit without a NAL unit that is too long. They are
the NAL units only under the condition, as they carry more bytes otherwise. -/
theorem sendFrame_carries {nals : List (Bool × List UInt8)} (hn : ∀ n ∈ nals, NalOk n.2)
    (hs : ∀ n ∈ nals, Sendable n.2) (s : Sender) (duration : UInt32) :
    ∃ s' pkts, sendFrame terminator s (annexB nals) duration = some (s', pkts) ∧
      (∀ p ∈ pkts, Whole p.payload) ∧
      (pkts.map Packet.payload = nals.map Prod.snd ↔ RoundTripOk (nals.map Prod.snd)) := by
  have hok : ∀ nal ∈ nals.map Prod.snd, NalOk nal := List.forall_mem_map.mpr hn
  have hsend : ∀ nal ∈ nals.map Prod.snd, Sendable nal := List.forall_mem_map.mpr hs
  rw [sendFrame, findNals_annexB (fun n hm => (hn n hm).delimited)
    fun n hm => (hn n hm).whole.two]
  generalize nals.map Prod.snd = units at hok hsend ⊢
  dsimp only
  have hcount : ∀ pkts : List Packet, (units.map List.length).sum < payloadBytes pkts →
      pkts.map Packet.payload ≠ units := by
    intro pkts hlt heq
    rw [payloadBytes_eq, heq] at hlt
    exact lt_irrefl _ hlt
  by_cases hagg : Aggregated units
  · rw [Aggregated] at hagg
    rw [if_pos hagg]
    have hne : units ≠ [] := by
      rintro rfl
      exact absurd hagg (by decide)
    obtain ⟨hwhole, hbytes⟩ := apPayload_whole hne hok
    refine ⟨_, _, rfl, List.forall_mem_singleton.mpr hwhole, ?_⟩
    refine ⟨fun h => absurd h (hcount _ ?_), fun h => absurd hagg h.2⟩
    rw [payloadBytes_cons, payloadBytes_nil]
    exact hbytes
  · rw [Aggregated] at hagg
    rw [if_neg hagg]
    obtain ⟨s', pkts, hpkts, hc⟩ := sendNals_carries hok hsend s duration
    refine ⟨s', pkts, hpkts, hc.whole, fun h => ⟨?_, hagg⟩, fun h => hc.short h.1⟩
    by_contra hlong
    push Not at hlong
    exact hcount pkts (hc.long hlong) h

/-- A NAL unit that is too long stops the sender. -/
theorem sendFrame_eq_none {nals : List (Bool × List UInt8)} (hn : ∀ n ∈ nals, NalOk n.2)
    (h32 : (annexB nals).length < 2 ^ 32) {n : Bool × List UInt8} (hmem : n ∈ nals)
    (hs : ¬ Sendable n.2) (s : Sender) (duration : UInt32) :
    sendFrame terminator s (annexB nals) duration = none := by
  rw [sendFrame, findNals_annexB (fun n hm => (hn n hm).delimited)
    fun n hm => (hn n hm).whole.two]
  have hlen : n.2.length < 2 ^ 32 := lt_of_le_of_lt (H264.length_le_annexB_of_mem hmem) h32
  have hagg : ¬ Aggregated (nals.map Prod.snd) := fun h =>
    hs (h.sendable n.2 (List.mem_map_of_mem hmem))
  dsimp only
  rw [Aggregated] at hagg
  rw [if_neg hagg]
  exact sendEach_eq_none (List.mem_map_of_mem hmem)
    (fun s islast => sendNal_eq_none hs hlen s duration islast) s

theorem staysInside {nals : List (Bool × List UInt8)} (hn : ∀ n ∈ nals, NalOk n.2)
    (h : RoundTripOk (nals.map Prod.snd)) (s : Sender) (duration : UInt32) :
    StaysInside s (annexB nals) duration := by
  have hok : ∀ nal ∈ nals.map Prod.snd, NalOk nal := List.forall_mem_map.mpr hn
  rw [StaysInside, sendFrame, findNals_annexB (fun n hm => (hn n hm).delimited)
    fun n hm => (hn n hm).whole.two]
  dsimp only
  rw [if_neg (by rw [← Aggregated]; exact h.2), sendNals_short [] h.1]
  obtain ⟨s', pkts, hpkts, -⟩ := sendNals_carries hok
    (fun nal hnal => (h.1 nal hnal).trans (by norm_num [maxRtpPayloadSize, maxFragmented])) s
    duration
  rw [hpkts]
  exact Option.some_ne_none _

/-- For every access unit that fits the 32-bit size of `send_frame`, the NAL units
come back in order, each behind a start code of four bytes, and no fragment reads
past the end of its NAL unit, if and only if the condition holds. -/
theorem h265_round_trip_iff (s : Sender) (r : Receiver) (hr : r.waitingForKeyframe = false)
    (nals : List (Bool × List UInt8)) (hn : ∀ n ∈ nals, NalOk n.2)
    (h32 : (annexB nals).length < 2 ^ 32) (duration : UInt32) :
    (roundTrip s r (annexB nals) duration = some ((nals.map Prod.snd).map (startCode ++ ·)) ∧
      StaysInside s (annexB nals) duration) ↔ RoundTripOk (nals.map Prod.snd) := by
  by_cases hs : ∀ n ∈ nals, Sendable n.2
  · obtain ⟨s', pkts, hsend, hwhole, hiff⟩ := sendFrame_carries hn hs s duration
    obtain ⟨r', frames, hcomb, hdata⟩ := combinFrame_whole hr hwhole
    have hinj : Function.Injective (List.map (startCode ++ ·) : List (List UInt8) → _) :=
      List.map_injective_iff.mpr (List.append_right_injective startCode)
    have htrip : roundTrip s r (annexB nals) duration =
        some ((pkts.map Packet.payload).map (startCode ++ ·)) := by
      simp only [roundTrip, hsend, hcomb, hdata, Option.bind_eq_bind, Option.bind_some,
        Option.pure_def]
    rw [htrip, Option.some_inj, hinj.eq_iff, hiff]
    exact ⟨fun h => h.1, fun h => ⟨h, staysInside hn h s duration⟩⟩
  · push Not at hs
    obtain ⟨n, hmem, hlong⟩ := hs
    have hnone := sendFrame_eq_none hn h32 hmem hlong s duration
    refine ⟨fun h => ?_, fun h => absurd ?_ hlong⟩
    · simp [roundTrip, hnone] at h
    · exact (h.1 n.2 (List.mem_map_of_mem hmem)).trans
        (by norm_num [maxRtpPayloadSize, maxFragmented])

/-- An access unit of one NAL unit. -/
theorem h265_round_trip_single :
    roundTrip { pt := 96, ssrc := 1, seq := 5 } { ssrc := 1 }
      (annexB [(true, [0x26, 0x01, 0xaf, 0x80])]) 3000 =
        some [[0, 0, 0, 1, 0x26, 0x01, 0xaf, 0x80]] := by
  have hn : ∀ n ∈ [(true, [0x26, 0x01, 0xaf, 0x80])], NalOk n.2 := by
    simp only [List.forall_mem_singleton]
    exact ⟨⟨by decide, ⟨_, rfl, by decide⟩⟩, by decide, by decide, by decide⟩
  exact ((h265_round_trip_iff _ _ rfl _ hn (by decide) 3000).mpr (by decide)).1

/-- The two NAL units of an aggregation packet come back as one. -/
theorem h265_aggregate_handed_out_whole :
    ¬ ∀ (s : Sender) (r : Receiver), r.waitingForKeyframe = false →
      ∀ nals : List (Bool × List UInt8), (∀ n ∈ nals, NalOk n.2) → (annexB nals).length < 2 ^ 32 →
        ∀ duration : UInt32, roundTrip s r (annexB nals) duration =
          some ((nals.map Prod.snd).map (startCode ++ ·)) ∧
            StaysInside s (annexB nals) duration := by
  intro h
  have hn : ∀ n ∈ [(true, [0x44, 0x01, 0xc1]), (false, [0x26, 0x01, 0xaf, 0x80])], NalOk n.2 := by
    simp only [List.forall_mem_cons, List.not_mem_nil, false_implies, implies_true, and_true]
    exact ⟨⟨⟨by decide, ⟨_, rfl, by decide⟩⟩, by decide, by decide, by decide⟩,
      ⟨⟨by decide, ⟨_, rfl, by decide⟩⟩, by decide, by decide, by decide⟩⟩
  have := (h { pt := 96, ssrc := 1, seq := 5 } { ssrc := 1 } rfl _ hn (by decide) 3000).1
  exact absurd this (by decide +kernel)

end CxxDeps.H265
