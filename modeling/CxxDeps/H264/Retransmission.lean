import CxxDeps.H264.Receiver
import CxxDeps.Library.Run
import CxxDeps.Rtp.Rtx

/-! The video receiver with its RTX receiver. A packet that is recovered has lost its
marker, by which `find_a_frame` knows the end of a frame. -/

namespace CxxDeps.H264

open Rtp Library

/-- A packet comes to the video receiver, or to its RTX receiver from an RTX sender in
some state. -/
inductive Arrival
  | direct (pkt : Packet) (now : ℤ)
  | recovered (rtx : Sender) (pkt : Packet) (now : ℤ)

def Arrival.packet : Arrival → Packet
  | direct pkt _ => pkt
  | recovered _ pkt _ => pkt

def Arrival.isRecovered : Arrival → Bool
  | direct _ _ => false
  | recovered _ _ _ => true

/-- The arrival as if the original had arrived. -/
def Arrival.original : Arrival → Arrival
  | direct pkt now => direct pkt now
  | recovered _ pkt now => direct pkt now

/-- The video receiver with the payload type `pt`. `receiver_rtx::insert_packet` refuses a
packet that is too short. -/
def receiveVideo (pt : UInt8) (r : Receiver) : Arrival → Option (Receiver × List Handed)
  | .direct pkt now => insertPacket r pkt now
  | .recovered rtx pkt now =>
    match r.restore pt (rtx.sendRtx pkt).2 with
    | none => some (r, [])
    | some pkt2 => insertPacket r pkt2 now

/-- A recovered packet is one of the stream that the video receiver receives. -/
def Arrival.Matches (pt : UInt8) (r : Receiver) (a : Arrival) : Prop :=
  a.isRecovered → a.packet.pt = pt &&& 0x7f ∧ a.packet.ssrc = r.ssrc

/-- A recovered packet has no marker. -/
def Arrival.Unmarked (a : Arrival) : Prop := a.isRecovered → a.packet.m = false

instance (pt : UInt8) (r : Receiver) (a : Arrival) : Decidable (a.Matches pt r) :=
  inferInstanceAs (Decidable (_ → _))

instance (a : Arrival) : Decidable a.Unmarked := inferInstanceAs (Decidable (_ → _))

theorem receiveVideo_original {pt : UInt8} {r : Receiver} {a : Arrival} (hmatch : a.Matches pt r)
    (hm : a.Unmarked) : receiveVideo pt r a = receiveVideo pt r a.original := by
  cases a with
  | direct pkt now => rfl
  | recovered rtx pkt now =>
    obtain ⟨hpt, hssrc⟩ := hmatch rfl
    have hmarker : pkt.m = false := hm rfl
    have hsame : { pkt with m := false, pt := pt &&& 0x7f, ssrc := r.ssrc } = pkt := by
      rw [← hpt, ← hssrc, ← hmarker]
      rfl
    simp only [receiveVideo, restore_sendRtx, hsame, Arrival.original]

/-- A packet comes back as it was exactly if it has no marker, and in a run whose recovered
packets have none, the video receiver hands out the frames that it would have found
in the originals. -/
theorem rtx_transparent (pt : UInt8) (r : Receiver) (as : List Arrival)
    (hmatch : RunOk (receiveVideo pt) (fun r a => a.Matches pt r) r as) :
    (∀ apt rtx pkt, Recovers apt pt rtx pkt ↔ pkt.m = false) ∧
      ((∀ a ∈ as, a.Unmarked) →
        run (receiveVideo pt) r as = run (receiveVideo pt) r (as.map Arrival.original)) := by
  refine ⟨fun _ _ _ => recovers_iff, fun hm => ?_⟩
  induction as generalizing r with
  | nil => rfl
  | cons a as ih =>
    obtain ⟨ha, has⟩ := List.forall_mem_cons.mp hm
    rw [List.map_cons, run_cons, run_cons, ← receiveVideo_original hmatch.1 ha]
    cases hstep : receiveVideo pt r a with
    | none => rfl
    | some q =>
      have htail := ih q.1 (hmatch.2 q hstep) has
      simp only [Option.bind_some, htail]

/-- The packets of a frame of two, the first of which is recovered. -/
private def twoPackets : List Arrival :=
  [.recovered { pt := 97, ssrc := 2, seq := 9 } ⟨false, 96, 5, 3000, 1, [0x7c, 0x85, 1]⟩ 0,
    .direct ⟨true, 96, 6, 3000, 1, [0x7c, 0x45, 2]⟩ 0]

theorem rtx_transparent_twoPackets :
    (∀ apt rtx pkt, Recovers apt 96 rtx pkt ↔ pkt.m = false) ∧
      ((∀ a ∈ twoPackets, a.Unmarked) →
        run (receiveVideo 96) (Receiver.newVideo 1) twoPackets =
          run (receiveVideo 96) (Receiver.newVideo 1) (twoPackets.map Arrival.original)) :=
  rtx_transparent 96 (Receiver.newVideo 1) twoPackets (by decide +kernel)

/-- A frame of one packet that is recovered is not found. -/
theorem marker_lost :
    ¬ ∀ (pt : UInt8) (r : Receiver) (as : List Arrival),
      RunOk (receiveVideo pt) (fun r a => a.Matches pt r) r as →
        (∀ a ∈ as, a.isRecovered →
          ∀ apt rtx, Recovers apt pt rtx a.packet) ∧
        (run (receiveVideo pt) r as).map (fun q => q.2.map Handed.packets) =
          (run (receiveVideo pt) r (as.map Arrival.original)).map
            (fun q => q.2.map Handed.packets) := by
  intro h
  have hframes := (h 96 (Receiver.newVideo 1)
    [.recovered { pt := 97, ssrc := 2, seq := 9 } ⟨true, 96, 5, 3000, 1, [0x65, 0x88]⟩ 0]
    (by decide +kernel)).2
  exact absurd hframes (by decide +kernel)

end CxxDeps.H264
