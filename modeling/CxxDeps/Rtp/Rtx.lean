import CxxDeps.Library.BigEndian
import CxxDeps.Rtp.Sender

/-! Retransmission: `rtpx::sender_rtx` puts the number of the original packet in front of
its payload, and `rtpx::receiver_rtx` builds the packet again and inserts it into the
receiver it belongs to. Neither side carries the marker bit. -/

namespace CxxDeps.Rtp

open Library

/-- `sender_rtx::send_packet`: the sender after it, and the packet for the transport. -/
def Sender.sendRtx (s : Sender) (pkt : Packet) : Sender × Packet :=
  let pkt2 : Packet :=
    ⟨false, s.pt &&& 0x7f, s.seq, pkt.ts, s.ssrc, toBe16 pkt.seq ++ pkt.payload⟩
  ({ s with seq := pkt2.seq + 1 }, pkt2)

/-- The packet that `receiver_rtx::insert_packet` builds for `apt_`, whose format has the
payload type `pt`. -/
def Receiver.restore (apt : Receiver) (pt : UInt8) (pkt : Packet) : Option Packet :=
  match pkt.payload with
  | s₀ :: s₁ :: payload => some ⟨false, pt &&& 0x7f, be16 s₀ s₁, pkt.ts, apt.ssrc, payload⟩
  | _ => none

/-- What comes back is the original without its marker, under the numbers of `apt_`. -/
theorem restore_sendRtx (apt : Receiver) (pt : UInt8) (rtx : Sender) (pkt : Packet) :
    apt.restore pt (rtx.sendRtx pkt).2 =
      some { pkt with m := false, pt := pt &&& 0x7f, ssrc := apt.ssrc } := by
  simp [Receiver.restore, Sender.sendRtx, toBe16]

/-- The packet comes back with its number, timestamp, marker and payload. -/
def Recovers (apt : Receiver) (pt : UInt8) (rtx : Sender) (pkt : Packet) : Prop :=
  ∃ q, apt.restore pt (rtx.sendRtx pkt).2 = some q ∧
    q.seq = pkt.seq ∧ q.ts = pkt.ts ∧ q.m = pkt.m ∧ q.payload = pkt.payload

theorem recovers_iff {apt : Receiver} {pt : UInt8} {rtx : Sender} {pkt : Packet} :
    Recovers apt pt rtx pkt ↔ pkt.m = false := by
  rw [Recovers, restore_sendRtx]
  constructor
  · rintro ⟨q, hq, -, -, hm, -⟩
    rw [← hm, ← Option.some.inj hq]
  · intro hm
    exact ⟨_, rfl, rfl, rfl, hm.symm, rfl⟩

end CxxDeps.Rtp
