import CxxDeps.Rtp.Receiver

/-! The state of `rtpx::sender`, the base of all RTP senders, and `send_packet`.
The clock that `prepare_sr` reads (`timestamp_now_`, floating point) is left
out. -/

namespace CxxDeps.Rtp

/-- The counters of `rtp_sender_stats_t` that `send_packet` advances. -/
structure SenderStats where
  packetsSent : UInt64 := 0
  bytesSent : UInt64 := 0
  packetsSentPeriod : UInt32 := 0
  bytesSentPeriod : UInt32 := 0
  deriving DecidableEq, Repr

structure Sender where
  pt : UInt8
  ssrc : UInt32
  timestamp : UInt32 := 0
  seq : UInt16
  historyPackets : Slots := Slots.empty
  stats : SenderStats := {}

def maxRtpPayloadSize : ℕ := 1200

namespace Sender

/-- `std::make_shared<packet>(format_.pt, ssrc_, seq_, timestamp_)` with its
marker bit and payload set. -/
def newPacket (s : Sender) (m : Bool) (payload : List UInt8) : Packet :=
  ⟨m, s.pt &&& 0x7f, s.seq, s.timestamp, s.ssrc, payload⟩

/-- `send_packet`, which only `sender_rtx` overrides; the packet itself goes
to the transport. -/
def sendPacket (s : Sender) (pkt : Packet) : Sender :=
  { s with
    stats := {
      packetsSent := s.stats.packetsSent + 1
      packetsSentPeriod := s.stats.packetsSentPeriod + 1
      bytesSent := s.stats.bytesSent + UInt64.ofNat pkt.payload.length
      bytesSentPeriod := s.stats.bytesSentPeriod + UInt32.ofNat pkt.payload.length }
    seq := pkt.seq + 1
    historyPackets := s.historyPackets.set (slot pkt.seq.toNat) (some pkt) }

end Sender

end CxxDeps.Rtp
