import Std.Data.ExtTreeMap
import CxxDeps.Rtp.SequenceNumber

/-! The state and the operations of `rtpx::receiver`, the base of all RTP
receivers: a ring of `PACKET_BUFFER_SIZE` packets read through the window from
`begin_seq_` to `end_seq_`, the list of packets to ask for again, and the frame
clock. The clock is an argument, in milliseconds. The jitter estimate
(`rtp_source_`, floating point) and the logger are left out: nothing here reads
them. -/

namespace CxxDeps.Rtp

/-- The header fields that receivers read, and the payload. -/
structure Packet where
  m : Bool
  pt : UInt8
  seq : UInt16
  ts : UInt32
  ssrc : UInt32
  payload : List UInt8
  deriving DecidableEq, Repr

/-- `av_frame_t`, as handed to `on_frame`. -/
structure Frame where
  pts : ℤ
  dts : ℤ
  data : List UInt8
  duration : UInt32
  deriving DecidableEq, Repr

structure NackPkt where
  ssrc : UInt32
  seq : UInt16
  count : ℤ
  deriving DecidableEq, Repr

/-- The counters of `rtp_receiver_stats_t` that the receiver itself advances. -/
structure Stats where
  packetsReceived : UInt64 := 0
  bytesReceived : UInt64 := 0
  framesReceived : UInt64 := 0
  framesDroped : UInt64 := 0
  packetsReceivedPeriod : UInt32 := 0
  bytesReceivedPeriod : UInt32 := 0
  deriving DecidableEq, Repr

def packetBufferSize : ℕ := 512

/-- The ring position of a sequence number. -/
def slot (seq : ℕ) : Fin packetBufferSize := ⟨seq % 512, Nat.mod_lt _ (by decide)⟩

/-- `recv_packs_`. -/
abbrev Slots := Fin packetBufferSize → Option Packet

def Slots.set (w : Slots) (i : Fin packetBufferSize) (p : Option Packet) : Slots :=
  fun j => if j = i then p else w j

def Slots.empty : Slots := fun _ => none

@[simp] theorem Slots.set_self (w : Slots) (i : Fin packetBufferSize) (p : Option Packet) :
    w.set i p i = p := if_pos rfl

@[simp] theorem Slots.set_of_ne (w : Slots) {i j : Fin packetBufferSize} (p : Option Packet)
    (h : j ≠ i) : w.set i p j = w j := if_neg h

theorem Slots.set_none_of_none {w : Slots} {i : Fin packetBufferSize} (h : w i = none) :
    w.set i none = w := by
  funext j
  by_cases hj : j = i
  · rw [hj, Slots.set_self, h]
  · rw [Slots.set_of_ne _ _ hj]

@[simp] theorem Slots.empty_apply (i : Fin packetBufferSize) : Slots.empty i = none := rfl

theorem slot_eq_iff {a b : ℕ} : slot a = slot b ↔ a % 512 = b % 512 := Fin.ext_iff

structure Receiver where
  ssrc : UInt32
  recvPacks : Slots := Slots.empty
  nackPacks : Std.ExtTreeMap UInt16 NackPkt compare := ∅
  nackMaxCount : ℤ := 1
  reset : Bool := true
  waitingForKeyframe : Bool := false
  beginSeq : ℤ := -1
  endSeq : ℤ := -1
  timestamp : UInt32 := 0
  frameTimestamp : UInt32 := 0
  delay : ℤ := 1000
  frameBeginTs : ℤ := 0
  stats : Stats := {}
  pliCount : UInt32 := 0
  firCount : UInt32 := 0

/-- A receiver of video as the constructor leaves it. -/
def Receiver.newVideo (ssrc : UInt32) : Receiver := { ssrc, waitingForKeyframe := true }

/-- The conversion of an `int` window bound to the `uint16_t` arguments of the
sequence-number comparisons. -/
def u16 (x : ℤ) : ℕ := (x % 65536).toNat

theorem u16_lt (x : ℤ) : u16 x < 65536 := by simp only [u16]; omega

@[simp] theorem u16_natCast {n : ℕ} (h : n < 65536) : u16 n = n := by simp only [u16]; omega

namespace Receiver

/-- `add_nack(begin, end)`; the numbers it lists include `end`. -/
def addNack (r : Receiver) (b e : ℕ) : Receiver :=
  if r.nackMaxCount ≤ 0 then r
  else { r with
    nackPacks := (Sn.numbers b e).foldl (fun m i =>
      m.insertIfNew (UInt16.ofNat i) ⟨r.ssrc, UInt16.ofNat i, r.nackMaxCount⟩) r.nackPacks }

/-- The block of `insert_packet` under `if (reset_)`. -/
def restart (r : Receiver) (p : Packet) (now : ℤ) : Receiver :=
  { r with
    beginSeq := p.seq.toNat
    endSeq := p.seq.toNat
    frameBeginTs := now
    recvPacks := Slots.empty
    reset := false }

/-- The packet counters and the ring slot. -/
def store (r : Receiver) (p : Packet) : Receiver :=
  { r with
    stats := { r.stats with
      packetsReceived := r.stats.packetsReceived + 1
      packetsReceivedPeriod := r.stats.packetsReceivedPeriod + 1
      bytesReceived := r.stats.bytesReceived + UInt64.ofNat p.payload.length
      bytesReceivedPeriod := r.stats.bytesReceivedPeriod + UInt32.ofNat p.payload.length }
    timestamp := p.ts
    recvPacks := r.recvPacks.set (slot p.seq.toNat) (some p) }

/-- The update of `end_seq_`, with the numbers that were skipped put on the list
to ask for again. -/
def advanceEnd (r : Receiver) (p : Packet) : Receiver :=
  if Sn.aheadOf 16 0 (u16 r.endSeq) p.seq.toNat then r
  else
    let r := if Sn.forwardDiff 16 0 (u16 r.endSeq) p.seq.toNat > 1
      then r.addNack (u16 (r.endSeq + 1)) p.seq.toNat else r
    { r with endSeq := p.seq.toNat }

/-- The full-buffer test at the end of `insert_packet`. -/
def dropFull (r : Receiver) : Receiver :=
  if Sn.aheadOf 16 packetBufferSize (u16 r.beginSeq) (u16 r.endSeq) then
    { r with beginSeq := r.endSeq }
  else r

/-- The condition on which `insert_packet` starts a new window. -/
def restarts (r : Receiver) (p : Packet) : Bool :=
  r.reset || Sn.aheadOf 16 0 (u16 r.beginSeq) p.seq.toNat

/-- `receiver::insert_packet`. -/
def insertPacket (r : Receiver) (p : Packet) (now : ℤ) : Receiver :=
  let r := { r with ssrc := p.ssrc }
  let r := if r.restarts p then r.restart p now else r
  ((r.store p).advanceEnd p).dropFull

def isTimeout (r : Receiver) (now : ℤ) : Bool := decide (now - r.frameBeginTs ≥ r.delay)

/-- `increase_fir`. -/
def increaseFir (r : Receiver) : Receiver := { r with firCount := r.firCount + 1, reset := true }

/-- `increase_pli`. -/
def increasePli (r : Receiver) : Receiver := { r with pliCount := r.pliCount + 1, reset := true }

/-- `invoke_rtp_frame`: the frame with its duration, as `on_frame` gets it. -/
def invokeRtpFrame (r : Receiver) (f : Frame) : Receiver × Frame :=
  let f := if r.frameTimestamp > 0
    then { f with duration := UInt32.ofInt (f.pts - r.frameTimestamp.toNat) } else f
  ({ r with frameTimestamp := UInt32.ofInt f.pts }, f)

/-! ### The fields that each operation leaves alone -/

@[simp] theorem addNack_recvPacks (r : Receiver) (b e : ℕ) :
    (r.addNack b e).recvPacks = r.recvPacks := by unfold addNack; split <;> rfl

@[simp] theorem addNack_beginSeq (r : Receiver) (b e : ℕ) :
    (r.addNack b e).beginSeq = r.beginSeq := by unfold addNack; split <;> rfl

@[simp] theorem addNack_reset (r : Receiver) (b e : ℕ) : (r.addNack b e).reset = r.reset := by
  unfold addNack; split <;> rfl

@[simp] theorem addNack_isTimeout (r : Receiver) (b e : ℕ) (now : ℤ) :
    (r.addNack b e).isTimeout now = r.isTimeout now := by unfold addNack; split <;> rfl

@[simp] theorem advanceEnd_recvPacks (r : Receiver) (p : Packet) :
    (r.advanceEnd p).recvPacks = r.recvPacks := by
  unfold advanceEnd; dsimp only; split_ifs <;> simp

@[simp] theorem advanceEnd_beginSeq (r : Receiver) (p : Packet) :
    (r.advanceEnd p).beginSeq = r.beginSeq := by
  unfold advanceEnd; dsimp only; split_ifs <;> simp

@[simp] theorem advanceEnd_reset (r : Receiver) (p : Packet) :
    (r.advanceEnd p).reset = r.reset := by
  unfold advanceEnd; dsimp only; split_ifs <;> simp

@[simp] theorem advanceEnd_isTimeout (r : Receiver) (p : Packet) (now : ℤ) :
    (r.advanceEnd p).isTimeout now = r.isTimeout now := by
  unfold advanceEnd; dsimp only
  split_ifs
  · rfl
  · exact addNack_isTimeout r _ _ now
  · rfl

theorem advanceEnd_endSeq (r : Receiver) (p : Packet) :
    (r.advanceEnd p).endSeq =
      if Sn.aheadOf 16 0 (u16 r.endSeq) p.seq.toNat then r.endSeq else p.seq.toNat := by
  unfold advanceEnd; dsimp only; split_ifs <;> rfl

@[simp] theorem dropFull_recvPacks (r : Receiver) : r.dropFull.recvPacks = r.recvPacks := by
  unfold dropFull; split <;> rfl

@[simp] theorem dropFull_endSeq (r : Receiver) : r.dropFull.endSeq = r.endSeq := by
  unfold dropFull; split <;> rfl

@[simp] theorem dropFull_reset (r : Receiver) : r.dropFull.reset = r.reset := by
  unfold dropFull; split <;> rfl

@[simp] theorem dropFull_isTimeout (r : Receiver) (now : ℤ) :
    r.dropFull.isTimeout now = r.isTimeout now := by unfold dropFull; split <;> rfl

theorem dropFull_beginSeq (r : Receiver) :
    r.dropFull.beginSeq =
      if Sn.aheadOf 16 512 (u16 r.beginSeq) (u16 r.endSeq) then r.endSeq else r.beginSeq := by
  unfold dropFull packetBufferSize; split <;> rfl

/-! ### What an insertion does to the window -/

/-- `end_seq_` after the packet. -/
def endAfter (r : Receiver) (p : Packet) : ℤ :=
  if Sn.aheadOf 16 0 (u16 r.endSeq) p.seq.toNat then r.endSeq else p.seq.toNat

/-- The packet makes the full-buffer test move `begin_seq_` up to `end_seq_`. -/
def dropsFull (r : Receiver) (p : Packet) : Bool :=
  Sn.aheadOf 16 packetBufferSize (u16 r.beginSeq) (u16 (r.endAfter p))

@[simp] theorem insertPacket_reset (r : Receiver) (p : Packet) (now : ℤ) :
    (r.insertPacket p now).reset = false := by
  simp only [insertPacket, dropFull_reset, advanceEnd_reset, store]
  by_cases h : restarts { r with ssrc := p.ssrc } p = true
  · rw [if_pos h]; rfl
  · rw [if_neg h]
    simp only [restarts, Bool.or_eq_true, not_or, Bool.not_eq_true] at h
    exact h.1

theorem insertPacket_of_restarts {r : Receiver} {p : Packet} (now : ℤ) (h : r.restarts p = true) :
    (r.insertPacket p now).beginSeq = p.seq.toNat ∧ (r.insertPacket p now).endSeq = p.seq.toNat ∧
      (r.insertPacket p now).recvPacks = Slots.empty.set (slot p.seq.toNat) (some p) := by
  have h' : restarts { r with ssrc := p.ssrc } p = true := h
  simp [insertPacket, h', dropFull_beginSeq, advanceEnd_endSeq, store, restart, Sn.aheadOf_irrefl]

theorem insertPacket_of_not_restarts {r : Receiver} {p : Packet} (now : ℤ)
    (h : r.restarts p = false) :
    (r.insertPacket p now).beginSeq = (if r.dropsFull p then r.endAfter p else r.beginSeq) ∧
      (r.insertPacket p now).endSeq = r.endAfter p ∧
      (r.insertPacket p now).recvPacks = r.recvPacks.set (slot p.seq.toNat) (some p) := by
  have h' : restarts { r with ssrc := p.ssrc } p = false := h
  simp only [insertPacket, h', Bool.false_eq_true, if_false, dropFull_beginSeq, dropFull_endSeq,
    dropFull_recvPacks, advanceEnd_endSeq, advanceEnd_beginSeq, advanceEnd_recvPacks, store]
  exact ⟨rfl, rfl, trivial⟩

/-- A packet that does not restart the window leaves the clock alone. -/
theorem insertPacket_isTimeout {r : Receiver} {p : Packet} (now : ℤ)
    (h : r.restarts p = false) (time : ℤ) :
    (r.insertPacket p now).isTimeout time = r.isTimeout time := by
  have h' : restarts { r with ssrc := p.ssrc } p = false := h
  simp only [insertPacket, h', Bool.false_eq_true, if_false, dropFull_isTimeout,
    advanceEnd_isTimeout]
  rfl

end Receiver

end CxxDeps.Rtp
