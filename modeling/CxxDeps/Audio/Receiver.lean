import CxxDeps.H264.Window
import CxxDeps.Rtp.NackList

/-! `receiver_audio`: every packet of the window is a frame of its own, handed out as soon
as the numbers before it are, or have been given up. With in-band FEC a frame behind a loss
is handed out twice, first to recover the lost one. Every call reads the clock once. -/

namespace CxxDeps.Audio

open Rtp Library
open H264 (noWindow clear clear_zero clear_succ clear_eq_some slot_inj WindowInv InsertOk SameWindow
  Consumed)

/-- `av_frame_t` of audio. -/
structure AudioFrame extends Frame where
  fec : ℤ
  deriving DecidableEq, Repr

/-- A packet that is taken out of the window, with the frames that `on_frame` gets for it. -/
structure Delivery where
  packet : Packet
  frames : List AudioFrame
  deriving DecidableEq, Repr

structure ReceiverAudio where
  receiver : Receiver
  useinbandfec : Bool
  hasFirst : Bool := false
  lastSentSeq : UInt32 := 0

namespace ReceiverAudio

/-- A receiver of audio as the constructor leaves it. -/
def new (ssrc : UInt32) (useinbandfec : Bool) : ReceiverAudio :=
  { receiver := { ssrc, nackMaxCount := 3 }, useinbandfec }

/-- The body of the loop of `find_a_frame` for a packet at the number `i`. The frame goes to
`on_frame` by reference, and keeps the duration it gets there. -/
def playPacket (s : ReceiverAudio) (i : ℕ) (pkt : Packet) : ReceiverAudio × Delivery :=
  let frame : Frame := ⟨pkt.ts.toNat, pkt.ts.toNat, pkt.payload, 0⟩
  let (r, frame, lost) :=
    if s.useinbandfec ∧ s.hasFirst ∧ s.lastSentSeq + 1 ≠ UInt32.ofNat i then
      let (r, frame) := s.receiver.invokeRtpFrame frame
      (r, frame, [AudioFrame.mk frame 1])
    else (s.receiver, frame, [])
  let (r, frame) := r.invokeRtpFrame frame
  ({ s with
      receiver := { r with
        recvPacks := r.recvPacks.set (slot i) none
        stats := { r.stats with framesReceived := r.stats.framesReceived + 1 } }
      lastSentSeq := UInt32.ofNat i
      hasFirst := true },
    ⟨pkt, lost ++ [⟨frame, 0⟩]⟩)

/-- `stats_.frames_droped++`. -/
def dropNumber (s : ReceiverAudio) : ReceiverAudio :=
  { s with receiver := { s.receiver with
      stats := { s.receiver.stats with framesDroped := s.receiver.stats.framesDroped + 1 } } }

/-- The loop of `find_a_frame` over the window numbers, with the number it stops at. -/
def playLoop (now : ℤ) : ReceiverAudio → ℕ → List ℕ → ReceiverAudio × List Delivery × ℕ
  | s, i, [] => (s, [], i)
  | s, _, j :: js =>
    match s.receiver.recvPacks (slot j) with
    | none =>
      if s.receiver.isTimeout now then playLoop now s.dropNumber ((j + 1) % 65536) js
      else (s, [], j)
    | some pkt =>
      let (s, d) := s.playPacket j pkt
      let (s, ds, i) := playLoop now s ((j + 1) % 65536) js
      (s, d :: ds, i)

/-- The end of `find_a_frame`. -/
def moveBegin (s : ReceiverAudio) (i : ℕ) (now : ℤ) : ReceiverAudio :=
  { s with receiver := { s.receiver with beginSeq := i, frameBeginTs := now } }

/-- `find_a_frame`. -/
def findAFrame (s : ReceiverAudio) (now : ℤ) : ReceiverAudio × List Delivery :=
  if noWindow s.receiver then (s, [])
  else
    let b := u16 s.receiver.beginSeq
    let (s, ds, i) := playLoop now s b (Sn.numbers b (u16 s.receiver.endSeq))
    (s.moveBegin i now, ds)

/-- What `receiver::insert_packet` does. -/
def store (s : ReceiverAudio) (pkt : Packet) (now : ℤ) : ReceiverAudio :=
  { s with receiver := s.receiver.insertPacket pkt now }

/-- `receiver_audio::insert_packet`. -/
def insertPacket (s : ReceiverAudio) (pkt : Packet) (now : ℤ) : ReceiverAudio × List Delivery :=
  (s.store pkt now).findAFrame now

/-- The number of the packet that was handed out last. -/
def lastPlayed (s : ReceiverAudio) : Option ℕ :=
  if s.hasFirst then some s.lastSentSeq.toNat else none

/-! ### What the loop does to the window -/

@[simp] theorem playPacket_hasFirst (s : ReceiverAudio) (i : ℕ) (pkt : Packet) :
    (s.playPacket i pkt).1.hasFirst = true := rfl

@[simp] theorem playPacket_useinbandfec (s : ReceiverAudio) (i : ℕ) (pkt : Packet) :
    (s.playPacket i pkt).1.useinbandfec = s.useinbandfec := rfl

@[simp] theorem playPacket_packet (s : ReceiverAudio) (i : ℕ) (pkt : Packet) :
    (s.playPacket i pkt).2.packet = pkt := rfl

theorem playPacket_fecs (s : ReceiverAudio) (i : ℕ) (pkt : Packet) :
    (s.playPacket i pkt).2.frames.map AudioFrame.fec =
      if s.useinbandfec ∧ s.hasFirst ∧ s.lastSentSeq + 1 ≠ UInt32.ofNat i then [1, 0] else [0] := by
  unfold playPacket; split_ifs <;> rfl

@[simp] theorem playPacket_recvPacks (s : ReceiverAudio) (i : ℕ) (pkt : Packet) :
    (s.playPacket i pkt).1.receiver.recvPacks = s.receiver.recvPacks.set (slot i) none := by
  unfold playPacket; split_ifs <;> rfl

@[simp] theorem playPacket_isTimeout (s : ReceiverAudio) (i : ℕ) (pkt : Packet) (now : ℤ) :
    (s.playPacket i pkt).1.receiver.isTimeout now = s.receiver.isTimeout now := by
  unfold playPacket; split_ifs <;> rfl

theorem playPacket_ends (s : ReceiverAudio) (i : ℕ) (pkt : Packet) :
    (s.playPacket i pkt).1.receiver.endSeq = s.receiver.endSeq ∧
      (s.playPacket i pkt).1.receiver.reset = s.receiver.reset := by
  unfold playPacket; split_ifs <;> exact ⟨rfl, rfl⟩

theorem playPacket_lastPlayed (s : ReceiverAudio) {i : ℕ} (hi : i < 65536) (pkt : Packet) :
    (s.playPacket i pkt).1.lastPlayed = some i := by
  have hlast : (UInt32.ofNat i).toNat = i := UInt32.toNat_ofNat_of_lt' (by
    rw [UInt32.size]; omega)
  rw [lastPlayed, playPacket_hasFirst, if_pos rfl]
  exact congrArg some hlast

@[simp] theorem moveBegin_lastPlayed (s : ReceiverAudio) (i : ℕ) (now : ℤ) :
    (s.moveBegin i now).lastPlayed = s.lastPlayed := rfl

@[simp] theorem moveBegin_useinbandfec (s : ReceiverAudio) (i : ℕ) (now : ℤ) :
    (s.moveBegin i now).useinbandfec = s.useinbandfec := rfl

@[simp] theorem moveBegin_beginSeq (s : ReceiverAudio) (i : ℕ) (now : ℤ) :
    (s.moveBegin i now).receiver.beginSeq = i := rfl

@[simp] theorem moveBegin_frameBeginTs (s : ReceiverAudio) (i : ℕ) (now : ℤ) :
    (s.moveBegin i now).receiver.frameBeginTs = now := rfl

/-- The loop moves over the first `m` numbers and empties their slots. -/
theorem playLoop_window {now : ℤ} {n : ℕ} (s : ReceiverAudio) {b : ℕ} (hb : b < 65536) :
    ∃ m ≤ n, (playLoop now s b ((List.range n).map fun k => (b + k) % 65536)).2.2 =
        (b + m) % 65536 ∧
      (playLoop now s b ((List.range n).map fun k => (b + k) % 65536)).1.receiver.recvPacks =
        clear s.receiver.recvPacks b m ∧
      (playLoop now s b ((List.range n).map fun k => (b + k) % 65536)).1.receiver.endSeq =
        s.receiver.endSeq ∧
      (playLoop now s b ((List.range n).map fun k => (b + k) % 65536)).1.receiver.reset =
        s.receiver.reset := by
  induction n generalizing s b with
  | zero => exact ⟨0, le_rfl, (Nat.mod_eq_of_lt hb).symm, (clear_zero _ _).symm, rfl, rfl⟩
  | succ n ih =>
    have hb' : (b + 1) % 65536 < 65536 := Nat.mod_lt _ (by decide)
    rw [Sn.map_range_succ n hb]
    unfold playLoop
    rcases hw : s.receiver.recvPacks (slot b) with _ | pkt
    · dsimp only
      split_ifs
      · obtain ⟨m, hm, hi, hr, he, hs⟩ := ih s.dropNumber hb'
        refine ⟨m + 1, by omega, by rw [hi]; omega, ?_, he, hs⟩
        rw [hr, ← clear_succ _ hb, Slots.set_none_of_none hw]
        rfl
      · exact ⟨0, Nat.zero_le _, (Nat.mod_eq_of_lt hb).symm, (clear_zero _ _).symm, rfl, rfl⟩
    · dsimp only
      obtain ⟨m, hm, hi, hr, he, hs⟩ := ih (s.playPacket b pkt).1 hb'
      refine ⟨m + 1, by omega, by rw [hi]; omega, ?_, he.trans (playPacket_ends s b pkt).1,
        hs.trans (playPacket_ends s b pkt).2⟩
      rw [hr, playPacket_recvPacks, clear_succ _ hb]

/-- The numbers of the window, when there are any. -/
def window (r : Receiver) : List ℕ :=
  (List.range (Sn.dist (u16 r.beginSeq) (u16 r.endSeq) + 1)).map fun k =>
    (u16 r.beginSeq + k) % 65536

theorem findAFrame_of_noWindow {s : ReceiverAudio} (h : noWindow s.receiver = true) (now : ℤ) :
    s.findAFrame now = (s, []) := if_pos h

theorem findAFrame_of_window {s : ReceiverAudio} (h : noWindow s.receiver = false) (now : ℤ) :
    (s.findAFrame now).1 =
        (playLoop now s (u16 s.receiver.beginSeq) (window s.receiver)).1.moveBegin
          (playLoop now s (u16 s.receiver.beginSeq) (window s.receiver)).2.2 now ∧
      (s.findAFrame now).2 =
        (playLoop now s (u16 s.receiver.beginSeq) (window s.receiver)).2.1 := by
  have hne : Sn.aheadOf 16 0 (u16 s.receiver.beginSeq) (u16 s.receiver.endSeq) = false := by
    simp only [noWindow, Bool.or_eq_false_iff] at h
    exact h.2
  -- the run of the loop gets a name, so that nothing evaluates it
  obtain ⟨played, hplayed⟩ : ∃ played,
      playLoop now s (u16 s.receiver.beginSeq) (window s.receiver) = played := ⟨_, rfl⟩
  rw [hplayed]
  unfold findAFrame
  rw [if_neg (by simp [h])]
  extract_lets b
  have hnumbers : Sn.numbers b (u16 s.receiver.endSeq) = window s.receiver :=
    Sn.numbers_eq (u16_lt _) (u16_lt _) hne
  have hplayed' : playLoop now s b (window s.receiver) = played := hplayed
  rw [hnumbers, hplayed']
  exact ⟨rfl, rfl⟩

/-- The loop over the window stops behind some of its first numbers. -/
theorem exists_playLoop (s : ReceiverAudio) (now : ℤ) :
    ∃ m ≤ Sn.dist (u16 s.receiver.beginSeq) (u16 s.receiver.endSeq) + 1,
      (playLoop now s (u16 s.receiver.beginSeq) (window s.receiver)).2.2 =
        (u16 s.receiver.beginSeq + m) % 65536 ∧
      (playLoop now s (u16 s.receiver.beginSeq) (window s.receiver)).1.receiver.recvPacks =
        clear s.receiver.recvPacks (u16 s.receiver.beginSeq) m ∧
      (playLoop now s (u16 s.receiver.beginSeq) (window s.receiver)).1.receiver.endSeq =
        s.receiver.endSeq ∧
      (playLoop now s (u16 s.receiver.beginSeq) (window s.receiver)).1.receiver.reset =
        s.receiver.reset := by
  unfold window
  exact playLoop_window s (u16_lt s.receiver.beginSeq)

/-- The window begins behind the numbers that were handed out or given up. -/
theorem windowInv_moveBegin {s s' : ReceiverAudio} (h : WindowInv s.receiver)
    (hw : noWindow s.receiver = false) {m i : ℕ}
    (hm : m ≤ Sn.dist (u16 s.receiver.beginSeq) (u16 s.receiver.endSeq) + 1)
    (hi : i = (u16 s.receiver.beginSeq + m) % 65536)
    (hr : s'.receiver.recvPacks = clear s.receiver.recvPacks (u16 s.receiver.beginSeq) m)
    (he : s'.receiver.endSeq = s.receiver.endSeq) (hs : s'.receiver.reset = s.receiver.reset)
    (now : ℤ) : WindowInv (s'.moveBegin i now).receiver := by
  have hbegin : u16 ((u16 s.receiver.beginSeq + m) % 65536 : ℕ) =
      (u16 s.receiver.beginSeq + m) % 65536 := u16_natCast (Nat.mod_lt _ (by decide))
  simp only [noWindow, Bool.or_eq_false_iff] at hw
  rcases m with _ | m
  · -- the first number is missing
    simp only [WindowInv, H264.SlotsOk, moveBegin]
    rw [hi, he, hr, clear_zero, hbegin, Nat.add_zero, Nat.mod_eq_of_lt (u16_lt _)]
    exact h
  · refine h.consumed (j := m) ⟨hw.2, by omega, ?_, he, hs, hr⟩
    simp only [moveBegin]
    rw [hi, hbegin, Nat.add_assoc]

/-- `find_a_frame` moves over some of the first numbers of the window. -/
theorem windowInv_findAFrame {s : ReceiverAudio} (h : WindowInv s.receiver) (now : ℤ) :
    WindowInv (s.findAFrame now).1.receiver := by
  rcases hw : noWindow s.receiver with _ | _
  · rw [(findAFrame_of_window hw now).1]
    obtain ⟨m, hm, hi, hr, he, hs⟩ := s.exists_playLoop now
    exact windowInv_moveBegin h hw hm hi hr he hs now
  · rw [findAFrame_of_noWindow hw]
    exact h

end ReceiverAudio

/-! ### Runs -/

/-- The calls that reach the window of an audio receiver. -/
inductive Op
  | insertPacket (pkt : Packet) (now : ℤ)
  | increaseFir
  | increasePli
  | setMaxNackCount (num : ℤ)
  | processNack (now : ℤ) (clock : KeyframeClock)

def step (s : ReceiverAudio) : Op → Option (ReceiverAudio × List Delivery)
  | .insertPacket pkt now => some (s.insertPacket pkt now)
  | .increaseFir => some ({ s with receiver := s.receiver.increaseFir }, [])
  | .increasePli => some ({ s with receiver := s.receiver.increasePli }, [])
  | .setMaxNackCount num =>
    some ({ s with receiver := { s.receiver with nackMaxCount := num } }, [])
  | .processNack now clock => some ({ s with receiver := (s.receiver.processNack now clock).1 }, [])

namespace Op

/-- The condition on which a call keeps the window right. -/
def Kept (s : ReceiverAudio) : Op → Prop
  | .insertPacket pkt _ => InsertOk s.receiver pkt
  | _ => True

end Op

/-- The fields that `process_nack` leaves alone. -/
structure SameRing (r r' : Receiver) : Prop where
  beginSeq : r'.beginSeq = r.beginSeq
  endSeq : r'.endSeq = r.endSeq
  recvPacks : r'.recvPacks = r.recvPacks
  frameBeginTs : r'.frameBeginTs = r.frameBeginTs

theorem SameRing.refl (r : Receiver) : SameRing r r := ⟨rfl, rfl, rfl, rfl⟩

theorem SameRing.trans {r s t : Receiver} (h : SameRing r s) (h' : SameRing s t) : SameRing r t :=
  ⟨h'.1.trans h.1, h'.2.trans h.2, h'.3.trans h.3, h'.4.trans h.4⟩

theorem countStep_sameRing (r : Receiver) (nack : NackPkt) : SameRing r (r.countStep nack) := by
  unfold Receiver.countStep Receiver.removeNack
  dsimp only
  split_ifs
  · exact ⟨rfl, rfl, rfl, rfl⟩
  · split <;> exact ⟨rfl, rfl, rfl, rfl⟩

/-- `process_nack` may ask for a restart, and leaves the window alone. -/
theorem processNack_sameRing (r : Receiver) (now : ℤ) (clock : KeyframeClock) :
    SameRing r (r.processNack now clock).1 := by
  have hcount : ∀ (nacks : List NackPkt) (r : Receiver),
      SameRing r (nacks.foldl Receiver.countStep r) := by
    intro nacks
    induction nacks with
    | nil => exact SameRing.refl
    | cons nack nacks ih => exact fun r => (countStep_sameRing r nack).trans (ih _)
  unfold Receiver.processNack
  dsimp only
  split_ifs
  · exact ⟨rfl, rfl, rfl, rfl⟩
  · exact ⟨rfl, rfl, rfl, rfl⟩
  · exact hcount _ r

theorem windowInv_new (ssrc : UInt32) (useinbandfec : Bool) :
    WindowInv (ReceiverAudio.new ssrc useinbandfec).receiver :=
  H264.windowInv_single (q := 65535) (by decide) rfl rfl (by
    intro p h
    cases h)

theorem windowInv_step {s s' : ReceiverAudio} {op : Op} {ds : List Delivery}
    (hi : WindowInv s.receiver) (ho : op.Kept s) (h : step s op = some (s', ds)) :
    WindowInv s'.receiver := by
  cases op with
  | insertPacket pkt now =>
    rw [show s' = (s.insertPacket pkt now).1 from congrArg Prod.fst (Option.some.inj h).symm]
    exact ReceiverAudio.windowInv_findAFrame (s := s.store pkt now)
      (H264.windowInv_insert now hi ho) now
  | increaseFir => cases h; exact hi
  | increasePli => cases h; exact hi
  | setMaxNackCount num => cases h; exact hi
  | processNack now clock =>
    cases h
    have h := processNack_sameRing s.receiver now clock
    rw [WindowInv, H264.SlotsOk]
    dsimp only
    rw [h.beginSeq, h.endSeq, h.recvPacks]
    exact hi

end CxxDeps.Audio
