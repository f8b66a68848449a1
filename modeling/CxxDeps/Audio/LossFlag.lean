import CxxDeps.Audio.Receiver

/-! The frames that recover a loss. The number of the packet handed out last is kept in 32
bits, and the number behind it is computed there, so that the packet 0 right behind the
packet 65535 is taken for the first one behind a loss. -/

namespace CxxDeps.Audio

open Rtp Library
open H264 (noWindow slot_inj WindowInv InsertOk)

/-- A frame with the loss flag comes just before the frame of the packet itself. -/
def Delivery.Flagged (d : Delivery) : Prop := d.frames.map AudioFrame.fec = [1, 0]

/-- Each packet is flagged if and only if one came before it, with another number than the
one in front of its own. -/
def FlagsExact : Option UInt16 → List Delivery → Prop
  | _, [] => True
  | prev, d :: ds =>
    (d.Flagged ↔ ∃ q ∈ prev, d.packet.seq ≠ q + 1) ∧ FlagsExact (some d.packet.seq) ds

/-- The flags as `find_a_frame` sets them. -/
def FlagsSet : Option UInt16 → List Delivery → Prop
  | _, [] => True
  | prev, d :: ds =>
    (d.Flagged ↔ ∃ q ∈ prev, d.packet.seq.toNat ≠ q.toNat + 1) ∧ FlagsSet (some d.packet.seq) ds

/-- A packet 0 comes right behind a packet 65535. -/
def Wraps : Option UInt16 → List Delivery → Prop
  | _, [] => False
  | prev, d :: ds => (prev = some 65535 ∧ d.packet.seq = 0) ∨ Wraps (some d.packet.seq) ds

/-- The number of the last packet. -/
def lastSeq : Option UInt16 → List Delivery → Option UInt16
  | prev, [] => prev
  | _, d :: ds => lastSeq (some d.packet.seq) ds

theorem flagsSet_append {prev : Option UInt16} {xs ys : List Delivery} :
    FlagsSet prev (xs ++ ys) ↔ FlagsSet prev xs ∧ FlagsSet (lastSeq prev xs) ys := by
  induction xs generalizing prev with
  | nil => simp only [List.nil_append, FlagsSet, lastSeq, true_and]
  | cons d xs ih => simp only [List.cons_append, FlagsSet, lastSeq, ih, and_assoc]

theorem wraps_append {prev : Option UInt16} {xs ys : List Delivery} :
    Wraps prev (xs ++ ys) ↔ Wraps prev xs ∨ Wraps (lastSeq prev xs) ys := by
  induction xs generalizing prev with
  | nil => simp only [List.nil_append, Wraps, lastSeq, false_or]
  | cons d xs ih => simp only [List.cons_append, Wraps, lastSeq, ih, or_assoc]

theorem lastSeq_append (prev : Option UInt16) (xs ys : List Delivery) :
    lastSeq prev (xs ++ ys) = lastSeq (lastSeq prev xs) ys := by
  induction xs generalizing prev with
  | nil => rfl
  | cons d xs ih => exact ih _

/-- The number behind another one, in 16 bits and without bound. -/
theorem succ_ne_iff {p q : UInt16} (h : ¬ (q = 65535 ∧ p = 0)) :
    p.toNat ≠ q.toNat + 1 ↔ p ≠ q + 1 := by
  have hp := p.toNat_lt
  have hq := q.toNat_lt
  rw [not_iff_not, ← UInt16.toNat_inj, UInt16.toNat_add]
  rw [← UInt16.toNat_inj, ← UInt16.toNat_inj] at h
  simp only [UInt16.reduceToNat] at h ⊢
  omega

/-- What `find_a_frame` sets is right but around the wrap. -/
theorem flagsExact_iff {prev : Option UInt16} {ds : List Delivery} (h : FlagsSet prev ds) :
    FlagsExact prev ds ↔ ¬ Wraps prev ds := by
  induction ds generalizing prev with
  | nil => exact iff_of_true trivial id
  | cons d ds ih =>
    obtain ⟨hd, hds⟩ := h
    rw [FlagsExact, Wraps, not_or, ih hds, hd]
    refine and_congr_left fun _ => ?_
    rcases prev with _ | q
    · simp
    · simp only [Option.mem_some_iff, exists_eq_left', Option.some.injEq]
      by_cases hwrap : q = 65535 ∧ d.packet.seq = 0
      · refine iff_of_false (fun h => ?_) (not_not_intro hwrap)
        rw [hwrap.1, hwrap.2] at h
        exact (h.mp (by decide)) (by decide)
      · exact iff_of_true (succ_ne_iff hwrap) hwrap

/-! ### The flags of a step -/

open ReceiverAudio

theorem playPacket_flagged {s : ReceiverAudio} (hfec : s.useinbandfec = true)
    {prev : Option UInt16} (hprev : prev.map UInt16.toNat = s.lastPlayed) (pkt : Packet) :
    (s.playPacket pkt.seq.toNat pkt).2.Flagged ↔
      ∃ q ∈ prev, pkt.seq.toNat ≠ q.toNat + 1 := by
  have hp := pkt.seq.toNat_lt
  unfold lastPlayed at hprev
  rw [Delivery.Flagged, playPacket_fecs]
  rcases hf : s.hasFirst with _ | _
  · rw [hf, if_neg Bool.false_ne_true, Option.map_eq_none_iff] at hprev
    subst hprev
    rw [if_neg fun h => Bool.false_ne_true h.2.1]
    exact iff_of_false (by decide) (by rintro ⟨q, hq, -⟩; cases hq)
  · rw [hf, if_pos rfl] at hprev
    obtain ⟨q, rfl, hq⟩ := Option.map_eq_some_iff.mp hprev
    have hlast := q.toNat_lt
    have hne : s.lastSentSeq + 1 ≠ UInt32.ofNat pkt.seq.toNat ↔ pkt.seq.toNat ≠ q.toNat + 1 := by
      rw [Ne, ← UInt32.toNat_inj, UInt32.toNat_add, UInt32.toNat_ofNat_of_lt' (by
        rw [UInt32.size]; omega), ← hq]
      simp only [UInt32.reduceToNat]
      omega
    simp only [Option.mem_some_iff, exists_eq_left', ← hne]
    by_cases h : s.lastSentSeq + 1 ≠ UInt32.ofNat pkt.seq.toNat
    · rw [if_pos ⟨hfec, trivial, h⟩]
      exact iff_of_true rfl h
    · rw [if_neg fun hall => h hall.2.2]
      exact iff_of_false (by decide) h

/-- The packets in the slots of the numbers are those of the numbers. -/
def Own (w : Slots) (js : List ℕ) : Prop :=
  ∀ j ∈ js, ∀ p, w (slot j) = some p → p.seq.toNat = j

theorem Own.set {w : Slots} {js : List ℕ} (h : Own w js) (i : Fin packetBufferSize) :
    Own (w.set i none) js := by
  intro j hj p hp
  by_cases hs : slot j = i
  · rw [hs, Slots.set_self] at hp
    cases hp
  · rw [Slots.set_of_ne _ _ hs] at hp
    exact h j hj p hp

/-- The flags of a step and the number it leaves behind. -/
theorem playLoop_flagsSet {now : ℤ} {js : List ℕ} (s : ReceiverAudio) (i : ℕ)
    (hfec : s.useinbandfec = true) {prev : Option UInt16}
    (hprev : prev.map UInt16.toNat = s.lastPlayed) (hown : Own s.receiver.recvPacks js) :
    FlagsSet prev (playLoop now s i js).2.1 ∧
      (lastSeq prev (playLoop now s i js).2.1).map UInt16.toNat =
        (playLoop now s i js).1.lastPlayed ∧
      (playLoop now s i js).1.useinbandfec = true := by
  induction js generalizing s i prev with
  | nil => exact ⟨trivial, hprev, hfec⟩
  | cons j js ih =>
    have htail : Own s.receiver.recvPacks js := fun j' hj' => hown j' (List.mem_cons_of_mem _ hj')
    unfold playLoop
    rcases hw : s.receiver.recvPacks (slot j) with _ | pkt
    · dsimp only
      split_ifs
      · exact ih s.dropNumber _ hfec hprev htail
      · exact ⟨trivial, hprev, hfec⟩
    · obtain rfl : pkt.seq.toNat = j := hown _ List.mem_cons_self pkt hw
      obtain ⟨hset, hlast, hfec'⟩ := ih (s.playPacket pkt.seq.toNat pkt).1
        ((pkt.seq.toNat + 1) % 65536) hfec
        (show (some pkt.seq).map UInt16.toNat = _ from
          (playPacket_lastPlayed s pkt.seq.toNat_lt pkt).symm)
        (by rw [playPacket_recvPacks]; exact htail.set _)
      exact ⟨⟨playPacket_flagged hfec hprev pkt, hset⟩, hlast, hfec'⟩

/-- In a window of `n` numbers from `b` on the number 0 is handed out, right behind 65535. -/
def WrapsFrom (w : Slots) (timeout : Prop) (b n : ℕ) (last : Option ℕ) : Prop :=
  ∃ k < n, (b + k) % 65536 = 0 ∧ (w (slot 0)).isSome = true ∧
    (∀ j < k, (w (slot ((b + j) % 65536))).isSome = true ∨ timeout) ∧
    ((0 < k ∧ (w (slot 65535)).isSome = true) ∨
      ((∀ j < k, w (slot ((b + j) % 65536)) = none) ∧ last = some 65535))

theorem wrapsFrom_of_none {w : Slots} {timeout : Prop} {b n : ℕ} {last : Option ℕ}
    (hb : b < 65536) (h : w (slot b) = none) :
    WrapsFrom w timeout b (n + 1) last ↔
      timeout ∧ WrapsFrom w timeout ((b + 1) % 65536) n last := by
  have hshift : ∀ j, ((b + 1) % 65536 + j) % 65536 = (b + (j + 1)) % 65536 := fun j => by omega
  have hb0 : (b + 0) % 65536 = b := Nat.mod_eq_of_lt hb
  constructor
  · rintro ⟨k, hk, h0, hzero, hheld, hprev⟩
    rcases k with _ | k
    · rw [hb0] at h0
      rw [← h0, h] at hzero
      cases hzero
    have ht : timeout := by
      have := hheld 0 (by omega)
      rw [hb0, h] at this
      exact this.resolve_left Bool.false_ne_true
    refine ⟨ht, k, by omega, by rw [hshift]; exact h0, hzero, fun j _ => .inr ht, ?_⟩
    rcases hprev with ⟨-, hlast⟩ | ⟨hnone, hprev⟩
    · refine .inl ⟨?_, hlast⟩
      -- the number before 0 is not the missing one
      rcases k with _ | k
      · rw [show 65535 = b by omega, h] at hlast
        cases hlast
      · exact Nat.succ_pos k
    · exact .inr ⟨fun j hj => by rw [hshift]; exact hnone (j + 1) (by omega), hprev⟩
  · rintro ⟨ht, k, hk, h0, hzero, -, hprev⟩
    rw [hshift] at h0
    refine ⟨k + 1, by omega, h0, hzero, fun j _ => .inr ht, ?_⟩
    refine hprev.imp (fun hlast => ⟨Nat.succ_pos k, hlast.2⟩) fun ⟨hnone, hprev⟩ => ⟨?_, hprev⟩
    intro j hj
    rcases j with _ | j
    · rw [hb0, h]
    · rw [← hshift]
      exact hnone j (by omega)

theorem wrapsFrom_of_some {w : Slots} {timeout : Prop} {n : ℕ} {last : Option ℕ}
    {pkt : Packet} (hn : n < 512) (h : w (slot pkt.seq.toNat) = some pkt) :
    WrapsFrom w timeout pkt.seq.toNat (n + 1) last ↔ (last = some 65535 ∧ pkt.seq = 0) ∨
      WrapsFrom (w.set (slot pkt.seq.toNat) none) timeout ((pkt.seq.toNat + 1) % 65536) n
        (some pkt.seq.toNat) := by
  obtain ⟨b, hbq⟩ : ∃ b, b = pkt.seq.toNat := ⟨_, rfl⟩
  have hb : b < 65536 := hbq ▸ pkt.seq.toNat_lt
  have hzero_iff : pkt.seq = 0 ↔ b = 0 := by
    rw [hbq, ← UInt16.toNat_inj]
    rfl
  rw [← hbq] at h ⊢
  have hshift : ∀ j, ((b + 1) % 65536 + j) % 65536 = (b + (j + 1)) % 65536 := fun j => by omega
  have hb0 : (b + 0) % 65536 = b := Nat.mod_eq_of_lt hb
  -- the other slots of the window are left alone
  have hset : ∀ j < n, (w.set (slot b) none) (slot ((b + (j + 1)) % 65536)) =
      w (slot ((b + (j + 1)) % 65536)) := fun j hj => Slots.set_of_ne _ _ fun hs => by
    have := slot_inj (b := b) (k := j + 1) (l := 0) (by omega) (by omega) (by rw [hs, hb0])
    omega
  constructor
  · rintro ⟨k, hk, h0, hzero, hheld, hprev⟩
    rcases k with _ | k
    · rw [hb0] at h0
      rcases hprev with ⟨hpos, -⟩ | ⟨-, hprev⟩
      · exact absurd hpos (Nat.lt_irrefl 0)
      · exact .inl ⟨hprev, hzero_iff.mpr h0⟩
    · have hk' : k < n := by omega
      refine .inr ⟨k, hk', by rw [hshift]; exact h0, ?_, fun j hj => ?_, ?_⟩
      · have := hset k hk'
        rw [h0] at this
        rw [this]
        exact hzero
      · rw [hshift, hset j (by omega)]
        exact hheld (j + 1) (by omega)
      · rcases hprev with ⟨-, hlast⟩ | ⟨hnone, -⟩
        · rcases k with _ | k
          · exact .inr ⟨fun j hj => absurd hj (Nat.not_lt_zero j), congrArg some (by omega)⟩
          · have := hset k (by omega)
            rw [show (b + (k + 1)) % 65536 = 65535 by omega] at this
            exact .inl ⟨Nat.succ_pos k, by rw [this]; exact hlast⟩
        · have := hnone 0 (Nat.succ_pos k)
          rw [hb0, h] at this
          cases this
  · rintro (⟨hprev, h0⟩ | ⟨k, hk, h0, hzero, hheld, hprev⟩)
    · rw [hzero_iff] at h0
      subst h0
      exact ⟨0, Nat.succ_pos n, rfl, by rw [h]; rfl, fun j hj => absurd hj (Nat.not_lt_zero j),
        .inr ⟨fun j hj => absurd hj (Nat.not_lt_zero j), hprev⟩⟩
    · rw [hshift] at h0
      have hslot := hset k hk
      rw [h0] at hslot
      refine ⟨k + 1, by omega, h0, by rw [← hslot]; exact hzero, fun j hj => ?_,
        .inl ⟨Nat.succ_pos k, ?_⟩⟩
      · rcases j with _ | j
        · rw [hb0, h]
          exact .inl rfl
        · rw [← hset j (by omega), ← hshift]
          exact hheld j (by omega)
      · rcases hprev with ⟨hpos, hlast⟩ | ⟨-, hprev⟩
        · obtain ⟨j, rfl⟩ := Nat.exists_eq_succ_of_ne_zero hpos.ne'
          have := hset j (by omega)
          rw [show (b + (j + 1)) % 65536 = 65535 by omega] at this
          rw [← this]
          exact hlast
        · rw [← Option.some.inj hprev, h]
          rfl

theorem wraps_playLoop {now : ℤ} {n : ℕ} (hn : n ≤ 512) (s : ReceiverAudio) {b : ℕ}
    (hb : b < 65536) (prev : Option UInt16)
    (hown : Own s.receiver.recvPacks ((List.range n).map fun k => (b + k) % 65536)) :
    Wraps prev (playLoop now s b ((List.range n).map fun k => (b + k) % 65536)).2.1 ↔
      WrapsFrom s.receiver.recvPacks (s.receiver.isTimeout now = true) b n
        (prev.map UInt16.toNat) := by
  induction n generalizing s b prev with
  | zero => exact iff_of_false id (fun ⟨k, hk, _⟩ => absurd hk (Nat.not_lt_zero k))
  | succ n ih =>
    have hb' : (b + 1) % 65536 < 65536 := Nat.mod_lt _ (by decide)
    rw [Sn.map_range_succ n hb] at hown ⊢
    have htail := fun j hj => hown j (List.mem_cons_of_mem _ hj)
    unfold playLoop
    rcases hw : s.receiver.recvPacks (slot b) with _ | pkt
    · rw [wrapsFrom_of_none hb hw]
      dsimp only
      split_ifs with ht
      · rw [and_iff_right ht]
        exact ih (by omega) s.dropNumber hb' prev htail
      · exact iff_of_false id fun h => ht h.1
    · obtain rfl : pkt.seq.toNat = b := hown _ List.mem_cons_self pkt hw
      rw [wrapsFrom_of_some (by omega) hw]
      have hlast : prev = some 65535 ↔ prev.map UInt16.toNat = some 65535 := by
        rcases prev with _ | q
        · exact iff_of_false (by simp) (by simp)
        · rw [Option.map_some, Option.some.injEq, Option.some.injEq, ← UInt16.toNat_inj]
          rfl
      simp only [Wraps, playPacket_packet, ← hlast]
      have hrest := ih (by omega) (s.playPacket pkt.seq.toNat pkt).1 hb' (some pkt.seq)
        (by rw [playPacket_recvPacks]; exact Own.set htail _)
      rw [hrest, playPacket_recvPacks, playPacket_isTimeout, Option.map_some]

/-! ### Runs -/

/-- The call hands out no packet 0 right behind a packet 65535. -/
def Op.NoWrap (s : ReceiverAudio) : Op → Prop
  | .insertPacket pkt now =>
    noWindow (s.store pkt now).receiver = true ∨
      ¬ WrapsFrom (s.store pkt now).receiver.recvPacks
        ((s.store pkt now).receiver.isTimeout now = true) (u16 (s.store pkt now).receiver.beginSeq)
        (Sn.dist (u16 (s.store pkt now).receiver.beginSeq)
          (u16 (s.store pkt now).receiver.endSeq) + 1) s.lastPlayed
  | _ => True

/-- What a receiver with in-band FEC knows about what it has handed out. -/
structure Follows (s : ReceiverAudio) (out : List Delivery) : Prop where
  window : WindowInv s.receiver
  useinbandfec : s.useinbandfec = true
  last : (lastSeq none out).map UInt16.toNat = s.lastPlayed
  flags : FlagsSet none out

theorem own_window {r : Receiver} (h : WindowInv r) (hw : noWindow r = false) :
    Sn.dist (u16 r.beginSeq) (u16 r.endSeq) < 512 ∧ Own r.recvPacks (window r) := by
  simp only [noWindow, Bool.or_eq_false_iff] at hw
  obtain ⟨hd, hs⟩ := h.dist_lt hw.2
  refine ⟨hd, fun j hj p hp => ?_⟩
  obtain ⟨k, hk, rfl⟩ := List.mem_map.mp hj
  exact hs k (by rw [List.mem_range] at hk; omega) p hp

theorem follows_insertPacket {s : ReceiverAudio} {out : List Delivery} (h : Follows s out)
    {pkt : Packet} (ho : InsertOk s.receiver pkt) (now : ℤ) :
    Follows (s.insertPacket pkt now).1 (out ++ (s.insertPacket pkt now).2) ∧
      (Op.NoWrap s (.insertPacket pkt now) ↔
        ¬ Wraps (lastSeq none out) (s.insertPacket pkt now).2) := by
  have hinv : WindowInv (s.store pkt now).receiver := H264.windowInv_insert now h.window ho
  have hwin := windowInv_findAFrame hinv now
  have hlast : (lastSeq none out).map UInt16.toNat = (s.store pkt now).lastPlayed := h.last
  unfold ReceiverAudio.insertPacket
  rcases hw : noWindow (s.store pkt now).receiver with _ | _
  · obtain ⟨hd, hown⟩ := own_window hinv hw
    obtain ⟨h1, h2⟩ := findAFrame_of_window hw now
    obtain ⟨hset, hlast', hfec⟩ := @playLoop_flagsSet now _ (s.store pkt now)
      (u16 (s.store pkt now).receiver.beginSeq) h.useinbandfec _ hlast hown
    have hwraps := @wraps_playLoop now (_ + 1) (by omega) (s.store pkt now) _
      (u16_lt _) (lastSeq none out) hown
    rw [← window] at hwraps
    refine ⟨⟨hwin, ?_, ?_, ?_⟩, ?_⟩
    · rw [h1, moveBegin_useinbandfec, hfec]
    · rw [h1, h2, lastSeq_append, hlast', moveBegin_lastPlayed]
    · rw [h2, flagsSet_append]; exact ⟨h.flags, hset⟩
    · rw [h2, hwraps, hlast, Op.NoWrap, hw, or_iff_right Bool.false_ne_true]
      rfl
  · rw [findAFrame_of_noWindow hw, List.append_nil]
    exact ⟨⟨hinv, h.useinbandfec, hlast, h.flags⟩, iff_of_true (.inl hw) id⟩

theorem follows_step {s s' : ReceiverAudio} {out ds : List Delivery} {op : Op}
    (h : Follows s out) (ho : op.Kept s) (hs : step s op = some (s', ds)) :
    Follows s' (out ++ ds) ∧ (op.NoWrap s ↔ ¬ Wraps (lastSeq none out) ds) := by
  have hwin := windowInv_step h.window ho hs
  have hnone : ∀ r : Receiver, WindowInv r →
      Follows { s with receiver := r } (out ++ []) ∧
        (True ↔ ¬ Wraps (lastSeq none out) []) := fun r hr => by
    rw [List.append_nil]
    exact ⟨⟨hr, h.useinbandfec, h.last, h.flags⟩, iff_of_true trivial id⟩
  cases op with
  | insertPacket pkt now =>
    have he := Option.some.inj hs
    rw [show s' = (s.insertPacket pkt now).1 from congrArg Prod.fst he.symm,
      show ds = (s.insertPacket pkt now).2 from congrArg Prod.snd he.symm]
    exact follows_insertPacket h ho now
  | increaseFir => cases hs; exact hnone _ hwin
  | increasePli => cases hs; exact hnone _ hwin
  | setMaxNackCount num => cases hs; exact hnone _ hwin
  | processNack now clock => cases hs; exact hnone _ hwin

/-- As long as the packets stay within the ring, the loss flags of a run are right exactly
if no call hands out a packet 0 right behind a packet 65535. -/
theorem lossFlags_exact_iff (ssrc : UInt32) {ops : List Op} {t : ReceiverAudio}
    {out : List Delivery}
    (hk : RunOk step (fun s op => op.Kept s) (ReceiverAudio.new ssrc true) ops)
    (hr : run step (ReceiverAudio.new ssrc true) ops = some (t, out)) :
    FlagsExact none out ↔
      RunOk step (fun s op => op.NoWrap s) (ReceiverAudio.new ssrc true) ops := by
  have hwraps : RunOk step (fun s op => op.NoWrap s) (ReceiverAudio.new ssrc true) ops ↔
      ¬ Wraps none ([] ++ out) := RunOk.iff_outputs Follows
    (fun out => ¬ Wraps none out) (fun _ _ h hw => h (wraps_append.mpr (.inl hw)))
    (fun _ _ _ _ _ hi ho hs => (follows_step hi ho hs).1) (fun s out op s' ds hi ho hP hs => by
      rw [wraps_append, not_or, and_iff_right hP]
      exact (follows_step hi ho hs).2) [] hk
    ⟨windowInv_new ssrc true, rfl, rfl, trivial⟩ id hr
  have hfollows := RunOk.invariant Follows
    (fun _ _ _ _ _ hi ho hs => (follows_step hi ho hs).1) [] hk
    ⟨windowInv_new ssrc true, rfl, rfl, trivial⟩ hr
  rw [hwraps]
  exact flagsExact_iff hfollows.flags

private def audioPacket (seq : UInt16) : Packet :=
  ⟨false, 111, seq, 160 * seq.toUInt32, 1, [0x78]⟩

private def oneLost : List Op :=
  [.insertPacket (audioPacket 7) 0, .insertPacket (audioPacket 9) 20,
    .insertPacket (audioPacket 10) 2000]

private theorem oneLost_kept :
    RunOk step (fun s op => op.Kept s) (ReceiverAudio.new 1 true) oneLost := by
  refine ⟨.inl rfl, fun r hr => ?_⟩
  obtain rfl := Option.some.inj hr
  refine ⟨.inr ?_, fun r hr => ?_⟩
  · rw [if_neg (by decide)]
    refine .inr ⟨by decide, fun k hk h0 p hp => ?_⟩
    obtain rfl : k = 1 := Nat.le_antisymm (Nat.le_of_lt_succ hk) h0
    cases hp
  obtain rfl := Option.some.inj hr
  refine ⟨.inr ?_, fun r _ => trivial⟩
  rw [if_neg (by decide)]
  refine .inr ⟨by decide, fun k hk h0 _ _ => ?_⟩
  exact absurd h0 (Nat.not_lt.mpr (Nat.le_of_lt_succ hk))

/-- The packet behind a lost one is flagged, and no other. -/
theorem lossFlags_one_lost :
    ∃ t out, run step (ReceiverAudio.new 1 true) oneLost = some (t, out) ∧
      out.map (fun d => (d.packet.seq, d.frames.map AudioFrame.fec)) =
        [(7, [0]), (9, [1, 0]), (10, [0])] ∧
      (FlagsExact none out ↔
        RunOk step (fun s op => op.NoWrap s) (ReceiverAudio.new 1 true) oneLost) :=
  ⟨_, _, rfl, by decide, lossFlags_exact_iff 1 oneLost_kept rfl⟩

/-- Of two packets in order the second one is flagged when it is number 0. -/
theorem wrap_taken_for_loss :
    ∃ t out, run step (ReceiverAudio.new 1 true)
        [.insertPacket (audioPacket 65535) 0, .insertPacket (audioPacket 0) 20] = some (t, out) ∧
      out.map (fun d => (d.packet.seq, d.frames.map AudioFrame.fec)) =
        [(65535, [0]), (0, [1, 0])] ∧
      ¬ FlagsExact none out := by
  refine ⟨_, _, rfl, by decide, fun h => ?_⟩
  obtain ⟨q, hq, hne⟩ := h.2.1.mp rfl
  cases hq
  exact hne rfl

end CxxDeps.Audio
