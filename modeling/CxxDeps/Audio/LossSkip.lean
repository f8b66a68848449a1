import CxxDeps.Audio.Receiver

/-! How long a lost packet blocks the ones behind it. The clock that tells when it is given
up starts anew with every packet that arrives, so that only a gap between two arrivals
counts, however long the packet has been missing. -/

namespace CxxDeps.Audio

open Rtp Library ReceiverAudio
open H264 (noWindow slot_inj)

/-- The number `b` is missing at the head of the window, with a packet behind it. -/
structure Blocked (b : ℕ) (s : ReceiverAudio) : Prop where
  nonempty : noWindow s.receiver = false
  beginSeq : u16 s.receiver.beginSeq = b
  missing : s.receiver.recvPacks (slot b) = none
  later : ∃ j ∈ window s.receiver, (s.receiver.recvPacks (slot j)).isSome = true

/-- The packet joins the window: it does not restart it, nor does it overfill the ring. -/
structure Joins (r : Receiver) (pkt : Packet) : Prop where
  notBehind : r.restarts pkt = false
  notFull : r.dropsFull pkt = false
  ring : Sn.dist (u16 r.beginSeq) (u16 (r.endAfter pkt)) < packetBufferSize

/-- The insertion gives up the missing numbers: all packets of the window are handed out in
order, and nothing of the window is left. -/
def Skips (s : ReceiverAudio) (pkt : Packet) (now : ℤ) : Prop :=
  (s.insertPacket pkt now).2.map Delivery.packet =
      (window (s.store pkt now).receiver).filterMap
        (fun j => (s.store pkt now).receiver.recvPacks (slot j)) ∧
    u16 (s.insertPacket pkt now).1.receiver.beginSeq =
      (u16 (s.store pkt now).receiver.endSeq + 1) % 65536

/-- The time of the last insertion. -/
def lastInsert : ℤ → List Op → ℤ
  | t, [] => t
  | _, .insertPacket _ now :: ops => lastInsert now ops
  | t, _ :: ops => lastInsert t ops

/-! ### The loop -/

/-- Once the time is over the loop goes through to the end. -/
theorem playLoop_timeout {now : ℤ} {n : ℕ} (hn : n ≤ 512) (s : ReceiverAudio) {b : ℕ}
    (hb : b < 65536) (ht : s.receiver.isTimeout now = true) :
    (playLoop now s b ((List.range n).map fun k => (b + k) % 65536)).2.1.map Delivery.packet =
        ((List.range n).map fun k => (b + k) % 65536).filterMap
          (fun j => s.receiver.recvPacks (slot j)) ∧
      (playLoop now s b ((List.range n).map fun k => (b + k) % 65536)).2.2 = (b + n) % 65536 := by
  induction n generalizing s b with
  | zero => exact ⟨rfl, (Nat.mod_eq_of_lt hb).symm⟩
  | succ n ih =>
    have hb' : (b + 1) % 65536 < 65536 := Nat.mod_lt _ (by decide)
    rw [Sn.map_range_succ n hb]
    unfold playLoop
    rcases hw : s.receiver.recvPacks (slot b) with _ | pkt
    · rw [List.filterMap_cons_none (f := fun j => s.receiver.recvPacks (slot j)) hw]
      dsimp only
      rw [if_pos ht]
      obtain ⟨hout, hend⟩ := ih (by omega) s.dropNumber hb' ht
      exact ⟨hout, by rw [hend]; omega⟩
    · rw [List.filterMap_cons_some (f := fun j => s.receiver.recvPacks (slot j)) hw]
      obtain ⟨hout, hend⟩ := ih (by omega) (s.playPacket b pkt).1 hb' (by
        rw [playPacket_isTimeout]; exact ht)
      refine ⟨?_, by dsimp only; rw [hend]; omega⟩
      dsimp only
      rw [List.map_cons, playPacket_packet, hout, playPacket_recvPacks]
      refine congrArg (pkt :: ·) (List.filterMap_congr fun j hj => Slots.set_of_ne _ _ fun hs => ?_)
      -- the other numbers of the window have other slots
      obtain ⟨k, hk, rfl⟩ := List.mem_map.mp hj
      rw [List.mem_range] at hk
      have := slot_inj (b := b) (k := k + 1) (l := 0) (by omega) (by omega) (by
        rw [show (b + 0) % 65536 = b by omega, ← hs]
        exact congrArg slot (by omega))
      omega

/-- Before that it stops at the first missing number. -/
theorem playLoop_blocked {now : ℤ} (s : ReceiverAudio) {b : ℕ} {js : List ℕ}
    (hw : s.receiver.recvPacks (slot b) = none) (ht : s.receiver.isTimeout now = false) :
    playLoop now s b (b :: js) = (s, [], b) := by
  unfold playLoop
  rw [hw]
  dsimp only
  rw [if_neg (by simp [ht])]

/-! ### The clock -/

/-- An insertion that leaves a window behind starts the clock anew. -/
theorem frameBeginTs_insertPacket {s : ReceiverAudio} {pkt : Packet} {now : ℤ}
    (h : noWindow (s.insertPacket pkt now).1.receiver = false) :
    (s.insertPacket pkt now).1.receiver.frameBeginTs = now := by
  unfold ReceiverAudio.insertPacket at h ⊢
  rcases hw : noWindow (s.store pkt now).receiver with _ | _
  · rw [(findAFrame_of_window hw now).1, moveBegin_frameBeginTs]
  · rw [findAFrame_of_noWindow hw, hw] at h
    cases h

/-- While a number stays missing, the clock runs from the last insertion. -/
theorem frameBeginTs_of_blocked {b : ℕ} {t : ℤ} {ops : List Op} {s s' : ReceiverAudio}
    {out : List Delivery} (h0 : s.receiver.frameBeginTs = t)
    (hr : run step s ops = some (s', out)) (hk : RunOk step (fun s _ => Blocked b s) s ops)
    (hb : Blocked b s') : s'.receiver.frameBeginTs = lastInsert t ops := by
  induction ops generalizing s t out with
  | nil =>
    rw [run_nil, Option.some.injEq, Prod.mk.injEq] at hr
    rw [← hr.1]
    exact h0
  | cons op ops ih =>
    obtain ⟨s₁, o, o', hs, ht, rfl⟩ := run_cons_eq_some.mp hr
    have hk₁ := hk.2 _ hs
    have hb₁ : Blocked b s₁ := by
      rcases ops with _ | ⟨op', ops⟩
      · rw [run_nil, Option.some.injEq, Prod.mk.injEq] at ht
        rw [ht.1]
        exact hb
      · exact hk₁.1
    cases op with
    | insertPacket pkt now =>
      -- the number is still missing, so that the clock starts anew
      have hs₁ : s₁ = (s.insertPacket pkt now).1 := congrArg Prod.fst (Option.some.inj hs).symm
      refine ih ?_ ht hk₁
      rw [hs₁]
      exact frameBeginTs_insertPacket (by rw [← hs₁]; exact hb₁.nonempty)
    | increaseFir => cases hs; exact ih (by exact h0) ht hk₁
    | increasePli => cases hs; exact ih (by exact h0) ht hk₁
    | setMaxNackCount num => cases hs; exact ih (by exact h0) ht hk₁
    | processNack now clock =>
      cases hs
      exact ih (by exact (processNack_sameRing s.receiver now clock).frameBeginTs.trans h0) ht hk₁

/-! ### The insertion -/

/-- A packet that joins the window lies behind the missing number. -/
theorem place_of_joins {b : ℕ} {s : ReceiverAudio} (hb : Blocked b s) {pkt : Packet}
    (hj : Joins s.receiver pkt) (hp : pkt.seq.toNat ≠ b) :
    ∃ k, 0 < k ∧ k ≤ Sn.dist b (u16 (s.receiver.endAfter pkt)) ∧
      pkt.seq.toNat = (b + k) % 65536 := by
  have hq := H264.seq_lt pkt
  have hbl := u16_lt s.receiver.beginSeq
  have hel := u16_lt s.receiver.endSeq
  have hbq := (Sn.aheadOf_u16 hbl hq).not.mp
    (by simp [H264.not_aheadOf_of_not_restarts hj.notBehind])
  have hring := hj.ring
  rw [hb.beginSeq] at hbl hbq hring
  refine ⟨Sn.dist b pkt.seq.toNat, ?_, ?_, ?_⟩
  · simp only [Sn.dist]
    omega
  · by_cases hl : Sn.aheadOf 16 0 (u16 s.receiver.endSeq) pkt.seq.toNat = true
    · have heq := (Sn.aheadOf_u16 hel hq).mp hl
      rw [show s.receiver.endAfter pkt = s.receiver.endSeq from if_pos hl] at hring ⊢
      simp only [Sn.dist, packetBufferSize] at hring ⊢
      omega
    · rw [show s.receiver.endAfter pkt = pkt.seq.toNat from if_neg hl, u16_natCast hq]
  · simp only [Sn.dist]
    omega

/-- A packet that joins a blocked window leaves its head missing, and lies in it. -/
theorem store_of_joins {b : ℕ} {s : ReceiverAudio} (hb : Blocked b s) {pkt : Packet}
    (hj : Joins s.receiver pkt) (hp : pkt.seq.toNat ≠ b) (now : ℤ) :
    noWindow (s.store pkt now).receiver = false ∧
      u16 (s.store pkt now).receiver.beginSeq = b ∧
      Sn.dist b (u16 (s.store pkt now).receiver.endSeq) < 512 ∧
      (s.store pkt now).receiver.recvPacks (slot b) = none ∧
      pkt.seq.toNat ∈ window (s.store pkt now).receiver ∧
      (s.store pkt now).receiver.recvPacks (slot pkt.seq.toNat) = some pkt := by
  obtain ⟨hbegin, hend, hpacks⟩ := Receiver.insertPacket_of_not_restarts now hj.notBehind
  rw [hj.notFull, if_neg Bool.false_ne_true] at hbegin
  have hb16 : u16 (s.store pkt now).receiver.beginSeq = b := (congrArg u16 hbegin).trans hb.beginSeq
  have he16 : u16 (s.store pkt now).receiver.endSeq = u16 (s.receiver.endAfter pkt) :=
    congrArg u16 hend
  have hbl : b < 65536 := hb.beginSeq ▸ u16_lt _
  have hel := u16_lt (s.receiver.endAfter pkt)
  have hring := hj.ring
  rw [hb.beginSeq, packetBufferSize] at hring
  -- where the packet lies in the window
  obtain ⟨k, hk, hkd, hseq⟩ : ∃ k, 0 < k ∧ k ≤ Sn.dist b (u16 (s.receiver.endAfter pkt)) ∧
      pkt.seq.toNat = (b + k) % 65536 :=
    place_of_joins hb hj hp
  have hslot : slot b ≠ slot pkt.seq.toNat := fun hs => by
    have := slot_inj (b := b) (k := 0) (l := k) (by omega) (by omega) (by
      rw [show (b + 0) % 65536 = b by omega, hs, hseq])
    omega
  refine ⟨?_, hb16, by rw [he16]; exact hring, ?_, ?_, ?_⟩
  · have hnonempty := hb.nonempty
    simp only [noWindow, Bool.or_eq_false_iff, decide_eq_false_iff_not, not_lt] at hnonempty ⊢
    refine ⟨⟨?_, ?_⟩, ?_⟩
    · exact hnonempty.1.1.trans_eq hbegin.symm
    · rw [show (s.store pkt now).receiver.endSeq = s.receiver.endAfter pkt from hend]
      unfold Receiver.endAfter
      split_ifs
      · exact hnonempty.1.2
      · exact Int.natCast_nonneg _
    · rw [hb16, he16, ← Bool.not_eq_true, Sn.aheadOf_u16 hbl hel]
      simp only [Sn.dist] at hring
      omega
  · exact (congrFun hpacks _).trans ((Slots.set_of_ne _ _ hslot).trans hb.missing)
  · rw [window, hb16, he16]
    exact List.mem_map.mpr ⟨k, List.mem_range.mpr (by omega), hseq.symm⟩
  · exact (congrFun hpacks _).trans (Slots.set_self _ _ _)

/-- A packet that joins a window whose head is missing gives the missing numbers up exactly
if it comes `delay_` after the packet before it. -/
theorem skips_iff {b : ℕ} {s : ReceiverAudio} (hb : Blocked b s) {pkt : Packet}
    (hj : Joins s.receiver pkt) (hp : pkt.seq.toNat ≠ b) (now : ℤ) :
    Skips s pkt now ↔ s.receiver.delay ≤ now - s.receiver.frameBeginTs := by
  obtain ⟨hw, hbegin, hd, hnone, hmem, hpkt⟩ := store_of_joins hb hj hp now
  have htime : (s.store pkt now).receiver.isTimeout now =
      decide (s.receiver.delay ≤ now - s.receiver.frameBeginTs) :=
    Receiver.insertPacket_isTimeout now hj.notBehind now
  obtain ⟨h1, h2⟩ := findAFrame_of_window hw now
  rw [Skips, ReceiverAudio.insertPacket, h1, h2, moveBegin_beginSeq]
  have hwindow : window (s.store pkt now).receiver =
      (List.range (Sn.dist b (u16 (s.store pkt now).receiver.endSeq) + 1)).map fun k =>
        (b + k) % 65536 := by rw [window, hbegin]
  have hbl : b < 65536 := hbegin ▸ u16_lt _
  have hel := u16_lt (s.store pkt now).receiver.endSeq
  rw [hbegin]
  by_cases ht : s.receiver.delay ≤ now - s.receiver.frameBeginTs
  · rw [decide_eq_true ht] at htime
    obtain ⟨hout, hend⟩ := playLoop_timeout
      (n := Sn.dist b (u16 (s.store pkt now).receiver.endSeq) + 1) (by omega) (s.store pkt now)
      hbl htime
    rw [← hwindow] at hout hend
    refine iff_of_true ⟨hout, ?_⟩ ht
    rw [hend, u16_natCast (Nat.mod_lt _ (by decide))]
    simp only [Sn.dist]
    omega
  · rw [decide_eq_false ht] at htime
    refine iff_of_false (fun hs => ?_) ht
    have hstop := @playLoop_blocked now (s.store pkt now) b
      ((List.range (Sn.dist b (u16 (s.store pkt now).receiver.endSeq))).map fun k =>
        ((b + 1) % 65536 + k) % 65536) hnone htime
    rw [← Sn.map_range_succ _ hbl, ← hwindow] at hstop
    have hout := hs.1
    rw [hstop, List.map_nil] at hout
    -- the packet itself is in the window
    have hin : pkt ∈ (window (s.store pkt now).receiver).filterMap
        (fun j => (s.store pkt now).receiver.recvPacks (slot j)) :=
      List.mem_filterMap.mpr ⟨_, hmem, hpkt⟩
    rw [← hout] at hin
    cases hin

/-- A packet that joins a window whose head has been missing from the time `t₀` on gives the
missing numbers up when they are due, exactly if `delay_` has gone by since the last insertion
as well. -/
theorem loss_skipped_iff {s s' : ReceiverAudio} {pkt₀ pkt : Packet} {t₀ now : ℤ} {b : ℕ}
    {ops : List Op} {out : List Delivery}
    (hr : run step (s.insertPacket pkt₀ t₀).1 ops = some (s', out))
    (hk : RunOk step (fun s _ => Blocked b s) (s.insertPacket pkt₀ t₀).1 ops) (hb : Blocked b s')
    (hj : Joins s'.receiver pkt) (hp : pkt.seq.toNat ≠ b) :
    (s'.receiver.delay ≤ now - t₀ → Skips s' pkt now) ↔
      (s'.receiver.delay ≤ now - t₀ → s'.receiver.delay ≤ now - lastInsert t₀ ops) := by
  have hb₀ : Blocked b (s.insertPacket pkt₀ t₀).1 := by
    rcases ops with _ | ⟨op, ops⟩
    · rw [run_nil, Option.some.injEq, Prod.mk.injEq] at hr
      rw [hr.1]
      exact hb
    · exact hk.1
  have hclock := frameBeginTs_of_blocked (frameBeginTs_insertPacket hb₀.nonempty) hr hk hb
  rw [skips_iff hb hj hp, hclock]

private def voice (seq : UInt16) : Packet := ⟨false, 0, seq, 160 * seq.toUInt32, 1, [0xd5]⟩

/-- A receiver that has handed out number 0. -/
private def started : ReceiverAudio := ((ReceiverAudio.new 1 false).insertPacket (voice 0) 0).1

private theorem started_blocked : Blocked 1 (started.insertPacket (voice 2) 20).1 :=
  ⟨by decide, by decide, rfl, 2, by decide, by decide⟩

private def waiting : ReceiverAudio :=
  ((started.insertPacket (voice 2) 20).1.insertPacket (voice 3) 40).1

private theorem waiting_blocked : Blocked 1 waiting :=
  ⟨by decide, by decide, rfl, 2, by decide, by decide⟩

private theorem waiting_joins : Joins waiting.receiver (voice 4) :=
  ⟨by decide, by decide, by decide⟩

private theorem waiting_run :
    run step (started.insertPacket (voice 2) 20).1 [.insertPacket (voice 3) 40] =
      some (waiting, []) := rfl

theorem loss_skipped_after_pause :
    (waiting.receiver.delay ≤ 1100 - 20 → Skips waiting (voice 4) 1100) ↔
    (waiting.receiver.delay ≤ 1100 - 20 →
      waiting.receiver.delay ≤ 1100 - lastInsert 20 [.insertPacket (voice 3) 40]) :=
  loss_skipped_iff waiting_run ⟨started_blocked, fun _ _ => trivial⟩ waiting_blocked
    waiting_joins (by decide)

/-- Number 1 has been missing for 1080 milliseconds, and still blocks the packets behind it. -/
theorem loss_blocks_for_longer :
    Blocked 1 (started.insertPacket (voice 2) 20).1 ∧
      ∃ s, run step (started.insertPacket (voice 2) 20).1
        [.insertPacket (voice 3) 1010, .insertPacket (voice 4) 1100] = some (s, []) ∧
      Blocked 1 s ∧ s.receiver.delay = 1000 :=
  ⟨started_blocked, _, rfl, ⟨by decide, by decide, rfl, 2, by decide, by decide⟩, rfl⟩

end CxxDeps.Audio
