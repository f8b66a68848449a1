import Mathlib.Data.Fintype.Card
import Mathlib.Data.List.Nodup
import CxxDeps.H264.Receiver
import CxxDeps.Library.Run

/-! The reorder window of the H.264 receiver. A window that reaches fewer than
`PACKET_BUFFER_SIZE` numbers has one slot for each of them, and its slots hold
packets of their own numbers. Extraction and drop keep this. An insertion keeps
it exactly when its packet restarts the window, comes late, makes the full-buffer
test fire, or stays near `begin_seq_` and skips only vacant slots. -/

namespace CxxDeps.H264

open Rtp Library

/-! ### Extraction and drop -/

/-- The slots of `m` numbers from `b` on are emptied. -/
def clear (w : Slots) (b m : ℕ) : Slots :=
  fun i => if ∃ k < m, i = slot ((b + k) % 65536) then none else w i

theorem clear_vacant (w : Slots) {b m k : ℕ} (hk : k < m) :
    clear w b m (slot ((b + k) % 65536)) = none := if_pos ⟨k, hk, rfl⟩

/-- A slot that still holds a packet was not emptied. -/
theorem clear_eq_some {w : Slots} {b m : ℕ} {i : Fin packetBufferSize} {p : Packet}
    (h : clear w b m i = some p) : w i = some p := by
  unfold clear at h
  split at h
  · cases h
  · exact h

theorem clear_zero (w : Slots) (b : ℕ) : clear w b 0 = w := by
  funext i
  exact if_neg fun ⟨k, hk, _⟩ => absurd hk (Nat.not_lt_zero k)

theorem clear_succ (w : Slots) {b : ℕ} (hb : b < 65536) (m : ℕ) :
    clear (w.set (slot b) none) ((b + 1) % 65536) m = clear w b (m + 1) := by
  have hk : ∀ k, ((b + 1) % 65536 + k) % 65536 = (b + (k + 1)) % 65536 := fun k => by omega
  funext i
  simp only [clear, hk, Slots.set]
  by_cases h0 : i = slot b
  · have : ∃ k < m + 1, i = slot ((b + k) % 65536) :=
      ⟨0, by omega, by simpa [Nat.mod_eq_of_lt hb] using h0⟩
    rw [if_pos this]
    split_ifs <;> rfl
  · congr 1
    · simp only [eq_iff_iff]
      constructor
      · rintro ⟨k, hk, h⟩; exact ⟨k + 1, by omega, h⟩
      · rintro ⟨k, hk, h⟩
        rcases k with _ | k
        · exact absurd (by simpa [Nat.mod_eq_of_lt hb] using h) h0
        · exact ⟨k, by omega, h⟩
    · rw [if_neg h0]

/-- The packets end at their first marker. -/
def EndsAtMarker (ps : List Packet) : Prop :=
  ∃ init last, ps = init ++ [last] ∧ last.m = true ∧ ∀ p ∈ init, p.m = false

/-- `begin_seq_` has moved over the first `j + 1` window numbers and their slots
are empty; nothing else of the window changed. -/
structure Consumed (r r' : Receiver) (j : ℕ) : Prop where
  nonempty : Sn.aheadOf 16 0 (u16 r.beginSeq) (u16 r.endSeq) = false
  le : j ≤ Sn.dist (u16 r.beginSeq) (u16 r.endSeq)
  beginSeq : u16 r'.beginSeq = (u16 r.beginSeq + j + 1) % 65536
  endSeq : r'.endSeq = r.endSeq
  reset : r'.reset = r.reset
  recvPacks : r'.recvPacks = clear r.recvPacks (u16 r.beginSeq) (j + 1)

theorem scanFrame_eq_some {w : Slots} {is : List ℕ} {idx : List (Fin packetBufferSize)} {i : ℕ}
    (h : scanFrame w is = some (idx, i)) :
    ∃ j, ∃ hj : j < is.length, ∃ ps : List Packet, EndsAtMarker ps ∧
      idx = (is.take (j + 1)).map slot ∧ i = (is.get ⟨j, hj⟩ + 1) % 65536 ∧
      idx.map w = ps.map some := by
  induction is generalizing idx i with
  | nil => cases h
  | cons x is ih =>
    unfold scanFrame at h
    split at h
    · cases h
    · next pkt hw =>
      split_ifs at h with hm
      · cases h
        exact ⟨0, by simp, [pkt], ⟨[], pkt, rfl, hm, by simp⟩, by simp, rfl, by simp [hw]⟩
      · obtain ⟨⟨idx', i'⟩, hs, he⟩ := Option.map_eq_some_iff.mp h
        cases he
        obtain ⟨j, hj, ps, ⟨init, last, rfl, hl, hi⟩, rfl, rfl, hps⟩ := ih hs
        refine ⟨j + 1, by simpa using hj, pkt :: (init ++ [last]),
          ⟨pkt :: init, last, rfl, hl, ?_⟩, by simp, rfl, by rw [List.map_cons, hps, hw]; rfl⟩
        simp only [List.mem_cons, forall_eq_or_imp]
        exact ⟨by simpa using hm, hi⟩

theorem takeSlots_eq {w : Slots} {idx : List (Fin packetBufferSize)} (h : idx.Nodup) :
    takeSlots w idx = (idx.map w, fun i => if i ∈ idx then none else w i) := by
  induction idx generalizing w with
  | nil => simp [takeSlots]
  | cons x idx ih =>
    obtain ⟨hx, hn⟩ := List.nodup_cons.mp h
    simp only [takeSlots, ih hn, List.map_cons, Prod.mk.injEq, List.cons.injEq, true_and]
    refine ⟨List.map_congr_left fun y hy => Slots.set_of_ne _ _ fun he => hx (he ▸ hy), ?_⟩
    funext i
    by_cases hi : i = x <;> simp [hi, Slots.set]

/-- Numbers of a window that reaches less than the ring have their own slots. -/
theorem slot_inj {b k l : ℕ} (hk : k < 512) (hl : l < 512)
    (h : slot ((b + k) % 65536) = slot ((b + l) % 65536)) : k = l := by
  have := slot_eq_iff.mp h
  omega

theorem findAFrame_eq_some {r r' : Receiver} {now : ℤ} {pkts : List (Option Packet)}
    (hd : Sn.dist (u16 r.beginSeq) (u16 r.endSeq) < 512)
    (h : findAFrame r now = some (r', pkts)) :
    ∃ j ps, Consumed r r' j ∧ EndsAtMarker ps ∧ pkts = ps.map some ∧
      (List.range (j + 1)).map (fun k => r.recvPacks (slot ((u16 r.beginSeq + k) % 65536)))
        = ps.map some := by
  unfold findAFrame at h
  split_ifs at h with hw
  simp only [noWindow, Bool.or_eq_true, not_or, Bool.not_eq_true] at hw
  rw [Sn.numbers_eq (u16_lt _) (u16_lt _) hw.2] at h
  split at h
  · cases h
  · next idx i hs =>
    obtain ⟨j, hj, ps, hps, rfl, rfl, hm⟩ := scanFrame_eq_some hs
    have hj' : j ≤ Sn.dist (u16 r.beginSeq) (u16 r.endSeq) := by
      rw [List.length_map, List.length_range] at hj
      omega
    rw [← List.map_take, List.take_range, Nat.min_eq_left (by omega), List.map_map] at hm h
    have hnd : ((List.range (j + 1)).map (slot ∘ fun k => (u16 r.beginSeq + k) % 65536)).Nodup := by
      refine List.Nodup.map_on (fun k hk l hl heq => slot_inj ?_ ?_ heq) List.nodup_range <;>
        simp only [List.mem_range] at hk hl <;> omega
    rw [takeSlots_eq hnd] at h
    have hm' : (List.range (j + 1)).map
        (fun k => r.recvPacks (slot ((u16 r.beginSeq + k) % 65536))) = ps.map some := by
      simpa only [List.map_map, Function.comp_def] using hm
    cases h
    refine ⟨j, ps, ⟨hw.2, hj', ?_, rfl, rfl, ?_⟩, hps, by rw [List.map_map]; exact hm', hm'⟩
    · dsimp only [List.get_eq_getElem]
      rw [List.getElem_map, List.getElem_range, u16_natCast (Nat.mod_lt _ (by decide))]
      omega
    · funext x
      refine if_congr ?_ rfl rfl
      simp only [List.mem_map, List.mem_range, Function.comp_apply, eq_comm (a := x)]

theorem dropLoop_eq_some {now : ℤ} {n : ℕ} {r r' : Receiver} {b i : ℕ} (hb : b < 65536)
    (h : dropLoop now r b ((List.range n).map fun k => (b + k) % 65536) = some (r', i)) :
    ∃ m ≤ n, (0 < n → 0 < m) ∧ i = (b + m) % 65536 ∧ r'.endSeq = r.endSeq ∧
      r'.reset = r.reset ∧ r'.recvPacks = clear r.recvPacks b m := by
  induction n generalizing r b with
  | zero =>
    cases h
    exact ⟨0, le_rfl, by simp, by omega, rfl, rfl, (clear_zero _ _).symm⟩
  | succ n ih =>
    have hb' : (b + 1) % 65536 < 65536 := Nat.mod_lt _ (by decide)
    rw [Sn.map_range_succ n hb] at h
    unfold dropLoop at h
    split at h
    · next hnone =>
      obtain ⟨m, hm, -, rfl, he, hr, hw⟩ := ih hb' h
      refine ⟨m + 1, by omega, by omega, by omega, he, hr, ?_⟩
      rw [hw, ← clear_succ _ hb, Slots.set_none_of_none hnone]
    · split at h
      · cases h
      · next pkt hpkt _ c _ _ =>
        dsimp only at h
        split_ifs at h
        · cases h
          refine ⟨1, by omega, by simp, rfl, rfl, rfl, ?_⟩
          rw [← clear_succ _ hb, clear_zero]
          rfl
        · obtain ⟨m, hm, -, rfl, he, hr, hw⟩ := ih hb' h
          refine ⟨m + 1, by omega, by omega, by omega, he, hr, ?_⟩
          rw [hw, ← clear_succ _ hb]
          rfl

/-- A drop leaves the window alone or consumes some of its first numbers. -/
theorem checkForDrop_eq_some {r r' : Receiver} {now : ℤ} (h : checkForDrop r now = some r') :
    SameWindow r r' ∨ ∃ j, Consumed r r' j := by
  unfold checkForDrop at h
  split_ifs at h with hw
  · cases h; exact .inl (.refl _)
  · cases h; exact .inl (.refl _)
  · simp only [noWindow, Bool.or_eq_true, not_or, Bool.not_eq_true] at hw
    rw [Sn.numbers_eq (u16_lt _) (u16_lt _) hw.2] at h
    obtain ⟨⟨s, i⟩, hs, he⟩ := Option.map_eq_some_iff.mp h
    cases he
    obtain ⟨m, hm, hpos, rfl, hend, hres, hsl⟩ := dropLoop_eq_some (u16_lt _) hs
    have hm0 := hpos (by omega)
    refine .inr ⟨m - 1, hw.2, by omega, ?_, hend, hres, ?_⟩
    · rw [u16_natCast (Nat.mod_lt _ (by decide))]
      omega
    · rw [show m - 1 + 1 = m by omega]; exact hsl

/-! ### The extraction loop ends -/

theorem takeSlots_snd (w : Slots) (idx : List (Fin packetBufferSize)) :
    (takeSlots w idx).2 = fun i => if i ∈ idx then none else w i := by
  induction idx generalizing w with
  | nil => simp [takeSlots]
  | cons x idx ih =>
    simp only [takeSlots, ih]
    funext i
    by_cases hi : i = x <;> simp [hi, Slots.set]

/-- The ring positions that hold a packet. -/
def occupied (w : Slots) : Finset (Fin packetBufferSize) :=
  Finset.univ.filter fun i => (w i).isSome = true

/-- Each extraction empties a slot. -/
theorem findAFrame_card {r r' : Receiver} {now : ℤ} {pkts : List (Option Packet)}
    (h : findAFrame r now = some (r', pkts)) :
    (occupied r'.recvPacks).card < (occupied r.recvPacks).card := by
  unfold findAFrame at h
  split_ifs at h
  split at h
  · cases h
  · next idx i hs =>
    cases h
    obtain ⟨j, hj, ps, ⟨init, last, rfl, -, -⟩, -, -, hm⟩ := scanFrame_eq_some hs
    simp only [takeSlots_snd]
    have hmem : ∃ x ∈ idx, r.recvPacks x = some last := by
      have : some last ∈ idx.map r.recvPacks := by rw [hm]; simp
      simpa using this
    obtain ⟨x, hx, hlast⟩ := hmem
    refine Finset.card_lt_card ⟨fun y hy => ?_, fun hsub => ?_⟩
    · simp only [occupied, Finset.mem_filter, Finset.mem_univ, true_and] at hy ⊢
      split_ifs at hy
      · cases hy
      · exact hy
    · have := hsub (show x ∈ occupied r.recvPacks by simp [occupied, hlast])
      simp [occupied, hx] at this

theorem drainFrames_complete {now : ℤ} {fuel : ℕ} {r r' : Receiver} {hs : List Handed}
    (hc : (occupied r.recvPacks).card < fuel) (h : drainFrames now fuel r = some (r', hs)) :
    findAFrame r' now = none := by
  induction fuel generalizing r hs with
  | zero => omega
  | succ fuel ih =>
    unfold drainFrames at h
    split at h
    · next hnone => cases h; exact hnone
    · next s pkts hf =>
      obtain ⟨packets, -, h⟩ := Option.bind_eq_some_iff.mp h
      obtain ⟨⟨s', frames⟩, hcomb, h⟩ := Option.bind_eq_some_iff.mp h
      obtain ⟨⟨s'', hs'⟩, hrest, h⟩ := Option.bind_eq_some_iff.mp h
      cases h
      have hcard := findAFrame_card hf
      rw [← (combinFrame_sameWindow hcomb).recvPacks] at hcard
      exact ih (by omega) hrest

/-- The loop of `insert_packet` ends because no complete frame is left. -/
theorem drainFrames_packetBufferSize {now : ℤ} {r r' : Receiver} {hs : List Handed}
    (h : drainFrames now (packetBufferSize + 1) r = some (r', hs)) : findAFrame r' now = none :=
  drainFrames_complete (Nat.lt_succ_of_le ((Finset.card_le_univ _).trans (by simp))) h

/-! ### The invariant -/

/-- The occupied slots of the numbers `b`, ..., `b + d` hold packets of these
numbers. -/
def SlotsHold (w : Slots) (b d : ℕ) : Prop :=
  ∀ k ≤ d, ∀ p, w (slot ((b + k) % 65536)) = some p → p.seq.toNat = (b + k) % 65536

/-- Every occupied slot of a window number holds the packet of that number. -/
def SlotsOk (r : Receiver) : Prop :=
  SlotsHold r.recvPacks (u16 r.beginSeq) (Sn.dist (u16 r.beginSeq) (u16 r.endSeq))

/-- The representation property of the window: it is empty by the test that
`find_a_frame` makes, or short enough for the ring with packets in their slots. -/
def WindowOk (r : Receiver) : Prop :=
  Sn.aheadOf 16 0 (u16 r.beginSeq) (u16 r.endSeq) = true ∨
    (Sn.dist (u16 r.beginSeq) (u16 r.endSeq) < packetBufferSize ∧ SlotsOk r)

/-- The inductive form: an empty window starts right behind `end_seq_`, whose
slot is vacant when the full-buffer test can fire. -/
def WindowInv (r : Receiver) : Prop :=
  (u16 r.beginSeq = (u16 r.endSeq + 1) % 65536 ∧
      (u16 r.endSeq ≠ 65535 → r.recvPacks (slot (u16 r.endSeq)) = none)) ∨
    (Sn.dist (u16 r.beginSeq) (u16 r.endSeq) < packetBufferSize ∧ SlotsOk r)

theorem WindowInv.windowOk {r : Receiver} (h : WindowInv r) : WindowOk r := by
  rcases h with ⟨hb, -⟩ | h
  · have := u16_lt r.endSeq
    exact .inl ((Sn.aheadOf_u16 (u16_lt _) (u16_lt _)).mpr (by omega))
  · exact .inr h

/-- The numbers strictly between `end_seq_` and the packet have slots that are
vacant or hold packets of these numbers. -/
def SkippedOk (r : Receiver) (p : Packet) : Prop :=
  ∀ k < Sn.dist (u16 r.endSeq) p.seq.toNat, 0 < k → ∀ p',
    r.recvPacks (slot ((u16 r.endSeq + k) % 65536)) = some p' →
      p'.seq.toNat = (u16 r.endSeq + k) % 65536

/-- The packets that keep the window right. A packet restarts the window; or it
comes late and does not take the slot of `end_seq_` just when the full-buffer
test moves `begin_seq_` there; or it comes in front of `end_seq_` and makes that
test fire, or lies within the ring and skips no foreign packet. -/
def InsertOk (r : Receiver) (p : Packet) : Prop :=
  r.restarts p = true ∨
    if Sn.aheadOf 16 0 (u16 r.endSeq) p.seq.toNat then
      r.dropsFull p = true → slot p.seq.toNat ≠ slot (u16 r.endSeq)
    else
      r.dropsFull p = true ∨
        (Sn.dist (u16 r.beginSeq) p.seq.toNat < packetBufferSize ∧ SkippedOk r p)

theorem seq_lt (p : Packet) : p.seq.toNat < 65536 := p.seq.toNat_lt

theorem WindowInv.dist_lt {r : Receiver} (h : WindowInv r)
    (hne : Sn.aheadOf 16 0 (u16 r.beginSeq) (u16 r.endSeq) = false) :
    Sn.dist (u16 r.beginSeq) (u16 r.endSeq) < packetBufferSize ∧ SlotsOk r := by
  rcases h with ⟨hb, -⟩ | h
  · have := u16_lt r.endSeq
    rw [(Sn.aheadOf_u16 (u16_lt _) (u16_lt _)).mpr (by omega)] at hne
    cases hne
  · exact h

theorem slotsHold_single {w : Slots} {q : ℕ} (hq : q < 65536)
    (h : ∀ p, w (slot q) = some p → p.seq.toNat = q) : SlotsHold w q (Sn.dist q q) := by
  intro k hk p hp
  obtain rfl : k = 0 := by simp only [Sn.dist] at hk; omega
  rw [Nat.add_zero, Nat.mod_eq_of_lt hq] at hp ⊢
  exact h p hp

/-- A window of one number whose slot is right. -/
theorem windowInv_single {r : Receiver} {q : ℕ} (hq : q < 65536) (hb : u16 r.beginSeq = q)
    (he : u16 r.endSeq = q) (h : ∀ p, r.recvPacks (slot q) = some p → p.seq.toNat = q) :
    WindowInv r := by
  refine .inr ⟨?_, ?_⟩
  · rw [hb, he]; simp only [Sn.dist, packetBufferSize]; omega
  · rw [SlotsOk, hb, he]; exact slotsHold_single hq h

/-- Storing a packet of one of the numbers, when the others are right. -/
theorem slotsHold_set {w : Slots} {b d : ℕ} {p : Packet} (hd : d < 512)
    (hp : ∃ j ≤ d, p.seq.toNat = (b + j) % 65536)
    (h : ∀ k ≤ d, (b + k) % 65536 ≠ p.seq.toNat → ∀ p',
      w (slot ((b + k) % 65536)) = some p' → p'.seq.toNat = (b + k) % 65536) :
    SlotsHold (w.set (slot p.seq.toNat) (some p)) b d := by
  obtain ⟨j, hj, hpj⟩ := hp
  intro k hk p' hp'
  by_cases hs : slot ((b + k) % 65536) = slot p.seq.toNat
  · rw [hs, Slots.set_self] at hp'
    cases hp'
    rw [hpj] at hs ⊢
    rw [slot_inj (by omega) (by omega) hs]
  · rw [Slots.set_of_ne _ _ hs] at hp'
    exact h k hk (fun he => hs (by rw [he])) p' hp'

/-! ### Insertion -/

/-- A packet that restarts the window leaves a window of itself. -/
theorem windowInv_insert_restart {r : Receiver} {p : Packet} (now : ℤ)
    (h : r.restarts p = true) : WindowInv (r.insertPacket p now) := by
  obtain ⟨hb, he, hw⟩ := Receiver.insertPacket_of_restarts now h
  refine windowInv_single (seq_lt p) (by rw [hb, u16_natCast (seq_lt p)])
    (by rw [he, u16_natCast (seq_lt p)]) fun p' hp' => ?_
  rw [hw, Slots.set_self] at hp'
  cases hp'
  rfl

theorem not_aheadOf_of_not_restarts {r : Receiver} {p : Packet} (h : r.restarts p = false) :
    Sn.aheadOf 16 0 (u16 r.beginSeq) p.seq.toNat = false := by
  simp only [Receiver.restarts, Bool.or_eq_false_iff] at h
  exact h.2

/-- With an empty window the full-buffer test fires, except around the wrap. -/
theorem dropsFull_of_empty {r : Receiver} {p : Packet}
    (hempty : u16 r.beginSeq = (u16 r.endSeq + 1) % 65536)
    (hl : Sn.aheadOf 16 0 (u16 r.endSeq) p.seq.toNat = true) :
    r.dropsFull p = true ↔ u16 r.endSeq ≠ 65535 := by
  have hel := u16_lt r.endSeq
  rw [Receiver.dropsFull, Receiver.endAfter, if_pos hl, packetBufferSize,
    Sn.aheadOf_u16_512 (u16_lt _) hel]
  omega

/-- A packet behind `end_seq_` that does not restart the window. -/
theorem windowInv_insert_late {r : Receiver} {p : Packet} (now : ℤ) (hi : WindowInv r)
    (hr : r.restarts p = false) (hl : Sn.aheadOf 16 0 (u16 r.endSeq) p.seq.toNat = true)
    (hslot : r.dropsFull p = true → slot p.seq.toNat ≠ slot (u16 r.endSeq)) :
    WindowInv (r.insertPacket p now) := by
  obtain ⟨hb, he, hw⟩ := Receiver.insertPacket_of_not_restarts now hr
  have hq := seq_lt p
  have hbl := u16_lt r.beginSeq
  have hel := u16_lt r.endSeq
  have hend : r.endAfter p = r.endSeq := if_pos hl
  have hbq := (Sn.aheadOf_u16 hbl hq).not.mp (by simp [not_aheadOf_of_not_restarts hr])
  have heq := (Sn.aheadOf_u16 hel hq).mp hl
  rw [hend] at he hb
  rcases hi with ⟨hempty, hvac⟩ | ⟨hd, hs⟩
  · -- the packet lies about half the number space away
    by_cases hf : r.dropsFull p = true
    · rw [if_pos hf] at hb
      refine windowInv_single hel (by rw [hb]) (by rw [he]) fun p' hp' => ?_
      rw [hw, Slots.set_of_ne _ _ (hslot hf).symm,
        hvac ((dropsFull_of_empty hempty hl).mp hf)] at hp'
      cases hp'
    · rw [if_neg hf] at hb
      refine .inl ⟨by rw [hb, he]; exact hempty, fun hne => ?_⟩
      rw [he] at hne
      exact absurd ((dropsFull_of_empty hempty hl).mpr hne) hf
  · simp only [packetBufferSize] at hd
    have hmem : ∃ j ≤ Sn.dist (u16 r.beginSeq) (u16 r.endSeq),
        p.seq.toNat = (u16 r.beginSeq + j) % 65536 := by
      refine ⟨Sn.dist (u16 r.beginSeq) p.seq.toNat, ?_, ?_⟩ <;>
        simp only [Sn.dist] at hd ⊢ <;> omega
    have hhold := slotsHold_set hd hmem (w := r.recvPacks) fun k hk _ => hs k hk
    rw [← hw] at hhold
    by_cases hf : r.dropsFull p = true
    · rw [if_pos hf] at hb
      refine windowInv_single hel (by rw [hb]) (by rw [he]) fun p' hp' => ?_
      have hlast : (u16 r.beginSeq + Sn.dist (u16 r.beginSeq) (u16 r.endSeq)) % 65536 =
          u16 r.endSeq := by simp only [Sn.dist]; omega
      have := hhold _ le_rfl p'
      rw [hlast] at this
      exact this hp'
    · rw [if_neg hf] at hb
      refine .inr ?_
      rw [SlotsOk, hb, he]
      exact ⟨hd, hhold⟩

/-- A packet in front of `end_seq_` that makes the full-buffer test fire. -/
theorem windowInv_insert_full {r : Receiver} {p : Packet} (now : ℤ)
    (hr : r.restarts p = false) (hl : Sn.aheadOf 16 0 (u16 r.endSeq) p.seq.toNat = false)
    (hf : r.dropsFull p = true) : WindowInv (r.insertPacket p now) := by
  obtain ⟨hb, he, hw⟩ := Receiver.insertPacket_of_not_restarts now hr
  have hend : r.endAfter p = p.seq.toNat := if_neg (by simp [hl])
  rw [hend] at he hb
  rw [if_pos hf] at hb
  refine windowInv_single (seq_lt p) (by rw [hb, u16_natCast (seq_lt p)])
    (by rw [he, u16_natCast (seq_lt p)]) fun p' hp' => ?_
  rw [hw, Slots.set_self] at hp'
  cases hp'
  rfl

/-- The numbers from `begin_seq_` to a packet in front of `end_seq_` are those
of the window and those the packet skips. -/
theorem window_or_skipped {r : Receiver} {p : Packet} (hi : WindowInv r)
    (hl : Sn.aheadOf 16 0 (u16 r.endSeq) p.seq.toNat = false)
    (hd : Sn.dist (u16 r.beginSeq) p.seq.toNat < 512) {k : ℕ}
    (hk : k ≤ Sn.dist (u16 r.beginSeq) p.seq.toNat)
    (hne : (u16 r.beginSeq + k) % 65536 ≠ p.seq.toNat) :
    (k ≤ Sn.dist (u16 r.beginSeq) (u16 r.endSeq) ∧ SlotsOk r) ∨
      ∃ l < Sn.dist (u16 r.endSeq) p.seq.toNat, 0 < l ∧
        (u16 r.beginSeq + k) % 65536 = (u16 r.endSeq + l) % 65536 := by
  have hq := seq_lt p
  have hbl := u16_lt r.beginSeq
  have hel := u16_lt r.endSeq
  have heq := (Sn.aheadOf_u16 hel hq).not.mp (by simp [hl])
  rcases hi with ⟨hempty, -⟩ | ⟨hd', hs⟩
  · refine .inr ⟨k + 1, ?_, by omega, by omega⟩
    simp only [Sn.dist] at hk hd ⊢
    omega
  · by_cases hkd : k ≤ Sn.dist (u16 r.beginSeq) (u16 r.endSeq)
    · exact .inl ⟨hkd, hs⟩
    · refine .inr ⟨k - Sn.dist (u16 r.beginSeq) (u16 r.endSeq), ?_, by omega, ?_⟩ <;>
        simp only [Sn.dist, packetBufferSize] at hk hd hd' hkd ⊢ <;> omega

/-- A packet in front of `end_seq_` that stays near `begin_seq_`. -/
theorem windowInv_insert_near {r : Receiver} {p : Packet} (now : ℤ) (hi : WindowInv r)
    (hr : r.restarts p = false) (hl : Sn.aheadOf 16 0 (u16 r.endSeq) p.seq.toNat = false)
    (hf : r.dropsFull p = false)
    (hd : Sn.dist (u16 r.beginSeq) p.seq.toNat < packetBufferSize) (hs : SkippedOk r p) :
    WindowInv (r.insertPacket p now) := by
  obtain ⟨hb, he, hw⟩ := Receiver.insertPacket_of_not_restarts now hr
  have hend : r.endAfter p = p.seq.toNat := if_neg (by simp [hl])
  rw [hend] at he
  rw [if_neg (by simp [hf])] at hb
  have hq := seq_lt p
  have hbl := u16_lt r.beginSeq
  refine .inr ?_
  rw [SlotsOk, hb, he, u16_natCast hq, hw]
  refine ⟨hd, slotsHold_set hd ⟨_, le_rfl, by simp only [Sn.dist]; omega⟩ fun k hk hne p' hp' => ?_⟩
  rcases window_or_skipped hi hl hd hk hne with ⟨hk', hok⟩ | ⟨l, hlt, hpos, heq⟩
  · exact hok k hk' p' hp'
  · rw [heq] at hp' ⊢
    exact hs l hlt hpos p' hp'

theorem windowInv_insert {r : Receiver} {p : Packet} (now : ℤ) (hi : WindowInv r)
    (h : InsertOk r p) : WindowInv (r.insertPacket p now) := by
  by_cases hr : r.restarts p = true
  · exact windowInv_insert_restart now hr
  rw [Bool.not_eq_true] at hr
  by_cases hl : Sn.aheadOf 16 0 (u16 r.endSeq) p.seq.toNat = true
  · refine windowInv_insert_late now hi hr hl ?_
    simpa only [InsertOk, hr, hl, Bool.false_eq_true, false_or, if_true] using h
  rw [Bool.not_eq_true] at hl
  by_cases hf : r.dropsFull p = true
  · exact windowInv_insert_full now hr hl hf
  rw [Bool.not_eq_true] at hf
  obtain ⟨hd, hs⟩ : _ ∧ _ := by
    simpa only [InsertOk, hr, hl, hf, Bool.false_eq_true, false_or, if_false] using h
  exact windowInv_insert_near now hi hr hl hf hd hs

/-- A packet that leaves the window right met the condition. -/
theorem insertOk_of_windowOk {r : Receiver} {p : Packet} (now : ℤ) (hi : WindowInv r)
    (h : WindowOk (r.insertPacket p now)) : InsertOk r p := by
  by_cases hr : r.restarts p = true
  · exact .inl hr
  rw [Bool.not_eq_true] at hr
  obtain ⟨hb, he, hw⟩ := Receiver.insertPacket_of_not_restarts now hr
  refine .inr ?_
  by_cases hl : Sn.aheadOf 16 0 (u16 r.endSeq) p.seq.toNat = true
  · rw [if_pos hl]
    intro hf hslot
    rw [if_pos hf] at hb
    have hend : r.endAfter p = r.endSeq := if_pos hl
    rw [hend] at he hb
    -- the window is the number `end_seq_`, and its slot holds the late packet
    have hne : p.seq.toNat ≠ u16 r.endSeq := fun h' => by
      rw [h', Sn.aheadOf_irrefl] at hl; cases hl
    rw [WindowOk, SlotsOk, hb, he, Sn.aheadOf_irrefl] at h
    obtain ⟨-, hs⟩ : _ ∧ _ := by simpa only [Bool.false_eq_true, false_or] using h
    have h0 := hs 0 (Nat.zero_le _) p
    rw [Nat.add_zero, Nat.mod_eq_of_lt (u16_lt _), hw, ← hslot, Slots.set_self] at h0
    exact hne (h0 rfl)
  rw [if_neg hl]
  rw [Bool.not_eq_true] at hl
  by_cases hf : r.dropsFull p = true
  · exact .inl hf
  refine .inr ?_
  have hend : r.endAfter p = p.seq.toNat := if_neg (by simp [hl])
  have hq := seq_lt p
  have hbl := u16_lt r.beginSeq
  have hel := u16_lt r.endSeq
  rw [hend] at he
  rw [if_neg hf] at hb
  rw [WindowOk, SlotsOk, hb, he, u16_natCast hq, not_aheadOf_of_not_restarts hr, hw] at h
  obtain ⟨hd, hs⟩ : _ ∧ _ := by simpa only [Bool.false_eq_true, false_or] using h
  refine ⟨hd, fun l hlt hpos p' hp' => ?_⟩
  have heq := (Sn.aheadOf_u16 hel hq).not.mp (by simp [hl])
  simp only [packetBufferSize] at hd
  -- the skipped number counted from `begin_seq_`
  obtain ⟨k, hk, hkl⟩ : ∃ k < Sn.dist (u16 r.beginSeq) p.seq.toNat,
      (u16 r.endSeq + l) % 65536 = (u16 r.beginSeq + k) % 65536 := by
    rcases hi with ⟨hempty, -⟩ | ⟨hd', -⟩
    · exact ⟨l - 1, by simp only [Sn.dist] at hlt hd ⊢; omega, by omega⟩
    · refine ⟨Sn.dist (u16 r.beginSeq) (u16 r.endSeq) + l, ?_, ?_⟩ <;>
        simp only [Sn.dist, packetBufferSize] at hlt hd hd' ⊢ <;> omega
  have hqd : p.seq.toNat = (u16 r.beginSeq + Sn.dist (u16 r.beginSeq) p.seq.toNat) % 65536 := by
    simp only [Sn.dist]; omega
  have hne : slot ((u16 r.beginSeq + k) % 65536) ≠ slot p.seq.toNat := by
    intro hslot
    rw [hqd] at hslot
    have := slot_inj (by omega) (by omega) hslot
    omega
  rw [hkl] at hp' ⊢
  exact hs k hk.le p' (by rw [Slots.set_of_ne _ _ hne]; exact hp')

/-! ### Extraction and drop keep the invariant -/

theorem WindowInv.consumed {r r' : Receiver} {j : ℕ} (hi : WindowInv r) (h : Consumed r r' j) :
    WindowInv r' := by
  obtain ⟨hd, hs⟩ := hi.dist_lt h.nonempty
  have hj := h.le
  have hbl := u16_lt r.beginSeq
  have hel := u16_lt r.endSeq
  simp only [packetBufferSize] at hd
  by_cases hall : j = Sn.dist (u16 r.beginSeq) (u16 r.endSeq)
  · -- the whole window is consumed
    refine .inl ⟨?_, fun _ => ?_⟩
    · rw [h.beginSeq, h.endSeq]
      simp only [Sn.dist] at hall
      omega
    · have := clear_vacant r.recvPacks (b := u16 r.beginSeq) (Nat.lt_succ_self j)
      rwa [← h.recvPacks, show (u16 r.beginSeq + j) % 65536 = u16 r'.endSeq by
        rw [h.endSeq]; simp only [Sn.dist] at hall; omega] at this
  · have hnear : Sn.dist (u16 r'.beginSeq) (u16 r'.endSeq) + (j + 1) =
        Sn.dist (u16 r.beginSeq) (u16 r.endSeq) := by
      rw [h.beginSeq, h.endSeq]
      simp only [Sn.dist] at hall hd hj ⊢
      omega
    refine .inr ⟨by simp only [packetBufferSize]; omega, fun k hk p hp => ?_⟩
    have hshift : (u16 r'.beginSeq + k) % 65536 = (u16 r.beginSeq + (j + 1 + k)) % 65536 := by
      rw [h.beginSeq]; omega
    rw [hshift] at hp ⊢
    rw [h.recvPacks] at hp
    exact hs (j + 1 + k) (by omega) p (clear_eq_some hp)

theorem WindowInv.sameWindow {r r' : Receiver} (hi : WindowInv r) (h : SameWindow r r') :
    WindowInv r' := by
  rw [WindowInv, SlotsOk, h.beginSeq, h.endSeq, h.recvPacks]
  exact hi

/-- A complete frame: packets of consecutive numbers up to the first marker. -/
def IsFrame (f : List (Option Packet)) : Prop :=
  ∃ ps : List Packet, f = ps.map some ∧ EndsAtMarker ps ∧ ps.IsChain fun p q => q.seq = p.seq + 1

theorem isChain_of_seq {ps : List Packet} {b : ℕ}
    (h : ∀ k (hk : k < ps.length), (ps.get ⟨k, hk⟩).seq.toNat = (b + k) % 65536) :
    ps.IsChain fun p q => q.seq = p.seq + 1 := by
  refine List.isChain_iff_getElem.mpr fun k hk => UInt16.toNat_inj.mp ?_
  have h0 := h k (by omega)
  have h1 := h (k + 1) hk
  simp only [List.get_eq_getElem] at h0 h1
  rw [h1, UInt16.toNat_add, h0, show (1 : UInt16).toNat = 1 from rfl]
  omega

theorem WindowInv.findAFrame {r r' : Receiver} {now : ℤ} {pkts : List (Option Packet)}
    (hi : WindowInv r) (h : findAFrame r now = some (r', pkts)) : WindowInv r' ∧ IsFrame pkts := by
  have hne : noWindow r = false := by
    unfold H264.findAFrame at h
    split_ifs at h with hw
    simpa using hw
  simp only [noWindow, Bool.or_eq_false_iff] at hne
  obtain ⟨hd, hs⟩ := hi.dist_lt hne.2
  obtain ⟨j, ps, hc, hm, rfl, hps⟩ := findAFrame_eq_some hd h
  refine ⟨hi.consumed hc, ps, rfl, hm, isChain_of_seq (b := u16 r.beginSeq) fun k hk => ?_⟩
  have hlen : j + 1 = ps.length := by simpa using congrArg List.length hps
  have hk' := congrArg (fun l => l[k]?) hps
  simp only [List.getElem?_map, List.getElem?_range (show k < j + 1 by omega),
    List.getElem?_eq_getElem hk, Option.map_some, Option.some.injEq] at hk'
  exact hs k (by have := hc.le; omega) _ hk'

theorem WindowInv.checkForDrop {r r' : Receiver} {now : ℤ} (hi : WindowInv r)
    (h : checkForDrop r now = some r') : WindowInv r' := by
  rcases checkForDrop_eq_some h with hsame | ⟨j, hc⟩
  · exact hi.sameWindow hsame
  · exact hi.consumed hc

/-! ### Runs -/

/-- The calls that touch the window. -/
inductive Op where
  | insertPacket (pkt : Packet) (now : ℤ)
  | findAFrame (now : ℤ)
  | checkForDrop (now : ℤ)
  | increasePli
  | increaseFir
  | setMaxNackCount (num : ℤ)

/-- One call, with the frame it hands out. -/
def step (r : Receiver) : Op → Option (Receiver × List (List (Option Packet)))
  | .insertPacket pkt now => some (r.insertPacket pkt now, [])
  | .findAFrame now =>
    match findAFrame r now with
    | none => some (r, [])
    | some (r, pkts) => some (r, [pkts])
  | .checkForDrop now => (checkForDrop r now).map (·, [])
  | .increasePli => some (r.increasePli, [])
  | .increaseFir => some (r.increaseFir, [])
  | .setMaxNackCount num => some ({ r with nackMaxCount := num }, [])

/-- The condition on a call: an inserted packet keeps the window right. -/
def OpOk (r : Receiver) : Op → Prop
  | .insertPacket pkt _ => InsertOk r pkt
  | _ => True

theorem windowInv_step {r r' : Receiver} {a : Op} {fs : List (List (Option Packet))}
    (hi : WindowInv r) (ha : OpOk r a) (h : step r a = some (r', fs)) :
    WindowInv r' ∧ ∀ f ∈ fs, IsFrame f := by
  cases a with
  | insertPacket pkt now => cases h; exact ⟨windowInv_insert now hi ha, by simp⟩
  | findAFrame now =>
    simp only [step] at h
    split at h
    · cases h; exact ⟨hi, by simp⟩
    · next s pkts hf =>
      cases h
      obtain ⟨hi', hframe⟩ := hi.findAFrame hf
      exact ⟨hi', by simpa using hframe⟩
  | checkForDrop now =>
    obtain ⟨s, hs, he⟩ := Option.map_eq_some_iff.mp h
    cases he
    exact ⟨hi.checkForDrop hs, by simp⟩
  | increasePli => cases h; exact ⟨hi, by simp⟩
  | increaseFir => cases h; exact ⟨hi, by simp⟩
  | setMaxNackCount num => cases h; exact ⟨hi, by simp⟩

theorem windowInv_newVideo (ssrc : UInt32) : WindowInv (Receiver.newVideo ssrc) :=
  windowInv_single (q := 65535) (by decide) rfl rfl fun _ h => nomatch h

/-- Along a run of calls the window is right after every call and every frame
handed out is complete, if and only if each inserted packet meets the condition
in the state it finds. -/
theorem window_ok_iff (ssrc : UInt32) (ops : List Op) :
    RunOk step OpOk (Receiver.newVideo ssrc) ops ↔
      ∀ pre, pre <+: ops → ∀ r fs, run step (Receiver.newVideo ssrc) pre = some (r, fs) →
        WindowOk r ∧ ∀ f ∈ fs, IsFrame f := by
  constructor
  · rintro h pre ⟨post, rfl⟩ r fs hr
    have := h.append_left.invariant (fun r fs => WindowInv r ∧ ∀ f ∈ fs, IsFrame f)
      (fun s out a s' o hi ha hs => by
        obtain ⟨hi', hf⟩ := windowInv_step hi.1 ha hs
        refine ⟨hi', fun f hm => ?_⟩
        rcases List.mem_append.mp hm with hm | hm
        · exact hi.2 f hm
        · exact hf f hm)
      [] ⟨windowInv_newVideo ssrc, by simp⟩ hr
    exact ⟨this.1.windowOk, by simpa using this.2⟩
  · intro h
    refine RunOk.of_good WindowInv WindowOk ?_
      (fun s a s' o _ hi ha hs => (windowInv_step hi ha hs).1) (fun _ _ => True.intro)
      (windowInv_newVideo ssrc) fun pre hpre r fs hr => (h pre hpre r fs hr).1
    intro s a _ hi hgood
    cases a with
    | insertPacket pkt now => exact insertOk_of_windowOk now hi (hgood _ _ rfl)
    | _ => trivial

private def videoPacket (seq : UInt16) (m : Bool) : Packet :=
  ⟨m, 96, seq, 3000, 1, [0x65, 0x88]⟩

/-- A jump from 0 to 600 leaves a window that is longer than the ring. -/
theorem window_broken_by_jump :
    ¬ ∀ (ssrc : UInt32) (ops : List Op) (r : Receiver) (fs : List (List (Option Packet))),
      run step (Receiver.newVideo ssrc) ops = some (r, fs) →
        WindowOk r ∧ ∀ f ∈ fs, IsFrame f := by
  intro h
  have hw := (h 1 [.insertPacket (videoPacket 0 false) 0, .insertPacket (videoPacket 600 true) 5]
    _ _ rfl).1
  rcases hw with hempty | ⟨hd, -⟩
  · exact absurd hempty (by decide)
  · exact absurd hd (by decide)

end CxxDeps.H264
