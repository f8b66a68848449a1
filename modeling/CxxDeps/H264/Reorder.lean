import Mathlib.Data.List.Chain
import CxxDeps.H264.Window

/-! The order of the packets that the H.264 receiver hands out. Packets are
named by their position in the stream of one sender, whose sequence numbers are
the positions modulo `2 ^ 16`. While no packet comes behind `begin_seq_` and the
16-bit comparisons agree with the positions, the slots of the window hold the
packets of their own positions, and what is handed out has strictly increasing
positions. -/

namespace CxxDeps.H264

open Rtp Library

variable {stream : ℕ → Packet}

/-- The stream of one sender, over any number of wraps. -/
def IsStream (stream : ℕ → Packet) : Prop := ∀ n, (stream n).seq.toNat = n % 65536

theorem slot_mod (n : ℕ) : slot (n % 65536) = slot n := slot_eq_iff.mpr (by omega)

/-- The window covers the positions from `b` to `e`, and its slots hold packets
that arrived at these positions. -/
structure PosInv (stream : ℕ → Packet) (arrived : List ℕ) (r : Receiver) (b e : ℕ) : Prop where
  beginSeq : u16 r.beginSeq = b % 65536
  endSeq : u16 r.endSeq = e % 65536
  reset : r.reset = false
  le : b ≤ e + 1
  lt : e < b + 512
  slots : ∀ n, b ≤ n → n ≤ e → ∀ p, r.recvPacks (slot n) = some p → p = stream n ∧ n ∈ arrived

/-- A packet in front of `end_seq_` makes the full-buffer test fire, or lies
within the ring and skips only numbers whose slots are vacant. -/
def NearOk (r : Receiver) (p : Packet) : Prop :=
  Sn.aheadOf 16 0 (u16 r.endSeq) p.seq.toNat = true ∨ r.dropsFull p = true ∨
    (Sn.dist (u16 r.beginSeq) p.seq.toNat < packetBufferSize ∧
      ∀ k < Sn.dist (u16 r.endSeq) p.seq.toNat, 0 < k →
        r.recvPacks (slot ((u16 r.endSeq + k) % 65536)) = none)

instance (r : Receiver) (p : Packet) : Decidable (NearOk r p) := by
  unfold NearOk; infer_instance

namespace PosInv

variable {arrived : List ℕ} {r r' : Receiver} {b e n : ℕ}

theorem sameWindow (h : PosInv stream arrived r b e) (hw : SameWindow r r') :
    PosInv stream arrived r' b e where
  beginSeq := by rw [hw.beginSeq, h.beginSeq]
  endSeq := by rw [hw.endSeq, h.endSeq]
  reset := by rw [hw.reset, h.reset]
  le := h.le
  lt := h.lt
  slots := by rw [hw.recvPacks]; exact h.slots

theorem dist_eq (h : PosInv stream arrived r b e) (hbe : b ≤ e) :
    Sn.dist (u16 r.beginSeq) (u16 r.endSeq) = e - b := by
  have := h.lt
  rw [h.beginSeq, h.endSeq]
  simp only [Sn.dist]
  omega

theorem le_of_nonempty (h : PosInv stream arrived r b e)
    (hne : Sn.aheadOf 16 0 (u16 r.beginSeq) (u16 r.endSeq) = false) : b ≤ e := by
  by_contra hlt
  have hbe : b = e + 1 := by have := h.le; omega
  rw [h.beginSeq, h.endSeq, (Sn.aheadOf_u16 (by omega) (by omega)).mpr (by omega)] at hne
  cases hne

/-! ### Insertion -/

/-- The first packet of a receiver. -/
theorem insert_first (hs : IsStream stream) (now : ℤ) (hr : r.restarts (stream n) = true) :
    PosInv stream [n] (r.insertPacket (stream n) now) n n := by
  obtain ⟨hb, he, hw⟩ := Receiver.insertPacket_of_restarts now hr
  have hq := seq_lt (stream n)
  refine ⟨?_, ?_, Receiver.insertPacket_reset _ _ _, by omega, by omega, ?_⟩
  · rw [hb, u16_natCast hq, hs]
  · rw [he, u16_natCast hq, hs]
  · intro m hm hm' p hp
    obtain rfl : m = n := by omega
    rw [hw, hs, slot_mod, Slots.set_self] at hp
    cases hp
    exact ⟨rfl, by simp⟩

/-- The slots of the positions from `b'` to `e'` after the packet at `n` is
stored, when the other positions had the right packets or none. -/
private theorem slots_set (hs : IsStream stream) (b' e' : ℕ) (hn : n < b' + 512) (hn' : b' ≤ n)
    (he : e' < b' + 512)
    (h : ∀ m, b' ≤ m → m ≤ e' → m ≠ n → ∀ p, r.recvPacks (slot m) = some p →
      p = stream m ∧ m ∈ arrived) :
    ∀ m, b' ≤ m → m ≤ e' → ∀ p,
      (r.recvPacks.set (slot (stream n).seq.toNat) (some (stream n))) (slot m) = some p →
        p = stream m ∧ m ∈ n :: arrived := by
  intro m hb he' p hp
  rw [hs, slot_mod] at hp
  by_cases hmn : m = n
  · subst hmn
    rw [Slots.set_self] at hp
    cases hp
    exact ⟨rfl, by simp⟩
  · have hne : slot m ≠ slot n := by rw [Ne, slot_eq_iff]; omega
    rw [Slots.set_of_ne _ _ hne] at hp
    obtain ⟨h1, h2⟩ := h m hb he' hmn p hp
    exact ⟨h1, List.mem_cons_of_mem _ h2⟩

/-- A packet that comes late lies in the window: behind it, it would restart it. -/
theorem insert_late (hs : IsStream stream) (h : PosInv stream arrived r b e) (hne : n < e)
    (hnear : e < n + 32767) (hr : r.restarts (stream n) = false) (now : ℤ) :
    ∃ b', b ≤ b' ∧ PosInv stream (n :: arrived) (r.insertPacket (stream n) now) b' e := by
  obtain ⟨hb, he, hw⟩ := Receiver.insertPacket_of_not_restarts now hr
  have hle := h.le
  have hlt := h.lt
  have hbn : b ≤ n := by
    have hbq := (Sn.aheadOf_u16 (u16_lt r.beginSeq) (seq_lt (stream n))).not.mp
      (by simp [not_aheadOf_of_not_restarts hr])
    rw [hs, h.beginSeq] at hbq
    omega
  have hl : Sn.aheadOf 16 0 (u16 r.endSeq) (stream n).seq.toNat = true := by
    rw [hs, h.endSeq, Sn.aheadOf_u16 (by omega) (by omega)]; omega
  have hend : r.endAfter (stream n) = r.endSeq := if_pos hl
  rw [hend] at he hb
  have hslots := slots_set hs b e (by omega) hbn hlt
    fun m hm hm' _ => h.slots m hm hm'
  rw [← hw] at hslots
  by_cases hf : r.dropsFull (stream n) = true
  · rw [if_pos hf] at hb
    exact ⟨e, by omega, by rw [hb, h.endSeq], by rw [he, h.endSeq],
      Receiver.insertPacket_reset _ _ _, by omega, by omega,
      fun m hm hm' => hslots m (by omega) hm'⟩
  · rw [if_neg hf] at hb
    exact ⟨b, le_rfl, by rw [hb, h.beginSeq], by rw [he, h.endSeq],
      Receiver.insertPacket_reset _ _ _, hle, hlt, hslots⟩

/-- A packet at or in front of the newest position. -/
theorem insert_front (hs : IsStream stream) (h : PosInv stream arrived r b e) (hne : e ≤ n)
    (hnear : n < e + 32768) (hr : r.restarts (stream n) = false) (hc : NearOk r (stream n))
    (now : ℤ) :
    ∃ b', b ≤ b' ∧ PosInv stream (n :: arrived) (r.insertPacket (stream n) now) b' n := by
  obtain ⟨hb, he, hw⟩ := Receiver.insertPacket_of_not_restarts now hr
  have hle := h.le
  have hlt := h.lt
  have hq := seq_lt (stream n)
  have hbn : b ≤ n := by
    have hbq := (Sn.aheadOf_u16 (u16_lt r.beginSeq) (seq_lt (stream n))).not.mp
      (by simp [not_aheadOf_of_not_restarts hr])
    rw [hs, h.beginSeq] at hbq
    omega
  have hl : Sn.aheadOf 16 0 (u16 r.endSeq) (stream n).seq.toNat = false := by
    rw [← Bool.not_eq_true, hs, h.endSeq, Sn.aheadOf_u16 (by omega) (by omega)]; omega
  have hend : r.endAfter (stream n) = (stream n).seq.toNat := if_neg (by simp [hl])
  have hpos : u16 ((stream n).seq.toNat : ℤ) = n % 65536 := by rw [u16_natCast hq, hs]
  rw [hend] at he hb
  by_cases hf : r.dropsFull (stream n) = true
  · rw [if_pos hf] at hb
    have hslots := slots_set (r := r) hs n n (by omega) le_rfl (by omega)
      fun m hm hm' hmn _ _ => (absurd (Nat.le_antisymm hm' hm) hmn : _ ∧ m ∈ arrived)
    rw [← hw] at hslots
    exact ⟨n, hbn, by rw [hb, hpos], by rw [he, hpos], Receiver.insertPacket_reset _ _ _,
      by omega, by omega, hslots⟩
  · rw [if_neg hf] at hb
    obtain ⟨hd, hskip⟩ : _ ∧ _ := by
      simpa only [NearOk, hl, hf, Bool.false_eq_true, false_or] using hc
    have hnb : n < b + 512 := by
      rw [h.beginSeq, hs] at hd
      simp only [Sn.dist, packetBufferSize] at hd
      omega
    have hslots := slots_set hs b n hnb hbn hnb fun m hm hm' hmn p hp => by
      by_cases hme : m ≤ e
      · exact h.slots m hm hme p hp
      · -- a skipped position
        have hvac := hskip (m - e)
          (by rw [h.endSeq, hs]; simp only [Sn.dist]; omega) (by omega)
        rw [h.endSeq, show (e % 65536 + (m - e)) % 65536 = m % 65536 by omega, slot_mod, hp] at hvac
        cases hvac
    rw [← hw] at hslots
    exact ⟨b, le_rfl, by rw [hb, h.beginSeq], by rw [he, hpos], Receiver.insertPacket_reset _ _ _,
      by omega, hnb, hslots⟩

/-! ### Extraction and drop -/

theorem consumed (h : PosInv stream arrived r b e) {j : ℕ} (hc : Consumed r r' j) :
    b + j ≤ e ∧ PosInv stream arrived r' (b + j + 1) e := by
  have hbe := h.le_of_nonempty hc.nonempty
  have hj := hc.le
  rw [h.dist_eq hbe] at hj
  have hlt := h.lt
  refine ⟨by omega, ?_, by rw [hc.endSeq, h.endSeq], by rw [hc.reset, h.reset], by omega, by omega,
    fun m hm hm' p hp => ?_⟩
  · rw [hc.beginSeq, h.beginSeq]; omega
  · rw [hc.recvPacks] at hp
    exact h.slots m (by omega) hm' p (clear_eq_some hp)

theorem checkForDrop (h : PosInv stream arrived r b e) {now : ℤ}
    (hc : checkForDrop r now = some r') : ∃ b', b ≤ b' ∧ PosInv stream arrived r' b' e := by
  rcases checkForDrop_eq_some hc with hsame | ⟨j, hcons⟩
  · exact ⟨b, le_rfl, h.sameWindow hsame⟩
  · exact ⟨b + j + 1, by omega, (h.consumed hcons).2⟩

/-- A frame is the packets of the positions it moves `begin_seq_` over. -/
theorem findAFrame (h : PosInv stream arrived r b e) {now : ℤ} {pkts : List (Option Packet)}
    (hf : findAFrame r now = some (r', pkts)) :
    ∃ j, b + j ≤ e ∧ PosInv stream arrived r' (b + j + 1) e ∧
      pkts = ((List.range' b (j + 1)).map stream).map some ∧
      ∀ n ∈ List.range' b (j + 1), n ∈ arrived := by
  have hw : noWindow r = false := by
    unfold H264.findAFrame at hf
    split_ifs at hf with hw
    simpa using hw
  simp only [noWindow, Bool.or_eq_false_iff] at hw
  have hbe := h.le_of_nonempty hw.2
  have hlt := h.lt
  obtain ⟨j, ps, hc, -, rfl, hps⟩ :=
    findAFrame_eq_some (by rw [h.dist_eq hbe]; omega) hf
  obtain ⟨hj, hinv⟩ := h.consumed hc
  have hlen : ps.length = j + 1 := by simpa using (congrArg List.length hps).symm
  have hget : ∀ k (hk : k < ps.length), ps[k] = stream (b + k) ∧ b + k ∈ arrived := by
    intro k hk
    have hk' := congrArg (fun l => l[k]?) hps
    simp only [List.getElem?_map, List.getElem?_range (show k < j + 1 by omega),
      List.getElem?_eq_getElem hk, Option.map_some, Option.some.injEq] at hk'
    rw [h.beginSeq, show (b % 65536 + k) % 65536 = (b + k) % 65536 by omega, slot_mod] at hk'
    exact h.slots (b + k) (by omega) (by omega) _ hk'
  refine ⟨j, hj, hinv, congrArg _ (List.ext_getElem (by simpa using hlen) fun k hk _ => ?_), ?_⟩
  · simp [(hget k hk).1]
  · intro n hn
    obtain ⟨hn1, hn2⟩ := List.mem_range'_1.mp hn
    have := (hget (n - b) (by omega)).2
    rwa [show b + (n - b) = n by omega] at this

/-- The packets that the loop of `insert_packet` hands out have successive
positions. -/
theorem drainFrames (now : ℤ) (fuel : ℕ) (h : PosInv stream arrived r b e) {hs : List Handed}
    (hd : drainFrames now fuel r = some (r', hs)) :
    ∃ l, PosInv stream arrived r' (b + l) e ∧
      hs.flatMap Handed.packets = (List.range' b l).map stream ∧
      ∀ n ∈ List.range' b l, n ∈ arrived := by
  induction fuel generalizing r b hs with
  | zero => cases hd; exact ⟨0, h, rfl, by simp⟩
  | succ fuel ih =>
    unfold H264.drainFrames at hd
    split at hd
    · cases hd; exact ⟨0, h, rfl, by simp⟩
    · next s pkts hf =>
      obtain ⟨j, -, hinv, rfl, harr⟩ := h.findAFrame hf
      simp only [deref_map_some, Option.bind_eq_bind, Option.bind_some, Option.pure_def] at hd
      obtain ⟨⟨s', frames⟩, hcomb, hd⟩ := Option.bind_eq_some_iff.mp hd
      obtain ⟨⟨s'', hs'⟩, hrest, hd⟩ := Option.bind_eq_some_iff.mp hd
      cases hd
      obtain ⟨l, hinv', hout, harr'⟩ := ih (hinv.sameWindow (combinFrame_sameWindow hcomb)) hrest
      have hsplit : List.range' b (j + 1 + l) =
          List.range' b (j + 1) ++ List.range' (b + j + 1) l := by
        rw [← List.range'_append, Nat.one_mul, Nat.add_assoc]
      refine ⟨j + 1 + l, by rwa [← Nat.add_assoc, ← Nat.add_assoc], ?_, ?_⟩
      · rw [hsplit, List.map_append, ← hout]; rfl
      · rw [hsplit]
        intro n hn
        rcases List.mem_append.mp hn with hn | hn
        · exact harr n hn
        · exact harr' n hn

end PosInv

/-! ### Runs -/

/-- The newest of the positions that have arrived. -/
def newest (arrived : List ℕ) : ℕ := arrived.foldr max 0

theorem newest_cons (n : ℕ) (l : List ℕ) : newest (n :: l) = max n (newest l) := rfl

/-- A receiver of one sender's stream, with the positions that have arrived (the
last one first) and the position of the last packet handed out. -/
structure Session where
  receiver : Receiver
  arrived : List ℕ := []
  handed : Option ℕ := none


/-- One call of `insert_packet` with the packet of a position, and the packets
that it hands out. -/
def arrive (stream : ℕ → Packet) (s : Session) (a : ℕ × ℤ) : Option (Session × List Packet) := do
  let (r, hs) ← insertPacket s.receiver (stream a.1) a.2
  let packets := hs.flatMap Handed.packets
  let arrived := a.1 :: s.arrived
  match packets.getLast? with
  | none => return (⟨r, arrived, s.handed⟩, packets)
  | some p =>
    let last := newest arrived - Sn.dist p.seq.toNat (newest arrived % 65536)
    return (⟨r, arrived, some last⟩, packets)

/-- The condition on an arrival after the first: its position is near the newest
one and the last one handed out, so that 16-bit comparisons tell their order; it
is not behind `begin_seq_`; and it stays within the ring. -/
def ArrivalOk (stream : ℕ → Packet) (s : Session) (a : ℕ × ℤ) : Prop :=
  s.arrived = [] ∨
    (newest s.arrived < a.1 + 32767 ∧ a.1 < newest s.arrived + 32768 ∧
      (∀ h ∈ s.handed, a.1 < h + 32768) ∧
      s.receiver.restarts (stream a.1) = false ∧ NearOk s.receiver (stream a.1))

instance (stream : ℕ → Packet) (s : Session) (a : ℕ × ℤ) : Decidable (ArrivalOk stream s a) := by
  unfold ArrivalOk; infer_instance

/-- The packets handed out are packets of the stream that arrived, at strictly
increasing positions, and the sequence number of each is ahead of the one before
it in the order of RFC 1982. -/
def HandedInOrder (stream : ℕ → Packet) (as : List (ℕ × ℤ)) (out : List Packet) : Prop :=
  (∃ ns : List ℕ, out = ns.map stream ∧ ns.Pairwise (· < ·) ∧ ∀ n ∈ ns, n ∈ as.map Prod.fst) ∧
    out.IsChain fun p q => Sn.aheadOf 16 0 q.seq.toNat p.seq.toNat = true

/-- The invariant of a session and the packets it has handed out. -/
def SessionInv (stream : ℕ → Packet) (s : Session) (out : List Packet) : Prop :=
  (s.arrived = [] ∧ s.receiver.reset = true ∧ s.handed = none ∧ out = []) ∨
    ∃ b, ∃ ns : List ℕ, PosInv stream s.arrived s.receiver b (newest s.arrived) ∧ s.arrived ≠ [] ∧
      out = ns.map stream ∧ ns.IsChain (fun m n => m < n ∧ n < m + 32768) ∧
      (∀ n ∈ ns, n < b ∧ n ∈ s.arrived) ∧ s.handed = ns.getLast? ∧
      ∀ h ∈ s.handed, newest s.arrived < h + 32768

theorem insertPacket_eq_some {r r' : Receiver} {pkt : Packet} {now : ℤ} {hs : List Handed}
    (h : insertPacket r pkt now = some (r', hs)) :
    ∃ s, drainFrames now (packetBufferSize + 1) (r.insertPacket pkt now) = some (s, hs) ∧
      checkForDrop s now = some r' := by
  obtain ⟨⟨s, hs'⟩, hd, h⟩ := Option.bind_eq_some_iff.mp h
  obtain ⟨s', hc, h⟩ := Option.bind_eq_some_iff.mp h
  cases h
  exact ⟨s, hd, hc⟩

/-- One step of a run keeps the invariant. -/
theorem sessionInv_arrive (hs : IsStream stream) {s s' : Session} {a : ℕ × ℤ}
    {out packets : List Packet} (hi : SessionInv stream s out) (ha : ArrivalOk stream s a)
    (h : arrive stream s a = some (s', packets)) : SessionInv stream s' (out ++ packets) := by
  obtain ⟨n, now⟩ := a
  obtain ⟨⟨r, hd⟩, hins, hret⟩ := Option.bind_eq_some_iff.mp h
  clear h
  obtain ⟨r₁, hdrain, hdrop⟩ := insertPacket_eq_some hins
  -- the window right after the insertion, and the positions handed out before
  obtain ⟨b₁, ns, hinv, hout, hchain, hmem, hlast, hnear⟩ : ∃ b₁, ∃ ns : List ℕ,
      PosInv stream (n :: s.arrived) (s.receiver.insertPacket (stream n) now) b₁
        (max n (newest s.arrived)) ∧ out = ns.map stream ∧
      ns.IsChain (fun m n => m < n ∧ n < m + 32768) ∧
      (∀ m ∈ ns, m < b₁ ∧ m ∈ n :: s.arrived) ∧ s.handed = ns.getLast? ∧
      ∀ h ∈ s.handed, max n (newest s.arrived) < h + 32768 := by
    rcases hi with ⟨harr, hreset, hnone, rfl⟩ |
      ⟨b, ns, hinv, harr, hout, hchain, hmem, hlast, hnear⟩
    · refine ⟨n, [], ?_, rfl, .nil, by simp, hnone, by simp [hnone]⟩
      simpa [newest, harr] using
        PosInv.insert_first hs now (r := s.receiver) (by simp [Receiver.restarts, hreset])
    · obtain ⟨h1, h2, h3, h4, h5⟩ := ha.resolve_left harr
      obtain ⟨b₁, hb, hinv'⟩ : ∃ b₁, b ≤ b₁ ∧ PosInv stream (n :: s.arrived)
          (s.receiver.insertPacket (stream n) now) b₁ (max n (newest s.arrived)) := by
        by_cases hlt : n < newest s.arrived
        · rw [max_eq_right hlt.le]
          exact hinv.insert_late hs hlt h1 h4 now
        · rw [max_eq_left (by omega)]
          exact hinv.insert_front hs (by omega) h2 h4 h5 now
      exact ⟨b₁, ns, hinv', hout, hchain,
        fun m hm => ⟨by have := (hmem m hm).1; omega, List.mem_cons_of_mem _ (hmem m hm).2⟩, hlast,
        fun h hh => max_lt (h3 h hh) (hnear h hh)⟩
  obtain ⟨l, hinv₁, hpk, harr₁⟩ := hinv.drainFrames now _ hdrain
  obtain ⟨b₂, hb₂, hinv₂⟩ := hinv₁.checkForDrop hdrop
  have hle := hinv₁.le
  have hlt := hinv.lt
  -- the new positions follow the old ones
  have hchain' : (ns ++ List.range' b₁ l).IsChain (fun m n => m < n ∧ n < m + 32768) := by
    refine List.isChain_append.mpr ⟨hchain,
      (List.isChain_range' b₁ l 1).imp fun x y hxy => by omega, fun x hx y hy => ?_⟩
    have hx' := hmem x (List.mem_of_getLast? hx)
    have hxn := hnear x (by rw [hlast]; exact hx)
    have hyb := List.mem_range'_1.mp (List.mem_of_head? hy)
    omega
  have hmem' : ∀ m ∈ ns ++ List.range' b₁ l, m < b₂ ∧ m ∈ n :: s.arrived := by
    intro m hm
    rcases List.mem_append.mp hm with hm | hm
    · exact ⟨by have := (hmem m hm).1; omega, (hmem m hm).2⟩
    · exact ⟨by have := List.mem_range'_1.mp hm; omega, harr₁ m hm⟩
  refine .inr ⟨b₂, ns ++ List.range' b₁ l, ?_⟩
  dsimp only at hret
  rw [hpk] at hret
  rcases Nat.eq_zero_or_pos l with rfl | hl
  · cases hret
    refine ⟨hinv₂, by simp, by simp [hout], hchain', hmem', by simpa using hlast, ?_⟩
    rw [newest_cons]
    exact hnear
  · have hgl : ((List.range' b₁ l).map stream).getLast? = some (stream (b₁ + l - 1)) := by
      rw [List.getLast?_map, List.getLast?_range', if_neg (by omega)]; rfl
    simp only [hgl] at hret
    have hpos : max n (newest s.arrived) - Sn.dist ((b₁ + l - 1) % 65536)
        (max n (newest s.arrived) % 65536) = b₁ + l - 1 := by simp only [Sn.dist]; omega
    rw [newest_cons, hs (b₁ + l - 1), hpos] at hret
    cases hret
    refine ⟨hinv₂, by simp, by simp [hout], hchain', hmem', ?_, ?_⟩
    · rw [List.getLast?_append, List.getLast?_range', if_neg (by omega)]
      rfl
    · rw [newest_cons]
      simp only [Option.mem_def, Option.some.injEq, forall_eq']
      omega

theorem run_arrived {s t : Session} {as : List (ℕ × ℤ)} {out : List Packet}
    (h : run (arrive stream) s as = some (t, out)) :
    t.arrived = (as.map Prod.fst).reverse ++ s.arrived := by
  induction as generalizing s out with
  | nil => cases h; simp
  | cons a as ih =>
    obtain ⟨s', o, o', hs, ht, rfl⟩ := run_cons_eq_some.mp h
    obtain ⟨⟨r, hd⟩, -, hs⟩ := Option.bind_eq_some_iff.mp hs
    rw [ih ht]
    dsimp only at hs
    split at hs <;> cases hs <;> simp

theorem aheadOf_of_lt {m n : ℕ} (h : m < n) (h' : n < m + 32768) :
    Sn.aheadOf 16 0 (n % 65536) (m % 65536) = true := by
  rw [Sn.aheadOf_u16 (by omega) (by omega)]
  omega

/-- What a receiver hands out along a run of arrivals that meet the condition is
in order and without duplicates. -/
theorem handed_in_order (hs : IsStream stream) (ssrc : UInt32) (as : List (ℕ × ℤ))
    (hok : RunOk (arrive stream) (ArrivalOk stream) ⟨Receiver.newVideo ssrc, [], none⟩ as)
    {t : Session} {out : List Packet}
    (hr : run (arrive stream) ⟨Receiver.newVideo ssrc, [], none⟩ as = some (t, out)) :
    HandedInOrder stream as out := by
  have hinv : SessionInv stream t ([] ++ out) :=
    hok.invariant (SessionInv stream) (fun s out a s' o hi ha h => sessionInv_arrive hs hi ha h) []
      (.inl ⟨rfl, rfl, rfl, rfl⟩) hr
  have harr := run_arrived hr
  rw [List.nil_append] at hinv
  rcases hinv with ⟨-, -, -, rfl⟩ | ⟨b, ns, -, -, rfl, hchain, hmem, -, -⟩
  · exact ⟨⟨[], rfl, .nil, by simp⟩, .nil⟩
  · refine ⟨⟨ns, rfl, List.isChain_iff_pairwise.mp (hchain.imp fun m n h => h.1),
      fun n hn => ?_⟩, ?_⟩
    · have := (hmem n hn).2
      rw [harr] at this
      simpa using this
    · rw [List.isChain_map]
      exact hchain.imp fun m n h => by rw [hs, hs]; exact aheadOf_of_lt h.1 h.2

/-- Frames of three packets. -/
private def frames3 (n : ℕ) : Packet := ⟨n % 3 == 2, 96, UInt16.ofNat n, 3000, 1, [0x65, 0x88]⟩

private theorem isStream_frames3 : IsStream frames3 := fun _ => UInt16.toNat_ofNat'

/-- The second and the third packet of a frame arrive in the other order. -/
theorem handed_in_order_swapped :
    HandedInOrder frames3 [(0, 0), (2, 1), (1, 2)] [frames3 0, frames3 1, frames3 2] :=
  handed_in_order isStream_frames3 1 [(0, 0), (2, 1), (1, 2)] (by decide) rfl

/-- A duplicate of the packet that was handed out last restarts the window and
is handed out again. -/
theorem duplicate_handed_out_twice :
    ¬ ∀ (stream : ℕ → Packet), IsStream stream → ∀ (ssrc : UInt32) (as : List (ℕ × ℤ))
      (t : Session) (out : List Packet),
      run (arrive stream) ⟨Receiver.newVideo ssrc, [], none⟩ as = some (t, out) →
        HandedInOrder stream as out := by
  intro h
  have hout := (h frames3 isStream_frames3 1 [(2, 0), (2, 1)] _ [frames3 2, frames3 2] rfl).2
  exact absurd (List.isChain_pair.mp hout) (by decide)

end CxxDeps.H264
