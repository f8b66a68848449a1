import Mathlib.Data.List.Chain
import CxxDeps.Library.Run
import CxxDeps.Rtp.Sender

/-! The packet stream of a video sender over a sequence of `send_frame` calls.
`WellStreamed` says what receivers rely on. A sender is described call by call,
by the marker of the last packet of a frame and by the amount its timestamp
moves; the stream is well formed exactly when every last packet is marked and the
timestamp moves by the duration of every frame that another one follows. -/

namespace CxxDeps.Rtp

open Library

/-- The arguments of a call of `send_frame`. -/
structure Call where
  frame : List UInt8
  duration : UInt32
  deriving DecidableEq, Repr

/-- The test of `send_frame` for sending all NAL units in one aggregation packet. -/
def Aggregated (nals : List (List UInt8)) : Prop :=
  (nals.map List.length).sum ≤ maxRtpPayloadSize ∧ nals.length > 1

instance (nals : List (List UInt8)) : Decidable (Aggregated nals) :=
  inferInstanceAs (Decidable (_ ∧ _))

/-- The packets of NAL units that are sent one by one; `send` is told which one
is the last. -/
def sendEach (send : Sender → List UInt8 → Bool → Option (Sender × List Packet)) :
    Sender → List (List UInt8) → Option (Sender × List Packet)
  | s, [] => some (s, [])
  | s, nal :: nals => do
    let (s, pkts) ← send s nal nals.isEmpty
    let (s, pkts') ← sendEach send s nals
    return (s, pkts ++ pkts')

/-- Sequence numbers that follow each other modulo `2 ^ 16`. -/
def Consecutive (p q : Packet) : Prop := q.seq = p.seq + 1

/-- The timestamp of a frame is that of the frame before and its duration. -/
def Advances (a b : List Packet × Call) : Prop :=
  ∀ p ∈ a.1, ∀ q ∈ b.1, q.ts = p.ts + a.2.duration

/-- Exactly the last packet has the marker bit. -/
def Marked (pkts : List Packet) : Prop :=
  ∃ init last, pkts = init ++ [last] ∧ last.m = true ∧ ∀ p ∈ init, p.m = false

/-- The packets of a sequence of calls, frame by frame. -/
structure WellStreamed (calls : List Call) (frames : List (List Packet)) : Prop where
  consecutive : frames.flatten.IsChain Consecutive
  sameTimestamp : ∀ pkts ∈ frames, ∀ p ∈ pkts, ∀ q ∈ pkts, q.ts = p.ts
  marked : ∀ pkts ∈ frames, Marked pkts
  advances : (frames.zip calls).IsChain Advances

/-- A call as a step whose output is the list of its packets. -/
def frameStep (send : Sender → Call → Option (Sender × List Packet)) (s : Sender) (c : Call) :
    Option (Sender × List (List Packet)) :=
  (send s c).map fun q => (q.1, [q.2])

/-- Every call is carried out, and the stream is well formed. -/
def Streams (send : Sender → Call → Option (Sender × List Packet)) (s : Sender)
    (calls : List Call) : Prop :=
  ∃ s' frames, run (frameStep send) s calls = some (s', frames) ∧ WellStreamed calls frames

/-! ### Bursts -/

/-- Packets sent one after the other at one timestamp, of which only the last one
may be marked. -/
structure Burst (s s' : Sender) (m : Bool) (pkts : List Packet) : Prop where
  ne_nil : pkts ≠ []
  consecutive : pkts.IsChain Consecutive
  first : ∀ p ∈ pkts.head?, p.seq = s.seq
  next : ∀ p ∈ pkts.getLast?, s'.seq = p.seq + 1
  ts : ∀ p ∈ pkts, p.ts = s.timestamp
  marker : ∃ init last, pkts = init ++ [last] ∧ last.m = m ∧ ∀ p ∈ init, p.m = false
  timestamp : s'.timestamp = s.timestamp

namespace Burst

variable {s s₁ s' : Sender} {m : Bool} {xs ys : List Packet}

theorem packet (s : Sender) (m : Bool) (payload : List UInt8) :
    Burst s (s.sendPacket (s.newPacket m payload)) m [s.newPacket m payload] where
  ne_nil := by simp
  consecutive := .singleton _
  first := by simp [Sender.newPacket]
  next := by simp [Sender.newPacket, Sender.sendPacket]
  ts := by simp [Sender.newPacket]
  marker := ⟨[], _, rfl, rfl, by simp⟩
  timestamp := rfl

theorem append (hx : Burst s s₁ false xs) (hy : Burst s₁ s' m ys) :
    Burst s s' m (xs ++ ys) where
  ne_nil := by simp [hx.ne_nil]
  consecutive := by
    refine List.isChain_append.mpr ⟨hx.consecutive, hy.consecutive, fun p hp q hq => ?_⟩
    rw [Consecutive, hy.first q hq, hx.next p hp]
  first p hp := hx.first p (by simpa [List.head?_append_of_ne_nil _ hx.ne_nil] using hp)
  next p hp := hy.next p (by simpa [List.getLast?_append_of_ne_nil _ hy.ne_nil] using hp)
  ts p hp := by
    rcases List.mem_append.mp hp with hp | hp
    · exact hx.ts p hp
    · rw [hy.ts p hp, hx.timestamp]
  marker := by
    obtain ⟨init, last, rfl, hm, hinit⟩ := hx.marker
    obtain ⟨init', last', rfl, hm', hinit'⟩ := hy.marker
    refine ⟨init ++ [last] ++ init', last', by simp, hm', fun p hp => ?_⟩
    rcases List.mem_append.mp hp with hp | hp
    · rcases List.mem_append.mp hp with hp | hp
      · exact hinit p hp
      · rw [List.mem_singleton.mp hp, hm]
    · exact hinit' p hp
  timestamp := hy.timestamp.trans hx.timestamp

theorem restate (h : Burst s s₁ m xs) (hseq : s'.seq = s₁.seq)
    (hts : s'.timestamp = s₁.timestamp) : Burst s s' m xs :=
  { h with
    next := fun p hp => hseq.trans (h.next p hp)
    timestamp := hts.trans h.timestamp }

theorem marked_iff (h : Burst s s' m xs) : Marked xs ↔ m = true := by
  obtain ⟨init, last, rfl, hm, hinit⟩ := h.marker
  constructor
  · rintro ⟨init', last', heq, hm', -⟩
    obtain ⟨-, rfl⟩ := List.append_singleton_inj.mp heq
    rw [← hm, hm']
  · intro ht
    exact ⟨init, last, rfl, hm.trans ht, hinit⟩

end Burst

/-! ### Whole streams -/

/-- The result of sending a burst that ends in a packet with marker `m`, behind
which the timestamp is moved by `d`. -/
def Sent (s : Sender) (r : Option (Sender × List Packet)) (m : Bool) (d : UInt32) : Prop :=
  ∃ s₁ s' pkts, r = some (s', pkts) ∧ Burst s s₁ m pkts ∧ s'.seq = s₁.seq ∧
    s'.timestamp = s₁.timestamp + d

/-- A burst from one NAL unit, behind which the timestamp moves if it is the
last. -/
theorem Burst.sent {s s' : Sender} {islast : Bool} {pkts : List Packet}
    (h : Burst s s' islast pkts) {r : Option (Sender × List Packet)} (hr : r = some (s', pkts))
    (duration : UInt32) :
    Sent s (r.map fun q =>
      (if islast then { q.1 with timestamp := q.1.timestamp + duration } else q.1, q.2))
      islast (if islast then duration else 0) := by
  refine ⟨s', _, pkts, by rw [hr]; rfl, h, ?_, ?_⟩
  · cases islast <;> rfl
  · cases islast
    · simp
    · rfl

/-- NAL units sent one by one make one burst. -/
theorem sendEach_sent {send : Sender → List UInt8 → Bool → Option (Sender × List Packet)}
    {d : UInt32} {nals : List (List UInt8)} (hne : nals ≠ [])
    (h : ∀ nal ∈ nals, ∀ s islast, Sent s (send s nal islast) islast (if islast then d else 0))
    (s : Sender) : Sent s (sendEach send s nals) true d := by
  induction nals generalizing s with
  | nil => exact absurd rfl hne
  | cons nal nals ih =>
    obtain ⟨s₁, s', xs, hsend, hb, hseq, hts⟩ := h nal (by simp) s nals.isEmpty
    rcases nals with _ | ⟨nal', nals⟩
    · refine ⟨s₁, s', xs, ?_, hb, hseq, hts⟩
      simp only [List.isEmpty_nil] at hsend
      simp [sendEach, hsend]
    · obtain ⟨t₁, t', ys, hsend', hb', hseq', hts'⟩ :=
        ih (by simp) (fun m hm => h m (by simp [hm])) s'
      have hxs : Burst s s' false xs := hb.restate hseq (by simpa using hts)
      refine ⟨t₁, t', xs ++ ys, ?_, hxs.append hb', hseq', hts'⟩
      rw [List.isEmpty_cons] at hsend
      rw [sendEach, List.isEmpty_cons, hsend, Option.bind_eq_bind, Option.bind_some]
      dsimp only
      rw [hsend']
      rfl

theorem sendEach_eq_none {send : Sender → List UInt8 → Bool → Option (Sender × List Packet)}
    {nals : List (List UInt8)} {nal : List UInt8} (hn : nal ∈ nals)
    (h : ∀ s islast, send s nal islast = none) (s : Sender) : sendEach send s nals = none := by
  induction nals generalizing s with
  | nil => cases hn
  | cons m nals ih =>
    rcases List.mem_cons.mp hn with rfl | hn
    · simp [sendEach, h]
    · rcases hs : send s m nals.isEmpty with _ | q
      · simp [sendEach, hs]
      · simp [sendEach, hs, ih hn]

/-- In every state the call is carried out as one burst. -/
def Sends (send : Sender → Call → Option (Sender × List Packet)) (c : Call) (m : Bool)
    (d : UInt32) : Prop :=
  ∀ s, Sent s (send s c) m d

variable {send : Sender → Call → Option (Sender × List Packet)} {m : Call → Bool}
  {d : Call → UInt32}

/-- The frames of calls whose markers and timestamps are known. -/
structure Emitted (m : Call → Bool) (d : Call → UInt32) (s : Sender) (calls : List Call)
    (frames : List (List Packet)) : Prop where
  length : frames.length = calls.length
  ne_nil : ∀ pkts ∈ frames, pkts ≠ []
  first : ∀ p ∈ frames.flatten.head?, p.seq = s.seq
  ts : ∀ pkts ∈ frames.head?, ∀ p ∈ pkts, p.ts = s.timestamp
  consecutive : frames.flatten.IsChain Consecutive
  sameTimestamp : ∀ pkts ∈ frames, ∀ p ∈ pkts, ∀ q ∈ pkts, q.ts = p.ts
  marked : (∀ pkts ∈ frames, Marked pkts) ↔ ∀ c ∈ calls, m c = true
  advances : (frames.zip calls).IsChain Advances ↔ ∀ c ∈ calls.dropLast, d c = c.duration

namespace Emitted

theorem nil (s : Sender) : Emitted m d s [] [] := by constructor <;> simp

theorem cons {s s₁ s' : Sender} {c : Call} {pkts : List Packet} {calls : List Call}
    {frames : List (List Packet)} (hb : Burst s s₁ (m c) pkts) (hseq : s'.seq = s₁.seq)
    (hts : s'.timestamp = s₁.timestamp + d c) (h : Emitted m d s' calls frames) :
    Emitted m d s (c :: calls) (pkts :: frames) where
  length := by simp [h.length]
  ne_nil := by simpa using ⟨hb.ne_nil, h.ne_nil⟩
  first p hp := hb.first p (by
    rwa [List.flatten_cons, List.head?_append_of_ne_nil _ hb.ne_nil] at hp)
  ts := by simpa using hb.ts
  consecutive := by
    rw [List.flatten_cons]
    refine List.isChain_append.mpr ⟨hb.consecutive, h.consecutive, fun p hp q hq => ?_⟩
    rw [Consecutive, h.first q hq, hseq, hb.next p hp]
  sameTimestamp := by
    intro xs hxs p hp q hq
    rcases List.mem_cons.mp hxs with rfl | hxs
    · rw [hb.ts p hp, hb.ts q hq]
    · exact h.sameTimestamp xs hxs p hp q hq
  marked := by simp only [List.forall_mem_cons, hb.marked_iff, h.marked]
  advances := by
    rcases calls with _ | ⟨c', calls⟩
    · rw [List.length_eq_zero_iff.mp h.length]
      simp
    obtain ⟨xs, frames, rfl⟩ := List.exists_cons_of_length_eq_add_one h.length
    have hnext : Advances (pkts, c) (xs, c') ↔ d c = c.duration := by
      obtain ⟨p, hp⟩ := List.exists_mem_of_ne_nil _ hb.ne_nil
      obtain ⟨q, hq⟩ := List.exists_mem_of_ne_nil _ (h.ne_nil xs (by simp))
      have hpts := hb.ts
      have hqts := h.ts xs (by simp)
      constructor
      · intro ha
        have := ha p hp q hq
        rw [hpts p hp, hqts q hq, hts, hb.timestamp] at this
        exact (UInt32.add_right_inj _).mp this
      · intro hd p hp q hq
        rw [hpts p hp, hqts q hq, hts, hb.timestamp, hd]
    have htail := h.advances
    rw [List.zip_cons_cons] at htail
    rw [List.zip_cons_cons, List.zip_cons_cons, List.isChain_cons_cons, hnext, htail,
      List.dropLast_cons_cons, List.forall_mem_cons]

end Emitted

/-- A run of calls that are all carried out. -/
theorem run_emitted {calls : List Call} (h : ∀ c ∈ calls, Sends send c (m c) (d c)) (s : Sender) :
    ∃ s' frames, run (frameStep send) s calls = some (s', frames) ∧
      Emitted m d s calls frames := by
  induction calls generalizing s with
  | nil => exact ⟨s, [], rfl, .nil s⟩
  | cons c calls ih =>
    obtain ⟨s₁, s', pkts, hsend, hb, hseq, hts⟩ := h c (by simp) s
    obtain ⟨t, frames, hrun, he⟩ := ih (fun c hc => h c (by simp [hc])) s'
    refine ⟨t, pkts :: frames, ?_, .cons hb hseq hts he⟩
    rw [run_cons, frameStep, hsend]
    simp [hrun]

/-- The stream is well formed if and only if every last packet is marked and
every frame before another one moves the timestamp by its duration. -/
theorem streams_iff {calls : List Call} (h : ∀ c ∈ calls, Sends send c (m c) (d c)) (s : Sender) :
    Streams send s calls ↔
      (∀ c ∈ calls, m c = true) ∧ ∀ c ∈ calls.dropLast, d c = c.duration := by
  obtain ⟨s', frames, hrun, he⟩ := run_emitted h s
  constructor
  · rintro ⟨s'', frames', hrun', hw⟩
    obtain ⟨-, rfl⟩ := Prod.mk.inj (Option.some.inj (hrun.symm.trans hrun'))
    exact ⟨he.marked.mp hw.marked, he.advances.mp hw.advances⟩
  · rintro ⟨hm, hd⟩
    exact ⟨s', frames, hrun, he.consecutive, he.sameTimestamp, he.marked.mpr hm,
      he.advances.mpr hd⟩

/-- A call that fails in every state ends every run. -/
theorem not_streams {calls : List Call} {c : Call} (hc : c ∈ calls)
    (h : ∀ s, send s c = none) (s : Sender) : ¬ Streams send s calls := by
  rintro ⟨s', frames, hrun, -⟩
  obtain ⟨xs, ys, rfl⟩ := List.append_of_mem hc
  obtain ⟨s₁, o, o', -, hrun, -⟩ := run_append_eq_some.mp hrun
  obtain ⟨s₂, o, o', hstep, -, -⟩ := run_cons_eq_some.mp hrun
  simp [frameStep, h] at hstep

end CxxDeps.Rtp
