import CxxDeps.Sctp.Gaps
import CxxDeps.Sctp.Network
import CxxDeps.Sctp.Vouching

/-! Acknowledgement. A SACK is made for one message, but its cumulative TSN, with the
256 before it, is taken out of all streams of the other end. What it takes out has
arrived as long as every SACK is made when all those TSNs that the other end holds
have arrived. -/

namespace CxxDeps.Sctp

open Library

namespace Association

/-! ### Fragments that wait for an acknowledgement -/

/-- The TSNs of all the fragments that would be sent again. -/
def pending (s : Association) : List UInt32 :=
  s.streams.toList.flatMap fun entry =>
    entry.2.sentMessages.toList.flatMap fun sent => sent.2.blocks.keys

theorem mem_pending {s : Association} {tsn : UInt32} :
    tsn ∈ s.pending ↔ ∃ (sid : UInt16) (stream : Stream) (ssn : UInt16) (msg : Message),
      s.streams[sid]? = some stream ∧ stream.sentMessages[ssn]? = some msg ∧
        tsn ∈ msg.blocks := by
  simp only [pending, List.mem_flatMap, Prod.exists,
    Std.ExtTreeMap.mem_toList_iff_getElem?_eq_some, Std.ExtTreeMap.mem_keys]
  constructor
  · rintro ⟨sid, stream, hstream, ssn, msg, hmsg, htsn⟩
    exact ⟨sid, stream, ssn, msg, hstream, hmsg, htsn⟩
  · rintro ⟨sid, stream, ssn, msg, hstream, hmsg, htsn⟩
    exact ⟨sid, stream, hstream, ssn, msg, hmsg, htsn⟩

end Association

/-- The TSN is acknowledged by a SACK with cumulative TSN `point`: it is at most 256
before it. -/
def Covers (point tsn : UInt32) : Prop := (point - tsn).toNat ≤ maxChunksPerMessage

instance (point tsn : UInt32) : Decidable (Covers point tsn) := inferInstanceAs (Decidable (_ ≤ _))

theorem covers_of_mem_tsns {sack : SackChunk} {tsn : UInt32} (hgaps : sack.gaps = [])
    (h : tsn ∈ sack.tsns) : Covers sack.tsn tsn := by
  simp only [SackChunk.tsns, hgaps, List.flatMap_nil, List.append_nil, List.mem_append,
    List.mem_map, List.mem_range, List.mem_singleton] at h
  rcases h with ⟨i, hi, rfl⟩ | rfl
  · have hsub : sack.tsn - (sack.tsn - UInt32.ofNat maxChunksPerMessage + UInt32.ofNat i) =
        UInt32.ofNat (maxChunksPerMessage - i) := by
      rw [UInt32.ofNat_sub hi.le]
      grind
    rw [Covers, hsub, UInt32.toNat_ofNat']
    exact (Nat.mod_le _ _).trans (Nat.sub_le _ _)
  · simp [Covers]

/-- A SACK without gap blocks takes out only what it covers. -/
theorem Association.covers_of_processSack {s : Association} {sack : SackChunk}
    (hgaps : sack.gaps = []) {tsn : UInt32} (h : tsn ∈ s.pending)
    (h' : tsn ∉ (s.processSack sack).pending) : Covers sack.tsn tsn := by
  obtain ⟨sid, stream, ssn, msg, hstream, hmsg, htsn⟩ := mem_pending.mp h
  by_contra hcovers
  have hkept : sack.tsns.contains tsn = false := by
    rw [← Bool.not_eq_true, List.contains_iff_mem]
    exact fun hmem => hcovers (covers_of_mem_tsns hgaps hmem)
  -- the fragment stays, so its message does
  set blocks := updateAll
    (fun t block => if sack.tsns.contains t then none else some block) msg.blocks with hblocks
  have hmem : tsn ∈ blocks := by
    rw [← Std.ExtTreeMap.isSome_getElem?_iff_mem, hblocks, getElem?_updateAll,
      Std.ExtTreeMap.getElem?_eq_some_getElem htsn]
    simp only [Option.bind_some, hkept, Bool.false_eq_true, if_false, Option.isSome_some]
  have hne : ¬ blocks.isEmpty := by
    intro hempty
    rw [Std.ExtTreeMap.isEmpty_iff.mp hempty] at hmem
    simp at hmem
  apply h'
  refine mem_pending.mpr ⟨sid, stream.processSack sack, ssn, { msg with blocks }, ?_, ?_, hmem⟩
  · rw [processSack, setStreams_streams, getElem?_updateAll, hstream]
    rfl
  · rw [Stream.processSack, getElem?_updateAll, hmsg, Option.bind_some, Message.keepBlocks]
    exact if_neg hne

/-- The TSN of a DATA chunk that arrives, if it is inserted into a stream. -/
def Association.insertedBy (now : ℤ) (s : Association) (chunk : Chunk) : List UInt32 :=
  match dataOf chunk with
  | some data => if (s.receive now chunk.flags data).2 then [data.tsn] else []
  | none => []

/-! ### The network -/

def Net.inserts (net : Net) : Move → List UInt32
  | .deliver side now i => (net.arrives side i).elim [] ((net side).insertedBy now)
  | .act _ _ => []

def Net.vouches (net : Net) : Move → List Message
  | .deliver side now i => (net.arrives side i).elim [] ((net side).vouchedOn now)
  | .act side a => (net side).vouchedBy a

/-- A network with the TSNs that each side has inserted so far, and those up to which
it has acknowledged without gap blocks. -/
structure Audit where
  net : Net
  inserted : Side → List UInt32 := fun _ => []
  acked : Side → List UInt32 := fun _ => []

/-- A list of one side grows. -/
def extend {α : Type} (f : Side → List α) (side : Side) (l : List α) : Side → List α :=
  fun x => if x = side then f x ++ l else f x

/-- The TSNs up to which a move acknowledges without gap blocks. -/
def Net.acks (net : Net) (m : Move) : List UInt32 :=
  ((net.vouches m).filter fun msg => msg.gapRuns.isEmpty).map Message.ackPoint

def Audit.step (audit : Audit) (m : Move) : Option (Audit × List Empty) :=
  (audit.net.step m).map fun r =>
    ({ net := r.1
       inserted := extend audit.inserted m.side (audit.net.inserts m)
       acked := extend audit.acked m.side (audit.net.acks m) }, [])

/-- Of what the other side holds, all that an acknowledgement covers has been inserted
when it is made, and no TSN that a side begins to hold is covered by one made before. -/
def Audit.Sound (audit : Audit) (m : Move) : Prop :=
  (∀ point ∈ audit.net.acks m, ∀ tsn ∈ (audit.net m.side.peer).pending, Covers point tsn →
    tsn ∈ audit.inserted m.side ∨ tsn ∈ audit.net.inserts m) ∧
  match audit.net.step m with
  | some r => ∀ tsn ∈ (r.1 m.side).pending, tsn ∈ (audit.net m.side).pending ∨
      ∀ point ∈ audit.acked m.side.peer, ¬ Covers point tsn
  | none => True

/-- It goes through the lists, not through all TSNs. -/
instance (audit : Audit) (m : Move) : Decidable (audit.Sound m) := by
  have among (l : List UInt32) (p : UInt32 → Prop) [DecidablePred p] :
      Decidable (∀ tsn ∈ l, p tsn) := List.decidableBAll p l
  refine @instDecidableAnd _ _ ?_ ?_
  · apply among
  · split
    · apply among
    · infer_instance

/-- Every SACK in flight without gap blocks is accounted for, and what it covers of
the fragments held has been inserted. -/
structure Audit.Accounted (audit : Audit) : Prop where
  packets : ∀ side, ∀ e ∈ (audit.net side).events, ∃ msgs, Vouched msgs e ∧
    ∀ msg ∈ msgs, msg.gapRuns = [] → msg.ackPoint ∈ audit.acked side
  inserted : ∀ side, ∀ point ∈ audit.acked side, ∀ tsn ∈ (audit.net side.peer).pending,
    Covers point tsn → tsn ∈ audit.inserted side

theorem mem_extend {α : Type} {f : Side → List α} {side x : Side} {l : List α} {a : α} :
    a ∈ extend f side l x ↔ a ∈ f x ∨ x = side ∧ a ∈ l := by
  rw [extend]
  split
  · next h => simp [h]
  · next h => simp [h]

variable {audit : Audit}

/-- What arrives, if it comes from the other side. -/
theorem Audit.Accounted.arriving (h : audit.Accounted) {side : Side} {i : ℕ} {data : List UInt8}
    (hdata : audit.net.arriving side i = some data) :
    ∃ chunk : Chunk, chunk.type.Named ∧ Says chunk (.sendData data) ∧
      (chunk.type = .sack → ∃ msg : Message, chunk = sackChunk (sackOf msg) ∧
        (msg.gapRuns = [] → msg.ackPoint ∈ audit.acked side.peer)) := by
  have hmem : .sendData data ∈ (audit.net side.peer).events :=
    Association.mem_flight.mp (List.mem_of_getElem? hdata)
  obtain ⟨msgs, hvouched, hacked⟩ := h.packets side.peer _ hmem
  obtain ⟨chunk, hnamed, hsaid, hsack⟩ := hvouched data rfl
  refine ⟨chunk, hnamed, hsaid, fun ht => ?_⟩
  obtain ⟨msg, hmsg, heq⟩ := hsack ht
  exact ⟨msg, heq, hacked msg hmsg⟩

/-- A move changes its own side only, which acknowledges what the move vouches. -/
theorem Audit.Accounted.step_net (h : audit.Accounted) {m : Move} {net : Net} {os : List Empty}
    (hm : audit.net.step m = some (net, os)) :
    ∃ s', net = audit.net.set m.side s' ∧
      Vouches (audit.net.vouches m) (audit.net m.side) s' := by
  cases m with
  | act side a =>
    obtain ⟨s', hs', heq⟩ := Option.map_eq_some_iff.mp hm
    exact ⟨s', (Prod.mk.inj heq).1.symm, Association.vouches_act hs'⟩
  | deliver side now i =>
    rw [Net.step] at hm
    cases hdata : audit.net.arriving side i with
    | none =>
      rw [hdata] at hm
      obtain ⟨rfl, -⟩ := Prod.mk.inj (Option.some.inj hm)
      refine ⟨audit.net side, funext fun x => ?_, vouches_of_events rfl⟩
      by_cases hx : x = side
      · rw [hx]
        exact (Net.set_self _ _ _).symm
      · exact (Net.set_of_ne _ _ hx).symm
    | some data =>
      rw [hdata] at hm
      obtain ⟨s', hs', heq⟩ := Option.map_eq_some_iff.mp hm
      refine ⟨s', (Prod.mk.inj heq).1.symm, ?_⟩
      obtain ⟨chunk, hnamed, hsaid, -⟩ := h.arriving hdata
      rcases connInput_says hnamed hsaid with ⟨-, hsame⟩ | ⟨-, hcarried, header, hchunk⟩
      · rw [hsame] at hs'
        exact Option.some.inj hs' ▸ vouches_of_events rfl
      · have harrives : audit.net.arrives side i = some chunk.sized := by
          rw [Net.arrives, hdata]
          exact hcarried
        rw [hchunk] at hs'
        simp only [Net.vouches, harrives, Option.elim_some]
        exact Association.vouches_onChunk hs'

theorem Audit.step_eq_some {m : Move} {audit' : Audit} {os : List Empty}
    (h : audit.step m = some (audit', os)) :
    ∃ net os', audit.net.step m = some (net, os') ∧ audit' =
      { net
        inserted := extend audit.inserted m.side (audit.net.inserts m)
        acked := extend audit.acked m.side (audit.net.acks m) } := by
  obtain ⟨r, hr, heq⟩ := Option.map_eq_some_iff.mp h
  exact ⟨r.1, r.2, hr, (Prod.mk.inj heq).1.symm⟩

/-- A sound move keeps the account. -/
theorem Audit.Accounted.step (h : audit.Accounted) {m : Move} (hok : audit.Sound m)
    {audit' : Audit} {os : List Empty} (hm : audit.step m = some (audit', os)) :
    audit'.Accounted := by
  obtain ⟨net, os', hstep, rfl⟩ := Audit.step_eq_some hm
  obtain ⟨s', hnet, es, hes, hvouched⟩ := h.step_net hstep
  obtain ⟨hacks, hfresh⟩ := hok
  simp only [hstep] at hfresh
  have hother {x : Side} (hx : x ≠ m.side) : net x = audit.net x := by
    rw [hnet, Net.set_of_ne _ _ hx]
  constructor
  · intro x e he
    have hold (hmem : e ∈ (audit.net x).events) : ∃ msgs, Vouched msgs e ∧ ∀ msg ∈ msgs,
        msg.gapRuns = [] → msg.ackPoint ∈ extend audit.acked m.side (audit.net.acks m) x := by
      obtain ⟨msgs, hv, hacked⟩ := h.packets x e hmem
      exact ⟨msgs, hv, fun msg hmsg hg => mem_extend.mpr (.inl (hacked msg hmsg hg))⟩
    by_cases hx : x = m.side
    · subst hx
      have hevents : (net m.side).events = (audit.net m.side).events ++ es := by
        rw [hnet, Net.set_self, hes]
      rw [hevents] at he
      rcases List.mem_append.mp he with he | he
      · exact hold he
      · refine ⟨_, hvouched e he, fun msg hmsg hg => mem_extend.mpr (.inr ⟨rfl, ?_⟩)⟩
        exact List.mem_map_of_mem (List.mem_filter.mpr ⟨hmsg, by simp [hg]⟩)
    · exact hold (hother hx ▸ he)
  · intro x point hpoint tsn htsn hcovers
    change tsn ∈ (net x.peer).pending at htsn
    rcases mem_extend.mp hpoint with hold | ⟨rfl, hnew⟩
    · apply mem_extend.mpr
      left
      by_cases hx : x.peer = m.side
      · -- the side that moves holds the fragment
        rw [hx] at htsn
        rcases hfresh tsn htsn with hmem | huncovered
        · exact h.inserted x point hold tsn (hx ▸ hmem) hcovers
        · rw [← hx, Side.peer_peer] at huncovered
          exact absurd hcovers (huncovered point hold)
      · exact h.inserted x point hold tsn (hother hx ▸ htsn) hcovers
    · -- the side that moves acknowledges
      rw [hother m.side.peer_ne] at htsn
      exact mem_extend.mpr ((hacks point hnew tsn htsn hcovers).imp id fun hin => ⟨rfl, hin⟩)

/-- A SACK in flight takes out only what the account says was inserted. -/
theorem Audit.Accounted.sack (h : audit.Accounted) {side : Side} {now : ℤ} {i : ℕ} {chunk : Chunk}
    (harrives : audit.net.arrives side i = some chunk) (ht : chunk.type = .sack)
    {net : Net} {os : List Empty} (hm : audit.net.step (.deliver side now i) = some (net, os))
    {tsn : UInt32} (htsn : tsn ∈ (audit.net side).pending) (htsn' : tsn ∉ (net side).pending) :
    tsn ∈ audit.inserted side.peer := by
  rw [Net.step] at hm
  cases hdata : audit.net.arriving side i with
  | none =>
    rw [Net.arrives, hdata] at harrives
    cases harrives
  | some data =>
    rw [hdata] at hm
    obtain ⟨s', hs', heq⟩ := Option.map_eq_some_iff.mp hm
    obtain ⟨rfl, -⟩ := Prod.mk.inj heq
    rw [Net.set_self] at htsn'
    rw [Net.arrives, hdata, Option.bind_some] at harrives
    obtain ⟨sent, hnamed, hsaid, hsack⟩ := h.arriving hdata
    rcases connInput_says hnamed hsaid with ⟨hnone, -⟩ | ⟨hlen, hcarried, header, hchunk⟩
    · rw [hnone] at harrives
      cases harrives
    · rw [hcarried] at harrives
      obtain rfl := Option.some.inj harrives
      obtain ⟨msg, rfl, hacked⟩ := hsack ht
      have hsize : (sackOf msg).serialize.length ≤ maxChunkSize := by
        have hlength := (sackChunk (sackOf msg)).length_serialize
        have hpayload : (sackChunk (sackOf msg)).payload = (sackOf msg).serialize := rfl
        rw [hpayload] at hlength
        omega
      have hread := SackChunk.deserialize_serialize hsize
      rw [hchunk, Association.onChunk, ht] at hs'
      have hs' : (audit.net side).reading (SackChunk.deserialize (sackOf msg).serialize)
          (fun sack => some ((audit.net side).processSack sack)) = some s' := hs'
      rw [hread] at hs'
      split at hs'
      · next hcount =>
        -- there are too few gap blocks for their number to wrap
        have hgaps : msg.gapRuns = [] := by
          have hle := msg.gapRuns_length_le
          have hnat := congrArg UInt16.toNat hcount
          simp only [sackOf, Message.calcGaps_eq, List.length_map] at hnat
          have hlt : msg.gapRuns.length < 2 ^ 16 := by
            simp only [maxChunksPerMessage] at hle
            omega
          rw [UInt16.toNat_ofNat', Nat.mod_eq_of_lt hlt] at hnat
          exact List.eq_nil_of_length_eq_zero hnat
        obtain rfl := Option.some.inj hs'
        have hcovers := Association.covers_of_processSack rfl htsn htsn'
        simp only [sackOf, Message.calcGaps_eq] at hcovers
        exact h.inserted side.peer _ (hacked hgaps) tsn (by rwa [Side.peer_peer]) hcovers
      · -- a refused SACK leaves the streams alone
        obtain rfl := Option.some.inj hs'
        obtain ⟨es, hes, -⟩ := Association.send_spec .operationalError flagsNone
          (ErrorChunk.serialize ⟨[⟨ErrorCause.protocolViolation.toWord, []⟩]⟩) (audit.net side)
        have hstreams : ((audit.net side).sendError .protocolViolation).streams =
            (audit.net side).streams := by
          rw [Association.sendError, hes, Association.say_streams]
        rw [Association.pending, hstreams] at htsn'
        exact absurd htsn htsn'

/-- In every state that a run of sound moves reaches, a SACK in flight takes out only
fragments that its sender has inserted. -/
theorem sack_removes_inserted {net : Net} (hnet : net.Opened) {moves : List Move} {audit : Audit}
    {os : List Empty} (hok : RunOk Audit.step Audit.Sound { net } moves)
    (hrun : run Audit.step { net } moves = some (audit, os)) {side : Side} {now : ℤ} {i : ℕ}
    {chunk : Chunk} (harrives : audit.net.arrives side i = some chunk)
    (ht : chunk.type = .sack) {audit' : Audit} {os' : List Empty}
    (hstep : audit.step (.deliver side now i) = some (audit', os')) :
    ∀ tsn ∈ (audit.net side).pending, tsn ∉ (audit'.net side).pending →
      tsn ∈ audit.inserted side.peer := by
  have h₀ : Audit.Accounted { net } := by
    refine ⟨fun x e he => ?_, fun _ _ hpoint => by cases hpoint⟩
    change e ∈ (net x).events at he
    obtain ⟨sid, localPort, uuid, tag, tsn, hx⟩ := hnet x
    rw [hx] at he
    cases he
  have h : audit.Accounted :=
    RunOk.invariant (fun audit _ => audit.Accounted) (fun _ _ _ _ _ hi ha hs => hi.step ha hs) []
      hok h₀ hrun
  obtain ⟨net', os'', hm, rfl⟩ := Audit.step_eq_some hstep
  exact fun tsn htsn htsn' => h.sack harrives ht hm htsn htsn'

/-- A stream is opened, and the chunk arrives. -/
theorem sack_removes_inserted_exchange :
    ∃ audit os audit' os', run Audit.step { net := pair }
        (handshake ++ [.act .client (.createStream 0 [0x61]), .deliver .server 0 2]) =
          some (audit, os) ∧
      audit.step (.deliver .client 0 2) = some (audit', os') ∧
      100 ∈ (audit.net .client).pending ∧ 100 ∉ (audit'.net .client).pending ∧
      100 ∈ audit.inserted .server := by
  have hall : ((run Audit.step { net := pair }
      (handshake ++ [.act .client (.createStream 0 [0x61]), .deliver .server 0 2])).bind fun r =>
        (r.1.step (.deliver .client 0 2)).map fun q => (r.1.net .client).pending.contains 100 &&
          !(q.1.net .client).pending.contains 100 &&
          (r.1.net.arrives .client 2).any fun chunk => chunk.type = .sack) = some true := by
    decide +kernel
  obtain ⟨⟨audit, os⟩, hrun, hbind⟩ := Option.bind_eq_some_iff.mp hall
  obtain ⟨⟨audit', os'⟩, hstep, hcheck⟩ := Option.map_eq_some_iff.mp hbind
  simp only [Bool.and_eq_true, Bool.not_eq_true', Option.any_eq_true, decide_eq_true_eq] at hcheck
  obtain ⟨⟨hbefore, hafter⟩, chunk, harrives, ht⟩ := hcheck
  have hmem := List.contains_iff_mem.mp hbefore
  have hnot : 100 ∉ (audit'.net .client).pending := by simpa using hafter
  exact ⟨audit, os, audit', os', hrun, hstep, hmem, hnot, sack_removes_inserted pair_opened
    (by decide +kernel) hrun harrives ht hstep 100 hmem hnot⟩

/-- The first of two DATA chunks is lost. The SACK of the second, which is for another
stream, takes out both. -/
theorem sack_removes_lost :
    ¬ ∀ (net : Net), net.Opened → ∀ (moves : List Move) (audit : Audit) (os : List Empty),
      run Audit.step { net } moves = some (audit, os) →
      ∀ (side : Side) (now : ℤ) (i : ℕ) (chunk : Chunk) (audit' : Audit) (os' : List Empty),
      audit.net.arrives side i = some chunk → chunk.type = .sack →
      audit.step (.deliver side now i) = some (audit', os') →
      ∀ tsn ∈ (audit.net side).pending, tsn ∉ (audit'.net side).pending →
        tsn ∈ audit.inserted side.peer := by
  intro h
  have hall : ((run Audit.step { net := pair } (handshake ++
      [.act .client (.createStream 0 [0x61]), .act .client (.createStream 0 [0x62]),
        .deliver .server 0 3])).bind fun r =>
        (r.1.step (.deliver .client 0 2)).map fun q => (r.1.net .client).pending.contains 100 &&
          !(q.1.net .client).pending.contains 100 && !(r.1.inserted .server).contains 100 &&
          (r.1.net.arrives .client 2).any fun chunk => chunk.type = .sack) = some true := by
    decide +kernel
  obtain ⟨⟨audit, os⟩, hrun, hbind⟩ := Option.bind_eq_some_iff.mp hall
  obtain ⟨⟨audit', os'⟩, hstep, hcheck⟩ := Option.map_eq_some_iff.mp hbind
  simp only [Bool.and_eq_true, Bool.not_eq_true', Option.any_eq_true, decide_eq_true_eq] at hcheck
  obtain ⟨⟨⟨hbefore, hafter⟩, hlost⟩, chunk, harrives, ht⟩ := hcheck
  have hin := h pair pair_opened _ audit os hrun .client 0 2 chunk audit' os' harrives ht hstep 100
    (List.contains_iff_mem.mp hbefore) (by simpa using hafter)
  exact absurd hin (by simpa [Side.peer] using hlost)

end CxxDeps.Sctp
