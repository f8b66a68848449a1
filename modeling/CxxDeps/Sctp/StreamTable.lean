import CxxDeps.Library.Run
import CxxDeps.Sctp.Access

/-! The uses of entries of `streams_`, kept beside the operations that make them. An
entry is used through an iterator, so a use is in order only while the entry is in
the map. The uses stop where the behaviour becomes undefined. -/

namespace CxxDeps.Sctp

open Library

/-- An entry that is read or erased, and whether it is in the map at that moment. -/
structure EntryUse where
  sid : UInt16
  present : Bool
  deriving DecidableEq, Repr

def AllPresent (uses : List EntryUse) : Prop := ∀ u ∈ uses, u.present = true

instance (uses : List EntryUse) : Decidable (AllPresent uses) :=
  inferInstanceAs (Decidable (∀ u ∈ uses, u.present = true))

@[simp] theorem allPresent_nil : AllPresent [] := List.forall_mem_nil _

@[simp] theorem allPresent_cons {u : EntryUse} {us : List EntryUse} :
    AllPresent (u :: us) ↔ u.present = true ∧ AllPresent us := List.forall_mem_cons

@[simp] theorem allPresent_append {us vs : List EntryUse} :
    AllPresent (us ++ vs) ↔ AllPresent us ∧ AllPresent vs := List.forall_mem_append

namespace Association

def use (sid : UInt16) (s : Association) : EntryUse := ⟨sid, s.streams.contains sid⟩

/-- `on_user_message`: a stream that is found is closed, and then erased. -/
def messageUses (msg : Message) (s : Association) : List EntryUse :=
  if msg.closes msg.streamId ∧ msg.streamId ∈ s.streams then
    [s.use msg.streamId, s.use msg.streamId]
  else []

/-- The loop of `insert_data_chunk`. Its condition reads the stream through the
iterator, and so does the call of `on_user_message`. -/
def drainUses (now : ℤ) (sid : UInt16) : ℕ → Association → List EntryUse
  | 0, _ => []
  | n + 1, s => s.use sid ::
    match s.streams[sid]? with
    | .none => []
    | some stream =>
      match stream.nextMessage with
      | .none => []
      | some (msg, stream) =>
        let s := sendSack msg (s.setStreams (s.streams.insert sid stream))
        s.use sid :: messageUses msg s ++
          match s.onUserMessage now msg with
          | .none => []
          | some s => drainUses now sid n s

def insertUses (now : ℤ) (flags : ChunkFlags) (chunk : DataChunk) (s : Association) :
    List EntryUse :=
  let stream := (s.receive now flags chunk).1
  let s := s.setStreams (s.streams.insert chunk.streamId stream)
  s.use chunk.streamId :: drainUses now chunk.streamId (stream.messages.size + 1) s

/-- `close_stream`: the entry is read if it is found, and erased in any case. -/
def closeUses (sid : UInt16) (s : Association) : List EntryUse :=
  if sid ∈ s.streams then [s.use sid, s.use sid] else [s.use sid]

end Association

/-- A DATA chunk comes in, or the application closes a stream. -/
inductive StreamCall
  | data (now : ℤ) (flags : ChunkFlags) (chunk : DataChunk)
  | close (sid : UInt16)
  deriving DecidableEq, Repr

namespace Association

def callUses (s : Association) : StreamCall → List EntryUse
  | .data now flags chunk => s.insertUses now flags chunk
  | .close sid => s.closeUses sid

/-- The stream that a call opens. -/
def opens (s : Association) : StreamCall → List UInt16
  | .data _ _ chunk => if chunk.streamId ∈ s.streams then [] else [chunk.streamId]
  | .close _ => []

/-- One call, with the stream that it opens. -/
def takeCall (s : Association) : StreamCall → Option (Association × List UInt16)
  | .data now flags chunk =>
    (s.insertDataChunk now flags chunk).map fun t => (t, s.opens (.data now flags chunk))
  | .close sid => (s.closeStream sid).map fun t => (t, [])

def runUses : Association → List StreamCall → List EntryUse
  | _, [] => []
  | s, c :: cs => s.callUses c ++
    match s.takeCall c with
    | .none => []
    | some r => runUses r.1 cs

end Association

instance (msg : Message) : Decidable msg.EmptyDcep :=
  inferInstanceAs (Decidable (msg.isDcep = true ∧ msg.serialize = some []))

/-- The messages before the first empty DCEP message, which cannot be handled. -/
def uptoEmptyDcep : List Message → List Message
  | [] => []
  | msg :: msgs => if msg.EmptyDcep then [] else msg :: uptoEmptyDcep msgs

/-- A DATA chunk completes no message that closes its stream, and only a stream that
is there is closed. -/
def Association.CallOk (s : Association) : StreamCall → Prop
  | .data now flags chunk =>
    ∀ msg ∈ uptoEmptyDcep (s.readyMessages now flags chunk), ¬ msg.closes chunk.streamId
  | .close sid => sid ∈ s.streams

/-! ### The uses of one call -/

namespace Association

variable {now : ℤ} {sid : UInt16} {s s' : Association} {stream : Stream} {msg : Message}

theorem use_present (h : s.streams[sid]? = some stream) : (s.use sid).present = true := by
  have hmem : sid ∈ s.streams := Std.ExtTreeMap.mem_iff_isSome_getElem?.mpr (h ▸ rfl)
  exact Std.ExtTreeMap.contains_iff_mem.mpr hmem

theorem use_absent (h : s.streams[sid]? = none) : (s.use sid).present = false := by
  have hmem : sid ∉ s.streams := fun hm => by
    have hsome := Std.ExtTreeMap.mem_iff_isSome_getElem?.mp hm
    rw [h] at hsome
    cases hsome
  exact Bool.eq_false_iff.mpr fun hc => hmem (Std.ExtTreeMap.contains_iff_mem.mp hc)

/-- A message only uses an entry that it has found. -/
theorem messageUses_present (msg : Message) (s : Association) : AllPresent (s.messageUses msg) := by
  rw [messageUses]
  split_ifs with h
  · have hp : (s.use msg.streamId).present = true := Std.ExtTreeMap.contains_iff_mem.mpr h.2
    simp [hp]
  · exact allPresent_nil

/-- The loop uses an entry that is gone exactly if a message closes the stream. -/
theorem drainUses_present_iff {n : ℕ} (hs : s.streams[sid]? = some stream)
    (hn : stream.messages.size < n) :
    AllPresent (drainUses now sid n s) ↔
      ∀ msg ∈ uptoEmptyDcep (readyLoop n stream), ¬ msg.closes sid := by
  induction n generalizing s stream with
  | zero => omega
  | succ n ih =>
    rw [drainUses, readyLoop, allPresent_cons, and_iff_right (use_present hs)]
    simp only [hs]
    rcases hnext : stream.nextMessage with _ | ⟨msg, stream'⟩
    · simp [uptoEmptyDcep]
    · obtain ⟨hget, -, hstream'⟩ := Stream.nextMessage_eq_some hnext
      have hmem : stream.nextRecvSsn ∈ stream.messages :=
        Std.ExtTreeMap.mem_iff_isSome_getElem?.mpr (hget ▸ rfl)
      have hsize : stream'.messages.size < n := by
        have hpos : stream.messages.size ≠ 0 := fun h0 => by
          rw [Std.ExtTreeMap.eq_empty_iff_size_eq_zero.mpr h0] at hmem
          exact Std.ExtTreeMap.not_mem_empty hmem
        rw [hstream', Std.ExtTreeMap.size_erase, if_pos (Std.ExtTreeMap.contains_iff_mem.mpr hmem)]
        omega
      set s₁ := sendSack msg (s.setStreams (s.streams.insert sid stream'))
      have hs₁ : s₁.streams[sid]? = some stream' := by
        obtain ⟨es, hes, -⟩ := sendSack_spec msg (s.setStreams (s.streams.insert sid stream'))
        simp only [s₁, hes, say_streams, setStreams_streams, Std.ExtTreeMap.getElem?_insert_self]
      rw [uptoEmptyDcep]
      simp only [List.cons_append, allPresent_cons, allPresent_append]
      rw [and_iff_right (use_present hs₁), and_iff_right (messageUses_present msg s₁)]
      by_cases hempty : msg.EmptyDcep
      · rw [if_pos hempty, onUserMessage_eq_none.mpr hempty]
        simp
      rw [if_neg hempty, List.forall_mem_cons]
      obtain ⟨s₂, h₂⟩ := Option.ne_none_iff_exists'.mp
        (fun h => hempty (onUserMessage_eq_none.mp h) : s₁.onUserMessage now msg ≠ none)
      rw [h₂]
      have hgone := onUserMessage_stream h₂ hs₁
      by_cases hc : msg.closes sid = true
      · -- the condition of the next round reads the erased entry
        obtain ⟨k, rfl⟩ : ∃ k, n = k + 1 := ⟨n - 1, by omega⟩
        refine iff_of_false (fun h => ?_) fun h => h.1 hc
        simp only [drainUses, allPresent_cons, use_absent (hgone.mpr hc)] at h
        cases h.1
      · obtain ⟨st, hst⟩ := Option.ne_none_iff_exists'.mp (fun h => hc (hgone.mp h))
        obtain ⟨st', hst', hsame⟩ := onUserMessage_inbox h₂ hst
        obtain rfl : stream' = st' := Option.some.inj (hs₁.symm.trans hst')
        rw [ih hst (hsame.messages ▸ hsize), readyLoop_congr hsame, and_iff_right hc]

theorem callUses_present_iff (s : Association) (c : StreamCall) :
    AllPresent (s.callUses c) ↔ s.CallOk c := by
  cases c with
  | data now flags chunk =>
    have hfind : ((s.setStreams (s.streams.insert chunk.streamId
        (s.receive now flags chunk).1)).streams)[chunk.streamId]? =
        some (s.receive now flags chunk).1 := Std.ExtTreeMap.getElem?_insert_self
    rw [callUses, insertUses, allPresent_cons, and_iff_right (use_present hfind),
      drainUses_present_iff hfind (Nat.lt_succ_self _)]
    rfl
  | close sid =>
    rw [callUses, closeUses, CallOk]
    have hp : (s.use sid).present = true ↔ sid ∈ s.streams := Std.ExtTreeMap.contains_iff_mem
    split_ifs with h
    · simp [hp, h]
    · simp [hp, h]

theorem runUses_present_iff (s : Association) (cs : List StreamCall) :
    AllPresent (s.runUses cs) ↔ RunOk takeCall CallOk s cs := by
  induction cs generalizing s with
  | nil => simp [runUses]
  | cons c cs ih =>
    rw [runUses, allPresent_append, callUses_present_iff, RunOk]
    refine and_congr_right fun _ => ?_
    rcases hc : s.takeCall c with _ | r
    · simp
    · simp only [ih, Option.some.injEq, forall_eq']

/-! ### The callbacks for closed streams -/

/-- How often the callback for a closed stream was called for `sid`. -/
def closings (sid : UInt16) (s : Association) : ℕ := s.events.count (.streamClosed sid)

/-- 1 if the stream is in the table, else 0. -/
def standing (sid : UInt16) (s : Association) : ℕ := if sid ∈ s.streams then 1 else 0

/-- The two balance: a stream that leaves the table is told about once. -/
def Balanced (s s' : Association) : Prop :=
  ∀ sid, s'.closings sid + s'.standing sid = s.closings sid + s.standing sid

theorem Balanced.refl (s : Association) : Balanced s s := fun _ => rfl

theorem Balanced.trans {s'' : Association} (h : Balanced s s') (h' : Balanced s' s'') :
    Balanced s s'' := fun sid => (h' sid).trans (h sid)

/-- Nothing is told about closed streams, and the same streams are in the table. -/
theorem balanced_of_same (es : List Event) (hes : ∀ e ∈ es, ∀ k, e ≠ .streamClosed k)
    (hevents : s'.events = s.events ++ es) (hmem : ∀ k, k ∈ s'.streams ↔ k ∈ s.streams) :
    Balanced s s' := by
  intro k
  have hcount : es.count (.streamClosed k) = 0 :=
    List.count_eq_zero.mpr fun h => hes _ h k rfl
  rw [closings, closings, hevents, List.count_append, hcount, standing, standing]
  simp only [hmem, Nat.add_zero]

theorem says_ne_closed {chunk : Chunk} {e : Event} (h : Says chunk e) (k : UInt16) :
    e ≠ .streamClosed k := by
  obtain ⟨_, _, -, rfl⟩ := h
  intro he
  cases he

theorem balanced_sendSack (msg : Message) (s : Association) : Balanced s (s.sendSack msg) := by
  obtain ⟨es, hes, hsaid⟩ := sendSack_spec msg s
  exact balanced_of_same es (fun e he => says_ne_closed (hsaid e he)) (by rw [hes]; rfl)
    (by rw [hes]; exact fun _ => Iff.rfl)

theorem balanced_streamSend (now : ℤ) (sid : UInt16) (data : List UInt8) (ppid : Ppid)
    (s : Association) : Balanced s (s.streamSend now sid data ppid).1 := by
  cases hs : s.streams[sid]? with
  | none =>
    rw [streamSend_of_none now data ppid hs]
    exact Balanced.refl s
  | some stream =>
    obtain ⟨es, hes, hsaid⟩ := streamSend_spec now sid data ppid hs
    refine balanced_of_same es (fun e he => ?_) (by rw [hes]; rfl) fun k => ?_
    · obtain ⟨f, -, hf⟩ := hsaid e he
      exact says_ne_closed hf
    · rw [hes]
      exact mem_insert_of_find hs _ k

/-- A stream that is told about once and erased. -/
theorem balanced_erase {es : List Event} (hs : s.streams[sid]? = some stream)
    (hevents : s'.events = s.events ++ es)
    (hes : ∀ k, es.count (.streamClosed k) = if sid = k then 1 else 0)
    (herase : s'.streams = s.streams.erase sid) : Balanced s s' := by
  intro k
  have hmem : sid ∈ s.streams := Std.ExtTreeMap.mem_iff_isSome_getElem?.mpr (hs ▸ rfl)
  rw [closings, closings, hevents, List.count_append, hes, standing, standing, herase]
  simp only [Std.ExtTreeMap.mem_erase, Ne, Std.LawfulEqCmp.compare_eq_iff_eq]
  by_cases hk : sid = k
  · subst hk
    simp [hmem]
  · simp [hk]

theorem count_closed_said {es : List Event} {chunks : List Fragment}
    (hsaid : ∀ e ∈ es, ∃ f ∈ chunks, Says (dataChunk f) e) (k : UInt16) :
    es.count (.streamClosed k) = 0 := by
  refine List.count_eq_zero.mpr fun h => ?_
  obtain ⟨f, -, hf⟩ := hsaid _ h
  exact says_ne_closed hf k rfl

theorem balanced_closeEntry (hs : s.streams[sid]? = some stream) :
    Balanced s (setStreams (s.streams.erase sid) (s.closeEntry true (sid, stream))) := by
  obtain ⟨es, hes, hsaid⟩ := sendFragments_spec (stream.close s.localTsn).2.2
    ((s.emit (.streamClosed sid)).setTsn (stream.close s.localTsn).2.1)
  have hclose : s.closeEntry true (sid, stream) = sendFragments (stream.close s.localTsn).2.2
      ((s.emit (.streamClosed sid)).setTsn (stream.close s.localTsn).2.1) := rfl
  have hevents : (setStreams (s.streams.erase sid) (s.closeEntry true (sid, stream))).events =
      s.events ++ ([.streamClosed sid] ++ es) := by
    rw [setStreams_events, hclose, hes, ← List.append_assoc]
    rfl
  refine balanced_erase hs hevents (fun k => ?_) rfl
  rw [List.count_append, count_closed_said hsaid, List.count_singleton]
  simp only [beq_iff_eq, Event.streamClosed.injEq, Nat.add_zero]

theorem balanced_closeStream (h : s.closeStream sid = some s') : Balanced s s' := by
  cases hs : s.streams[sid]? with
  | none =>
    rw [closeStream, hs] at h
    cases h
  | some stream =>
    obtain ⟨es, hes, hsaid⟩ := closeStream_spec hs
    obtain rfl := Option.some.inj (hes.symm.trans h)
    have hevents : (setStreams (s.streams.erase sid) (emit (.streamClosed sid)
        (say es (s.setTsn (stream.close s.localTsn).2.1)))).events =
        s.events ++ (es ++ [.streamClosed sid]) := List.append_assoc _ _ _
    refine balanced_erase hs hevents (fun k => ?_) rfl
    rw [List.count_append, count_closed_said hsaid, List.count_singleton]
    simp only [beq_iff_eq, Event.streamClosed.injEq, Nat.zero_add]

theorem balanced_onUserMessage (h : s.onUserMessage now msg = some s') : Balanced s s' := by
  have htell (e : Event) (he : ∀ k, e ≠ .streamClosed k) : Balanced s (s.emit e) :=
    balanced_of_same [e] (List.forall_mem_singleton.mpr he) rfl fun _ => Iff.rfl
  rw [onUserMessage] at h
  split at h
  · exact Option.some.inj h ▸ Balanced.refl s
  · simp only at h
    split_ifs at h
    · rw [onDcepMessage] at h
      split at h
      · exact Option.some.inj h ▸ Balanced.refl s
      · cases h
      · split_ifs at h
        · split at h
          · exact Option.some.inj h ▸ Balanced.refl s
          · obtain rfl := Option.some.inj h
            have hsend := balanced_streamSend now msg.streamId [dcepAck] Ppid.dcep s
            refine hsend.trans (balanced_of_same [.streamOpened msg.streamId] ?_ rfl
              fun _ => Iff.rfl)
            exact List.forall_mem_singleton.mpr fun _ he => by cases he
        · exact Option.some.inj h ▸ htell _ fun _ he => by cases he
        · exact Option.some.inj h ▸ Balanced.refl s
    · split at h
      · exact Option.some.inj h ▸ Balanced.refl s
      · next stream hs => exact Option.some.inj h ▸ balanced_closeEntry hs
    · split at h
      · exact Option.some.inj h ▸ Balanced.refl s
      · exact Option.some.inj h ▸ htell _ fun _ he => by cases he
    · exact Option.some.inj h ▸ Balanced.refl s

/-- A call opens streams, and everything else about it balances. -/
theorem takeCall_balanced {c : StreamCall} {opened : List UInt16}
    (h : s.takeCall c = some (s', opened)) (sid : UInt16) : s'.closings sid + s'.standing sid =
      s.closings sid + s.standing sid + opened.count sid := by
  cases c with
  | data now flags chunk =>
    obtain ⟨t, ht, heq⟩ := Option.map_eq_some_iff.mp h
    obtain ⟨rfl, rfl⟩ := Prod.mk.inj heq
    let stream := (s.receive now flags chunk).1
    let start := s.setStreams (s.streams.insert chunk.streamId stream)
    have hfind : start.streams[chunk.streamId]? = some stream :=
      Std.ExtTreeMap.getElem?_insert_self
    have hround (u u' : Association) (msg : Message) (hu : Balanced start u)
        (hr : Round now chunk.streamId u u' msg) : Balanced start u' := by
      obtain ⟨st, st', hst, -, hmsg⟩ := hr
      have hput : Balanced u (u.setStreams (u.streams.insert chunk.streamId st')) :=
        balanced_of_same [] (List.forall_mem_nil _) (by simp) (mem_insert_of_find hst st')
      exact ((hu.trans hput).trans (balanced_sendSack msg _)).trans (balanced_onUserMessage hmsg)
    have hready : ∀ msg ∈ readyLoop (stream.messages.size + 1) stream, True :=
      fun _ _ => trivial
    have hdrain : Balanced start t :=
      drain_induct (fun u u' msg hu _ hr => hround u u' msg hu hr) (Balanced.refl start) hfind
        hready ht
    rw [hdrain sid, opens]
    have hclosings : start.closings sid = s.closings sid := rfl
    have hstanding : start.standing sid =
        if chunk.streamId = sid ∨ sid ∈ s.streams then 1 else 0 := by
      rw [standing]
      simp only [start, setStreams_streams, Std.ExtTreeMap.mem_insert,
        Std.LawfulEqCmp.compare_eq_iff_eq]
    rw [hclosings, hstanding, standing]
    by_cases hid : chunk.streamId = sid
    · subst hid
      by_cases hmem : chunk.streamId ∈ s.streams <;> simp [hmem]
    · by_cases hmem : chunk.streamId ∈ s.streams <;> simp [hmem, hid]
  | close k =>
    obtain ⟨t, ht, heq⟩ := Option.map_eq_some_iff.mp h
    obtain ⟨rfl, rfl⟩ := Prod.mk.inj heq
    exact balanced_closeStream ht sid

/-- The callback is not called more often than the stream was in the table before or
opened since. -/
theorem closings_le {cs : List StreamCall} {opened : List UInt16}
    (h : run takeCall s cs = some (s', opened)) (sid : UInt16) :
    s'.closings sid ≤ s.closings sid + s.standing sid + opened.count sid := by
  have hinv := run_relation
    (fun (t : Association) out =>
      t.closings sid + t.standing sid = s.closings sid + s.standing sid + out.count sid)
    (fun t out c t' o ht hc => ?_) [] rfl h
  · rw [List.nil_append] at hinv
    omega
  · rw [takeCall_balanced hc sid, ht, List.count_append]
    omega

/-- Entries are only used while they are in the table, and the callback is called at
most once for a stream that was in the table before or was opened since. -/
def TableSafe (s : Association) (cs : List StreamCall) : Prop :=
  AllPresent (s.runUses cs) ∧
    ∀ pre, pre <+: cs → ∀ t opened, run takeCall s pre = some (t, opened) → ∀ sid,
      t.closings sid ≤ s.closings sid + s.standing sid + opened.count sid

/-- The table is used safely exactly if no DATA chunk completes a message that closes
the stream being read, and only streams that are there are closed. -/
theorem stream_table_iff (s : Association) (cs : List StreamCall) :
    s.TableSafe cs ↔ RunOk takeCall CallOk s cs := by
  rw [TableSafe, runUses_present_iff]
  exact and_iff_left fun pre _ t opened h sid => closings_le h sid

/-- The association of the failing calls, and a chunk that tells it to close a stream. -/
private def fresh : Association := opened 0 5000 [1, 2, 3, 4] 7 100

private def closingChunk : DataChunk := ⟨100, 1, 0, Ppid.emptyString, [0]⟩

/-- The end iterator is erased for an unknown stream, and an entry is read after a
message had it erased. -/
theorem stream_table_unsafe :
    ¬ fresh.TableSafe [.close 1] ∧
      ¬ fresh.TableSafe [.data 0 (flagsBegin ||| flagsEnd) closingChunk] := by
  constructor
  · intro h
    have hclose := h.1
    revert hclose
    decide
  · intro h
    have hdata := h.1
    revert hdata
    decide +kernel

end Association

end CxxDeps.Sctp
