import CxxDeps.Sctp.Association

/-! What the operations of an association do to it. Sending only adds events, so
every operation is a change of fields followed by `say`, and the rules below say
which events those can be. -/

namespace CxxDeps.Sctp

open Library

/-- The event is the packet of this one chunk, handed to the socket. -/
def Says (chunk : Chunk) (e : Event) : Prop :=
  ∃ header buf, signCrc32 (Packet.serialize ⟨header, [chunk]⟩) = some buf ∧ e = .sendData buf

theorem Says.ne_connected {chunk : Chunk} {e : Event} (h : Says chunk e) : e ≠ .connected := by
  obtain ⟨_, _, -, rfl⟩ := h
  exact nofun

/-- The chunk of a fragment. -/
def dataChunk (f : Fragment) : Chunk := { type := .data, flags := f.1, payload := f.2.serialize }

/-- The SACK of a message. -/
def sackOf (msg : Message) : SackChunk :=
  ⟨msg.calcGaps.cumulativeTsn, localArwnd, msg.calcGaps.gaps, msg.calcGaps.dups.toList⟩

def sackChunk (sack : SackChunk) : Chunk :=
  { type := .sack, flags := flagsUnordered, payload := sack.serialize }

namespace Association

/-- The association after some more events. -/
def say (es : List Event) (s : Association) : Association := { s with events := s.events ++ es }

section

variable (es es' : List Event) (s : Association)

@[simp] theorem say_nil : s.say [] = s := by simp [say]

@[simp] theorem say_say : (s.say es).say es' = s.say (es ++ es') := by simp [say]

@[simp] theorem say_events : (s.say es).events = s.events ++ es := rfl

@[simp] theorem say_active : (s.say es).active = s.active := rfl

@[simp] theorem say_state : (s.say es).state = s.state := rfl

@[simp] theorem say_streams : (s.say es).streams = s.streams := rfl

@[simp] theorem say_localTsn : (s.say es).localTsn = s.localTsn := rfl

@[simp] theorem say_localCookie : (s.say es).localCookie = s.localCookie := rfl

@[simp] theorem say_localPort : (s.say es).localPort = s.localPort := rfl

@[simp] theorem setTsn_say (tsn : UInt32) : (s.say es).setTsn tsn = (s.setTsn tsn).say es := rfl

@[simp] theorem setTsn_setTsn (tsn tsn' : UInt32) : (s.setTsn tsn).setTsn tsn' = s.setTsn tsn' :=
  rfl

theorem emit_eq_say (e : Event) : s.emit e = s.say [e] := rfl

end

/-! ### Sending -/

theorem send_spec (type : ChunkType) (flags : ChunkFlags) (payload : List UInt8)
    (s : Association) :
    ∃ es, s.send type flags payload = s.say es ∧ ∀ e ∈ es, Says { type, flags, payload } e := by
  unfold send sendData
  split
  · exact ⟨[], by simp, by simp⟩
  · next buf h =>
    refine ⟨[.sendData buf], rfl, ?_⟩
    intro e he
    rw [List.mem_singleton.mp he]
    exact ⟨_, _, h, rfl⟩

theorem sendSack_spec (msg : Message) (s : Association) :
    ∃ es, s.sendSack msg = s.say es ∧ ∀ e ∈ es, Says (sackChunk (sackOf msg)) e :=
  send_spec .sack flagsUnordered (sackOf msg).serialize s

theorem sendFragments_spec (chunks : List Fragment) (s : Association) :
    ∃ es, s.sendFragments chunks = s.say es ∧
      ∀ e ∈ es, ∃ f ∈ chunks, Says (dataChunk f) e := by
  induction chunks generalizing s with
  | nil => exact ⟨[], by simp [sendFragments], by simp⟩
  | cons f chunks ih =>
    obtain ⟨es, hes, hsaid⟩ := send_spec .data f.1 f.2.serialize s
    obtain ⟨es', hes', hsaid'⟩ := ih (s.say es)
    refine ⟨es ++ es', ?_, ?_⟩
    · rw [sendFragments, List.foldl_cons, hes, ← say_say, ← hes']
      rfl
    · intro e he
      rcases List.mem_append.mp he with he | he
      · exact ⟨f, List.mem_cons_self, hsaid e he⟩
      · obtain ⟨g, hg, hsaidg⟩ := hsaid' e he
        exact ⟨g, List.mem_cons_of_mem f hg, hsaidg⟩

/-- A stream that sends a message is replaced, and its chunks go out. -/
theorem streamSend_spec (now : ℤ) (sid : UInt16) (data : List UInt8) (ppid : Ppid)
    {s : Association} {stream : Stream} (h : s.streams[sid]? = some stream) :
    let r := stream.send now s.localTsn data ppid
    ∃ es, (s.streamSend now sid data ppid).1 =
        say es ((s.setTsn r.2.1).setStreams (s.streams.insert sid r.1)) ∧
      ∀ e ∈ es, ∃ f ∈ r.2.2.1, Says (dataChunk f) e := by
  intro r
  obtain ⟨es, hes, hsaid⟩ := sendFragments_spec r.2.2.1
    ((s.setTsn r.2.1).setStreams (s.streams.insert sid r.1))
  refine ⟨es, ?_, hsaid⟩
  rw [streamSend, h]
  exact hes

theorem streamSend_of_none (now : ℤ) {sid : UInt16} (data : List UInt8) (ppid : Ppid)
    {s : Association} (h : s.streams[sid]? = none) : (s.streamSend now sid data ppid).1 = s := by
  rw [streamSend, h]

theorem mem_insert_of_find {sid : UInt16} {s : Association} {stream : Stream}
    (h : s.streams[sid]? = some stream) (st : Stream) (k : UInt16) :
    k ∈ s.streams.insert sid st ↔ k ∈ s.streams := by
  rw [Std.ExtTreeMap.mem_insert, Std.LawfulEqCmp.compare_eq_iff_eq]
  refine ⟨?_, .inr⟩
  rintro (rfl | hk)
  · exact Std.ExtTreeMap.mem_iff_isSome_getElem?.mpr (h ▸ rfl)
  · exact hk

theorem mem_streamSend (now : ℤ) (sid : UInt16) (data : List UInt8) (ppid : Ppid)
    (s : Association) (k : UInt16) :
    k ∈ (s.streamSend now sid data ppid).1.streams ↔ k ∈ s.streams := by
  cases h : s.streams[sid]? with
  | none => rw [streamSend_of_none now data ppid h]
  | some stream =>
    obtain ⟨es, hes, -⟩ := streamSend_spec now sid data ppid h
    rw [hes]
    exact mem_insert_of_find h _ k

/-- A stream that is closed is told about and erased. -/
theorem closeStream_spec {sid : UInt16} {s : Association} {stream : Stream}
    (h : s.streams[sid]? = some stream) :
    ∃ es, s.closeStream sid =
        some (setStreams (s.streams.erase sid) (emit (.streamClosed sid)
          (say es (s.setTsn (stream.close s.localTsn).2.1)))) ∧
      ∀ e ∈ es, ∃ f ∈ (stream.close s.localTsn).2.2, Says (dataChunk f) e := by
  obtain ⟨es, hes, hsaid⟩ := sendFragments_spec (stream.close s.localTsn).2.2
    (s.setTsn (stream.close s.localTsn).2.1)
  refine ⟨es, ?_, hsaid⟩
  rw [closeStream, h]
  exact congrArg (fun t => some (setStreams (s.streams.erase sid) (emit (.streamClosed sid) t))) hes

/-- The event tells that a stream is closed: the application, or the other end. -/
def Closes (e : Event) : Prop :=
  (∃ sid, e = .streamClosed sid) ∨
    ∃ stream : Stream, ∃ tsn, ∃ f ∈ (stream.close tsn).2.2, Says (dataChunk f) e

theorem closeEntry_spec (announce : Bool) (s : Association) (entry : UInt16 × Stream) :
    ∃ tsn es, s.closeEntry announce entry = say es (s.setTsn tsn) ∧ ∀ e ∈ es, Closes e := by
  obtain ⟨es, hes, hsaid⟩ := sendFragments_spec (entry.2.close s.localTsn).2.2
    (setTsn (entry.2.close s.localTsn).2.1 (if announce then s.emit (.streamClosed entry.1) else s))
  have hcloses : ∀ e ∈ es, Closes e := by
    intro e he
    obtain ⟨f, hf, hsaidf⟩ := hsaid e he
    exact .inr ⟨_, _, f, hf, hsaidf⟩
  cases announce with
  | false => exact ⟨_, es, hes, hcloses⟩
  | true =>
    refine ⟨(entry.2.close s.localTsn).2.1, [.streamClosed entry.1] ++ es, ?_, ?_⟩
    · rw [← say_say]
      exact hes
    · intro e he
      rcases List.mem_append.mp he with he | he
      · exact .inl ⟨entry.1, List.mem_singleton.mp he⟩
      · exact hcloses e he

theorem closeStreams_spec (announce : Bool) (s : Association) :
    ∃ tsn es, s.closeStreams announce = say es ((s.setTsn tsn).setStreams ∅) ∧
      ∀ e ∈ es, Closes e := by
  have hfold (l : List (UInt16 × Stream)) (s : Association) :
      ∃ tsn es, l.foldl (closeEntry announce) s = say es (s.setTsn tsn) ∧
        ∀ e ∈ es, Closes e := by
    induction l generalizing s with
    | nil => exact ⟨s.localTsn, [], by simp [setTsn], by simp⟩
    | cons entry l ih =>
      obtain ⟨tsn, es, hs, hes⟩ := closeEntry_spec announce s entry
      obtain ⟨tsn', es', hs', hes'⟩ := ih (s.closeEntry announce entry)
      refine ⟨tsn', es ++ es', ?_, ?_⟩
      · rw [List.foldl_cons, hs', hs, ← say_say]
        simp
      · intro e he
        rcases List.mem_append.mp he with he | he
        · exact hes e he
        · exact hes' e he
  obtain ⟨tsn, es, hs, hes⟩ := hfold s.streams.toList s
  exact ⟨tsn, es, by rw [closeStreams, hs]; rfl, hes⟩

end Association

/-! ### The loop over the messages that are ready -/

/-- The messages that `next_message` hands out one after the other. -/
def readyLoop : ℕ → Stream → List Message
  | 0, _ => []
  | n + 1, stream =>
    match stream.nextMessage with
    | none => []
    | some (msg, stream) => msg :: readyLoop n stream

/-- Two streams with the same received messages and the same next one. -/
structure SameInbox (stream stream' : Stream) : Prop where
  messages : stream'.messages = stream.messages
  nextRecvSsn : stream'.nextRecvSsn = stream.nextRecvSsn

theorem SameInbox.refl (stream : Stream) : SameInbox stream stream := ⟨rfl, rfl⟩

theorem SameInbox.trans {st st' st'' : Stream} (h : SameInbox st st') (h' : SameInbox st' st'') :
    SameInbox st st'' :=
  ⟨h'.messages.trans h.messages, h'.nextRecvSsn.trans h.nextRecvSsn⟩

/-- What `next_message` takes, and what it leaves. -/
theorem Stream.nextMessage_eq_some {stream stream' : Stream} {msg : Message}
    (h : stream.nextMessage = some (msg, stream')) :
    stream.messages[stream.nextRecvSsn]? = some msg ∧ msg.isCompleted ∧
      stream' = { stream with
        messages := stream.messages.erase stream.nextRecvSsn
        nextRecvSsn := stream.nextRecvSsn + 1 } := by
  rw [nextMessage] at h
  split at h
  · cases h
  · next m hm =>
    split at h
    · next hc =>
      obtain ⟨rfl, rfl⟩ := Prod.mk.inj (Option.some.inj h)
      exact ⟨hm, hc, rfl⟩
    · cases h

theorem readyLoop_congr {stream stream' : Stream} (h : SameInbox stream stream') (n : ℕ) :
    readyLoop n stream' = readyLoop n stream := by
  induction n generalizing stream stream' with
  | zero => rfl
  | succ n ih =>
    simp only [readyLoop, Stream.nextMessage, h.messages, h.nextRecvSsn]
    cases stream.messages[stream.nextRecvSsn]? with
    | none => rfl
    | some msg =>
      by_cases hc : msg.isCompleted
      · simp only [hc, if_true]
        exact congrArg (msg :: ·) (ih ⟨rfl, rfl⟩)
      · simp [hc]

/-- The messages that a DATA chunk makes ready. -/
def Association.readyMessages (now : ℤ) (flags : ChunkFlags) (chunk : DataChunk)
    (s : Association) : List Message :=
  let stream := (s.receive now flags chunk).1
  readyLoop (stream.messages.size + 1) stream

theorem Stream.saveSentMessage_inbox (now : ℤ) (stream : Stream) (f : Fragment) :
    SameInbox stream (stream.saveSentMessage now f) := ⟨rfl, rfl⟩

theorem Stream.send_inbox (now : ℤ) (tsn : UInt32) (data : List UInt8) (ppid : Ppid)
    (stream : Stream) : SameInbox stream (stream.send now tsn data ppid).1 := by
  have hfold (l : List Fragment) (st : Stream) :
      SameInbox st (l.foldl (Stream.saveSentMessage now) st) := by
    induction l generalizing st with
    | nil => exact SameInbox.refl st
    | cons f l ih => exact (st.saveSentMessage_inbox now f).trans (ih _)
  rw [send]
  split
  · exact SameInbox.refl stream
  · exact ⟨(hfold _ _).messages, (hfold _ _).nextRecvSsn⟩

namespace Association

theorem streamSend_inbox (now : ℤ) (sid sid' : UInt16) (data : List UInt8) (ppid : Ppid)
    {s : Association} {stream : Stream}
    (h : (s.streamSend now sid data ppid).1.streams[sid']? = some stream) :
    ∃ st, s.streams[sid']? = some st ∧ SameInbox st stream := by
  cases hs : s.streams[sid]? with
  | none =>
    rw [streamSend_of_none now data ppid hs] at h
    exact ⟨stream, h, SameInbox.refl stream⟩
  | some st =>
    obtain ⟨es, hes, -⟩ := streamSend_spec now sid data ppid hs
    rw [hes, say_streams, setStreams_streams, Std.ExtTreeMap.getElem?_insert] at h
    split at h
    · next heq =>
      obtain rfl := Std.LawfulEqCmp.compare_eq_iff_eq.mp heq
      exact ⟨st, hs, Option.some.inj h ▸ st.send_inbox now _ data ppid⟩
    · exact ⟨stream, h, SameInbox.refl stream⟩

/-- A message for the user does not touch what the streams have received. -/
theorem onUserMessage_inbox {now : ℤ} {msg : Message} {s s' : Association} {sid : UInt16}
    {stream : Stream} (h : s.onUserMessage now msg = some s')
    (hs : s'.streams[sid]? = some stream) :
    ∃ st, s.streams[sid]? = some st ∧ SameInbox st stream := by
  have hsame (heq : s'.streams = s.streams) :
      ∃ st, s.streams[sid]? = some st ∧ SameInbox st stream :=
    ⟨stream, heq ▸ hs, SameInbox.refl stream⟩
  rw [onUserMessage] at h
  split at h
  · exact hsame (Option.some.inj h ▸ rfl)
  · simp only at h
    split_ifs at h
    · rw [onDcepMessage] at h
      split at h
      · exact hsame (Option.some.inj h ▸ rfl)
      · cases h
      · split_ifs at h
        · split at h
          · exact hsame (Option.some.inj h ▸ rfl)
          · obtain rfl := Option.some.inj h
            exact streamSend_inbox now msg.streamId sid [dcepAck] Ppid.dcep hs
        · exact hsame (Option.some.inj h ▸ rfl)
        · exact hsame (Option.some.inj h ▸ rfl)
    · split at h
      · exact hsame (Option.some.inj h ▸ rfl)
      · obtain rfl := Option.some.inj h
        rw [setStreams_streams, Std.ExtTreeMap.getElem?_erase] at hs
        split at hs
        · cases hs
        · exact ⟨stream, hs, SameInbox.refl stream⟩
    · split at h
      · exact hsame (Option.some.inj h ▸ rfl)
      · exact hsame (Option.some.inj h ▸ rfl)
    · exact hsame (Option.some.inj h ▸ rfl)

section

variable {now : ℤ} {sid : UInt16} {s : Association} {stream stream' : Stream} {msg : Message}

theorem drain_idle (n : ℕ) (hs : s.streams[sid]? = some stream) (h : stream.nextMessage = none) :
    drain now sid (n + 1) s = some s := by
  simp only [drain, hs, h]

theorem drain_round (n : ℕ) (hs : s.streams[sid]? = some stream)
    (h : stream.nextMessage = some (msg, stream')) :
    drain now sid (n + 1) s =
      (onUserMessage now msg (sendSack msg (s.setStreams (s.streams.insert sid stream')))).bind
        (drain now sid n) := by
  simp only [drain, hs, h]
  rfl

end

/-- One round of the loop: a message is taken out of the stream, acknowledged and
handled. -/
def Round (now : ℤ) (sid : UInt16) (s s' : Association) (msg : Message) : Prop :=
  ∃ stream stream', s.streams[sid]? = some stream ∧ stream.nextMessage = some (msg, stream') ∧
    onUserMessage now msg (sendSack msg (s.setStreams (s.streams.insert sid stream'))) = some s'

/-- The loop is its rounds, one for each message that is ready. What every round
keeps, the loop keeps. -/
theorem drain_induct {now : ℤ} {sid : UInt16} {Inv : Association → Prop} {P : Message → Prop}
    (hround : ∀ s s' msg, Inv s → P msg → Round now sid s s' msg → Inv s') {n : ℕ}
    {s s' : Association} {stream : Stream} (hs : Inv s) (hstream : s.streams[sid]? = some stream)
    (hP : ∀ msg ∈ readyLoop n stream, P msg) (h : drain now sid n s = some s') : Inv s' := by
  induction n generalizing s stream with
  | zero => exact Option.some.inj h ▸ hs
  | succ n ih =>
    rw [readyLoop] at hP
    cases hnext : stream.nextMessage with
    | none =>
      rw [drain_idle n hstream hnext] at h
      exact Option.some.inj h ▸ hs
    | some r =>
      obtain ⟨msg, stream'⟩ := r
      simp only [hnext] at hP
      rw [drain_round n hstream hnext] at h
      obtain ⟨s₁, h₁, h⟩ := Option.bind_eq_some_iff.mp h
      have hs₁ := hround s s₁ msg hs (hP msg List.mem_cons_self)
        ⟨stream, stream', hstream, hnext, h₁⟩
      cases hst : s₁.streams[sid]? with
      | none =>
        -- the stream was erased, so there is no next round
        cases n with
        | zero => exact Option.some.inj h ▸ hs₁
        | succ n =>
          rw [drain, hst] at h
          cases h
      | some st =>
        obtain ⟨st₀, hst₀, hsame⟩ := onUserMessage_inbox h₁ hst
        obtain ⟨es, hes, -⟩ := sendSack_spec msg (s.setStreams (s.streams.insert sid stream'))
        rw [hes, say_streams, setStreams_streams, Std.ExtTreeMap.getElem?_insert_self] at hst₀
        obtain rfl := Option.some.inj hst₀
        refine ih hs₁ hst (fun m hm => hP m (List.mem_cons_of_mem msg ?_)) h
        rwa [readyLoop_congr hsame] at hm

/-- A round on a message that can be handled ends, and so the loop does. -/
theorem drain_exists {now : ℤ} {sid : UInt16} {Inv : Association → Prop} {P : Message → Prop}
    (hround : ∀ s msg stream stream', Inv s → P msg → s.streams[sid]? = some stream →
      stream.nextMessage = some (msg, stream') →
      ∃ s', onUserMessage now msg (sendSack msg (s.setStreams (s.streams.insert sid stream'))) =
        some s' ∧ Inv s' ∧ sid ∈ s'.streams)
    {n : ℕ} {s : Association} {stream : Stream} (hs : Inv s)
    (hstream : s.streams[sid]? = some stream) (hP : ∀ msg ∈ readyLoop n stream, P msg) :
    ∃ s', drain now sid n s = some s' ∧ Inv s' := by
  induction n generalizing s stream with
  | zero => exact ⟨s, rfl, hs⟩
  | succ n ih =>
    rw [readyLoop] at hP
    cases hnext : stream.nextMessage with
    | none => exact ⟨s, drain_idle n hstream hnext, hs⟩
    | some r =>
      obtain ⟨msg, stream'⟩ := r
      simp only [hnext] at hP
      obtain ⟨s₁, h₁, hs₁, hmem⟩ := hround s msg stream stream' hs (hP msg List.mem_cons_self)
        hstream hnext
      obtain ⟨st, hst⟩ : ∃ st, s₁.streams[sid]? = some st :=
        ⟨_, Std.ExtTreeMap.getElem?_eq_some_getElem hmem⟩
      obtain ⟨st₀, hst₀, hsame⟩ := onUserMessage_inbox h₁ hst
      obtain ⟨es, hes, -⟩ := sendSack_spec msg (s.setStreams (s.streams.insert sid stream'))
      rw [hes, say_streams, setStreams_streams, Std.ExtTreeMap.getElem?_insert_self] at hst₀
      obtain rfl := Option.some.inj hst₀
      obtain ⟨s₂, h₂, hs₂⟩ := ih hs₁ hst fun m hm =>
        hP m (List.mem_cons_of_mem msg (readyLoop_congr hsame n ▸ hm))
      exact ⟨s₂, by rw [drain_round n hstream hnext, h₁]; exact h₂, hs₂⟩

end Association

end CxxDeps.Sctp
