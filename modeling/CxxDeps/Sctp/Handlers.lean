import CxxDeps.Sctp.Effects

/-! What the handlers of chunks, the timers and the calls of the application can do, said
once. They change fields, say chunks, make callbacks, and connect or close the
association. A relation that each of these respects is respected by all of them. -/

namespace CxxDeps.Sctp

open Library

/-- The chunks that end the association. -/
def ChunkType.Ends : ChunkType → Prop
  | .abort => True
  | .shutdown => True
  | .shutdownAck => True
  | .operationalError => True
  | _ => False

/-- What is said on a cause, which is the type of the chunk that is handled, or none for a
timer or a call. The SACKs are those of the messages. -/
def Answers (cause : Option ChunkType) (msgs : List Message) (chunk : Chunk) : Prop :=
  match chunk.type with
  | .data => True
  | .sack => ∃ msg ∈ msgs, chunk = sackChunk (sackOf msg)
  | .init => cause = none
  | .heartbeat => cause = none
  | .initAck => cause = some .init
  | .cookieEcho => cause = some .initAck
  | .cookieAck => cause = some .cookieEcho
  | .shutdownAck => cause = some .shutdown
  | .operationalError => cause ≠ none
  | _ => False

theorem Answers.named {cause : Option ChunkType} {msgs : List Message} {chunk : Chunk}
    (h : Answers cause msgs chunk) : chunk.type.Named := by
  unfold Answers at h
  cases ht : chunk.type with
  | unnamed b => simp [ht] at h
  | _ => trivial

/-- The relation is respected by what is done on the cause, apart from connecting. -/
structure Respects (cause : Option ChunkType) (msgs : List Message)
    (R : Association → Association → Prop) : Prop where
  refl : ∀ s, R s s
  trans : ∀ {s s' s''}, R s s' → R s' s'' → R s s''
  quiet : ∀ {s s'}, s'.events = s.events → s'.state = s.state → R s s'
  say : ∀ {chunk : Chunk} {es : List Event} (s), Answers cause msgs chunk →
    (∀ e ∈ es, Says chunk e) → R s (s.say es)
  tell : ∀ {e : Event} (s), (∀ data, e ≠ .sendData data) → e ≠ .connected → R s (s.emit e)
  close : ∀ {t : ChunkType}, cause = some t → t.Ends → ∀ (now : ℤ) (s),
    R s (s.setState now .closed)

namespace Respects

open Association

variable {cause : Option ChunkType} {msgs : List Message} {R : Association → Association → Prop}
  {s s' : Association}

theorem setStreams (h : Respects cause msgs R) (streams : Streams) (s : Association) :
    R s (s.setStreams streams) := h.quiet rfl rfl

theorem setTsn (h : Respects cause msgs R) (tsn : UInt32) (s : Association) : R s (s.setTsn tsn) :=
  h.quiet rfl rfl

theorem send (h : Respects cause msgs R) {type : ChunkType} {flags : ChunkFlags}
    {payload : List UInt8} (s : Association) (ha : Answers cause msgs { type, flags, payload }) :
    R s (s.send type flags payload) := by
  obtain ⟨es, hes, hsaid⟩ := send_spec type flags payload s
  rw [hes]
  exact h.say s ha hsaid

theorem sendSack (h : Respects cause msgs R) {msg : Message} (hm : msg ∈ msgs) (s : Association) :
    R s (s.sendSack msg) := by
  obtain ⟨es, hes, hsaid⟩ := sendSack_spec msg s
  have ha : Answers cause msgs (sackChunk (sackOf msg)) := ⟨msg, hm, rfl⟩
  rw [hes]
  exact h.say s ha hsaid

theorem sendFragments (h : Respects cause msgs R) (chunks : List Fragment) (s : Association) :
    R s (s.sendFragments chunks) := by
  induction chunks generalizing s with
  | nil => exact h.refl s
  | cons f chunks ih =>
    have ha : Answers cause msgs (dataChunk f) := trivial
    exact h.trans (h.send s ha) (ih _)

theorem streamSend (h : Respects cause msgs R) (now : ℤ) (sid : UInt16) (data : List UInt8)
    (ppid : Ppid) (s : Association) : R s (s.streamSend now sid data ppid).1 := by
  rw [Association.streamSend]
  split
  · exact h.refl s
  · exact h.trans (h.trans (h.setTsn _ s) (h.setStreams _ _)) (h.sendFragments _ _)

theorem closeEntry (h : Respects cause msgs R) (announce : Bool) (s : Association)
    (entry : UInt16 × Stream) : R s (s.closeEntry announce entry) := by
  rw [Association.closeEntry]
  cases announce with
  | false => exact h.trans (h.setTsn _ s) (h.sendFragments _ _)
  | true =>
    have htell : R s (s.emit (.streamClosed entry.1)) := h.tell s (by simp) (by simp)
    exact h.trans (h.trans htell (h.setTsn _ _)) (h.sendFragments _ _)

theorem closeStreams (h : Respects cause msgs R) (announce : Bool) (s : Association) :
    R s (s.closeStreams announce) := by
  have hfold (l : List (UInt16 × Stream)) (s : Association) :
      R s (l.foldl (Association.closeEntry announce) s) := by
    induction l generalizing s with
    | nil => exact h.refl s
    | cons entry l ih => exact h.trans (h.closeEntry announce s entry) (ih _)
  exact h.trans (hfold _ s) (h.setStreams ∅ _)

theorem onDcepMessage (h : Respects cause msgs R) {now : ℤ} {msg : Message}
    (hs : s.onDcepMessage now msg = some s') : R s s' := by
  rw [Association.onDcepMessage] at hs
  split at hs
  · exact Option.some.inj hs ▸ h.refl s
  · cases hs
  · split at hs
    · split at hs
      · exact Option.some.inj hs ▸ h.refl s
      · exact Option.some.inj hs ▸ h.trans (h.streamSend _ _ _ _ s) (h.tell _ (by simp) (by simp))
    · split at hs
      · exact Option.some.inj hs ▸ h.tell s (by simp) (by simp)
      · exact Option.some.inj hs ▸ h.refl s

theorem onUserMessage (h : Respects cause msgs R) {now : ℤ} {msg : Message}
    (hs : s.onUserMessage now msg = some s') : R s s' := by
  rw [Association.onUserMessage] at hs
  split at hs
  · exact Option.some.inj hs ▸ h.refl s
  · simp only at hs
    split_ifs at hs
    · exact h.onDcepMessage hs
    · split at hs
      · exact Option.some.inj hs ▸ h.refl s
      · exact Option.some.inj hs ▸ h.trans (h.closeEntry _ s _) (h.setStreams _ _)
    · split at hs
      · exact Option.some.inj hs ▸ h.refl s
      · exact Option.some.inj hs ▸ h.tell s (by simp) (by simp)
    · exact Option.some.inj hs ▸ h.refl s

/-- A DATA chunk is answered with the SACKs of the messages that it makes ready. -/
theorem insertDataChunk {now : ℤ} {flags : ChunkFlags} {chunk : DataChunk}
    (h : Respects cause (s.readyMessages now flags chunk) R)
    (hs : s.insertDataChunk now flags chunk = some s') : R s s' := by
  have hput := h.setStreams (s.streams.insert chunk.streamId (s.receive now flags chunk).1) s
  refine drain_induct ?_ hput Std.ExtTreeMap.getElem?_insert_self (fun _ => id) hs
  rintro s₁ s₂ msg hs₁ hmsg ⟨stream, stream', -, -, huser⟩
  exact h.trans (h.trans (h.trans hs₁ (h.setStreams _ _)) (h.sendSack hmsg _))
    (h.onUserMessage huser)

theorem reading (h : Respects cause msgs R) (hcause : cause ≠ none) {α : Type}
    {payload : Except Fault α} {k : α → Option Association}
    (hk : ∀ a, payload = .ok a → k a = some s' → R s s')
    (hs : s.reading payload k = some s') : R s s' := by
  cases payload with
  | ok a => exact hk a rfl hs
  | error f =>
    cases f with
    | rejected =>
      have hsend : R s (s.sendError .protocolViolation) := h.send s hcause
      exact Option.some.inj hs ▸ hsend
    | undefined => cases hs

theorem ackStream_streams_of_ne (now : ℤ) (s : Association) {sid k : UInt16} (h : k ≠ sid) :
    (s.ackStream now sid).streams[k]? = s.streams[k]? := by
  rw [Association.ackStream]
  cases hst : s.streams[sid]? with
  | none => rfl
  | some stream =>
    have hk : ¬ compare sid k = .eq := by
      rw [Std.LawfulEqCmp.compare_eq_iff_eq]
      exact fun heq => h heq.symm
    obtain ⟨es, hes, -⟩ := sendFragments_spec
      (stream.clearTimeoutRecvMessages now).resendMessages.2
      (s.setStreams (s.streams.insert sid (stream.clearTimeoutRecvMessages now).resendMessages.1))
    dsimp only
    rw [hes]
    split
    · rw [say_streams, setStreams_streams, Std.ExtTreeMap.getElem?_insert, if_neg hk]
    · next msg _ =>
      obtain ⟨es', hes', -⟩ := sendSack_spec msg
        (Association.say es (s.setStreams
          (s.streams.insert sid (stream.clearTimeoutRecvMessages now).resendMessages.1)))
      rw [hes', say_streams, say_streams, setStreams_streams, Std.ExtTreeMap.getElem?_insert,
        if_neg hk]

theorem ackStream (h : Respects cause msgs R) {now : ℤ} {sid : UInt16}
    (hm : ∀ stream msg, s.streams[sid]? = some stream →
      (stream.clearTimeoutRecvMessages now).firstMessage = some msg → msg ∈ msgs) :
    R s (s.ackStream now sid) := by
  rw [Association.ackStream]
  cases hst : s.streams[sid]? with
  | none => exact h.refl s
  | some stream =>
    dsimp only
    have hput := h.setStreams
      (s.streams.insert sid (stream.clearTimeoutRecvMessages now).resendMessages.1) s
    have hsend := h.trans hput
      (h.sendFragments (stream.clearTimeoutRecvMessages now).resendMessages.2 _)
    split
    · exact hsend
    · next msg hmsg => exact h.trans hsend (h.sendSack (hm stream msg hst hmsg) _)

end Respects

namespace Association

/-- The DATA chunk that a chunk is, if it can be read. -/
def dataOf (chunk : Chunk) : Option DataChunk :=
  if chunk.type = .data then (DataChunk.deserialize chunk.payload).toOption else none

/-- The messages that are acknowledged when a chunk arrives. -/
def vouchedOn (now : ℤ) (s : Association) (chunk : Chunk) : List Message :=
  match dataOf chunk with
  | some data => s.readyMessages now chunk.flags data
  | none => []

/-- The messages that are acknowledged when the timer fires. -/
def firstMessages (now : ℤ) (s : Association) : List Message :=
  if s.active then
    s.streams.toList.filterMap fun entry => (entry.2.clearTimeoutRecvMessages now).firstMessage
  else []

/-- The messages that an act acknowledges. -/
def vouchedBy (s : Association) : Act → List Message
  | .ackTimer now => s.firstMessages now
  | _ => []

/-- The chunk carries the cookie of the association. -/
def echoes (s : Association) (chunk : Chunk) : Prop :=
  CookieEchoChunk.deserialize chunk.payload chunk.payloadLength = .ok ⟨s.localCookie⟩

/-- The chunks on which the code connects. -/
def Connecting (s : Association) (chunk : Chunk) : Prop :=
  chunk.type = .cookieAck ∨ chunk.type = .cookieEcho ∧ s.echoes chunk

/-- What the handlers of a chunk do respects the relation, if connecting does. -/
theorem onChunk_respects {R : Association → Association → Prop} {now : ℤ} {header : Header}
    {chunk : Chunk} {s s' : Association} (h : Respects (some chunk.type) (s.vouchedOn now chunk) R)
    (hconnect : s.Connecting chunk →
      ∀ s₁ : Association, R s₁ (emit .connected (s₁.setState now .connected)))
    (hs : s.onChunk now header chunk = some s') : R s s' := by
  have hcause : some chunk.type ≠ none := nofun
  have hends (ht : chunk.type.Ends) (s : Association) (announce : Bool) :
      R s (emit .disconnected (setState now .closed (s.closeStreams announce))) :=
    h.trans (h.trans (h.closeStreams announce s) (h.close rfl ht now _))
      (h.tell _ (by simp) (by simp))
  have herror (cause : ErrorCause) (s : Association) : R s (s.sendError cause) :=
    h.send s hcause
  cases ht : chunk.type with
  | init =>
    rw [onChunk, ht] at hs
    refine h.reading hcause (fun init _ hs => ?_) hs
    have hremote : R s ((s.setStreams ∅).setRemote init header) := h.quiet rfl rfl
    exact Option.some.inj hs ▸ h.trans hremote (h.send _ (congrArg some ht))
  | initAck =>
    rw [onChunk, ht] at hs
    refine h.reading hcause (fun initAck _ hs => ?_) hs
    split at hs
    · exact Option.some.inj hs ▸ herror _ s
    · next cookie _ =>
      have hcookie : R s (s.setRemoteCookie cookie) := h.quiet rfl rfl
      exact Option.some.inj hs ▸ h.trans hcookie (h.send _ (congrArg some ht))
  | cookieEcho =>
    rw [onChunk, ht] at hs
    refine h.reading hcause (fun echo hecho hs => ?_) hs
    split at hs
    · exact Option.some.inj hs ▸ herror _ s
    · next hcookie =>
      rw [not_not] at hcookie
      have hconnecting : s.Connecting chunk := .inr ⟨ht, by rw [echoes, hecho, ← hcookie]⟩
      have hack : R s (s.send .cookieAck flagsNone []) := h.send s (congrArg some ht)
      exact Option.some.inj hs ▸ h.trans hack (hconnect hconnecting _)
  | cookieAck =>
    rw [onChunk, ht] at hs
    exact Option.some.inj hs ▸ hconnect (.inl ht) s
  | data =>
    rw [onChunk, ht] at hs
    refine h.reading hcause (fun data hdata hs => ?_) hs
    have hof : dataOf chunk = some data := by rw [dataOf, if_pos ht, hdata]; rfl
    rw [vouchedOn, hof] at h
    exact h.insertDataChunk hs
  | sack =>
    rw [onChunk, ht] at hs
    exact h.reading hcause (fun _ _ hs => Option.some.inj hs ▸ h.setStreams _ s) hs
  | heartbeat =>
    rw [onChunk, ht] at hs
    refine h.reading hcause (fun hb _ hs => ?_) hs
    have hanswer : R s
        (s.send .operationalError flagsNone (HeartbeatChunk.serialize ⟨hb.parameters⟩)) :=
      h.send s hcause
    exact Option.some.inj hs ▸ h.trans hanswer (h.tell _ (by simp) (by simp))
  | heartbeatAck =>
    rw [onChunk, ht] at hs
    exact Option.some.inj hs ▸ h.tell s (by simp) (by simp)
  | shutdown =>
    rw [onChunk, ht] at hs
    have hclose := h.trans (h.closeStreams true s) (h.close rfl (by rw [ht]; trivial) now _)
    have hack (s : Association) : R s (s.send .shutdownAck flagsNone []) :=
      h.send s (congrArg some ht)
    exact Option.some.inj hs ▸ h.trans (h.trans hclose (hack _)) (h.tell _ (by simp) (by simp))
  | shutdownAck =>
    rw [onChunk, ht] at hs
    exact Option.some.inj hs ▸ hends (by rw [ht]; trivial) s true
  | abort =>
    rw [onChunk, ht] at hs
    have hends' : chunk.type.Ends := by rw [ht]; trivial
    refine h.trans (h.close rfl hends' now s) (h.reading hcause (fun _ _ hs => ?_) hs)
    exact Option.some.inj hs ▸ h.trans (h.closeStreams true _) (h.tell _ (by simp) (by simp))
  | operationalError =>
    rw [onChunk, ht] at hs
    exact Option.some.inj hs ▸ hends (by rw [ht]; trivial) s true
  | unnamed b =>
    rw [onChunk, ht] at hs
    exact Option.some.inj hs ▸ h.refl s

/-- The timer acknowledges the first message of every stream. -/
theorem onAckTimer_respects {R : Association → Association → Prop} {cause : Option ChunkType}
    {now : ℤ} {s : Association} (h : Respects cause (s.firstMessages now) R) :
    R s (s.onAckTimer now) := by
  rw [onAckTimer]
  rw [firstMessages] at h
  cases ha : s.active with
  | false => exact h.refl s
  | true =>
    rw [ha] at h
    -- the streams that are still to come are as they were
    have hfold (sids : List UInt16) (hnodup : sids.Nodup) (t : Association)
        (ht : ∀ sid ∈ sids, t.streams[sid]? = s.streams[sid]?) :
        R t (sids.foldl (ackStream now) t) := by
      induction sids generalizing t with
      | nil => exact h.refl t
      | cons sid sids ih =>
        obtain ⟨hsid, hnodup⟩ := List.nodup_cons.mp hnodup
        obtain ⟨hhead, htail⟩ := List.forall_mem_cons.mp ht
        have hack : R t (t.ackStream now sid) := by
          apply h.ackStream
          intro stream msg hst hmsg
          rw [hhead] at hst
          exact List.mem_filterMap.mpr
            ⟨(sid, stream), Std.ExtTreeMap.mem_toList_iff_getElem?_eq_some.mpr hst, hmsg⟩
        refine h.trans hack (ih hnodup _ fun k hk => ?_)
        have hne : k ≠ sid := by
          rintro rfl
          exact hsid hk
        rw [Respects.ackStream_streams_of_ne now t hne]
        exact htail k hk
    exact hfold _ Std.ExtTreeMap.nodup_keys s fun _ _ => rfl

/-- What the timers and the application do respects the relation, if it is respected when
an association that has no state yet goes to the connecting state. -/
theorem act_respects {R : Association → Association → Prop} {a : Act} {s s' : Association}
    (h : Respects none (s.vouchedBy a) R)
    (hconnect : s.state = .none → ∀ (now : ℤ) (s₁ : Association), s₁.state = .none →
      R s₁ (s₁.setState now .connecting))
    (hs : s.act a = some s') : R s s' := by
  have hinit (s₁ : Association) (payload : List UInt8) :
      R s₁ (s₁.send .init flagsNone payload) := h.send s₁ rfl
  cases a with
  | connect now remotePort =>
    obtain rfl := Option.some.inj hs
    simp only [connect]
    split_ifs with hport hstate
    · exact h.refl s
    · exact h.refl s
    · rw [not_not] at hstate
      have hclear : R s (setStreams ∅ { s with remotePort }) := h.quiet rfl rfl
      obtain ⟨es, hes, -⟩ := send_spec .init flagsNone s.initChunk.serialize
        (setStreams ∅ { s with remotePort })
      have hsent : (send .init flagsNone s.initChunk.serialize
          (setStreams ∅ { s with remotePort })).state = .none := by
        rw [hes]
        exact hstate
      have hinvited := h.trans hclear (hinit _ s.initChunk.serialize)
      dsimp only
      exact h.trans hinvited (hconnect hstate now _ hsent)
  | createStream now label =>
    obtain rfl := Option.some.inj hs
    have hensure : R s (s.makeNextStreamId.2.ensureStream s.makeNextStreamId.1) := by
      rw [ensureStream]
      split <;> exact h.quiet rfl rfl
    exact h.trans hensure (h.streamSend now _ _ _ _)
  | closeStream sid =>
    simp only [act, closeStream] at hs
    split at hs
    · cases hs
    · have htell (s : Association) : R s (s.emit (.streamClosed sid)) :=
        h.tell s (by simp) (by simp)
      exact Option.some.inj hs ▸ h.trans (h.trans (h.trans (h.setTsn _ s) (h.sendFragments _ _))
        (htell _)) (h.setStreams _ _)
  | sendUserMessage now sid data => exact Option.some.inj hs ▸ h.streamSend now sid data _ s
  | stateTimer now =>
    obtain rfl := Option.some.inj hs
    simp only [onStateTimer]
    split_ifs with h₁ h₂ h₃ h₄
    · exact h.refl s
    · exact hinit s _
    · exact h.refl s
    · have hbeat (s₁ : Association) (payload : List UInt8) :
          R s₁ (s₁.send .heartbeat flagsNone payload) := h.send s₁ rfl
      have hstay : R s (s.setState now .connected) := h.quiet rfl h₄.symm
      exact h.trans hstay (hbeat _ _)
    · exact h.refl s
  | ackTimer now => exact Option.some.inj hs ▸ onAckTimer_respects h

end Association

end CxxDeps.Sctp
