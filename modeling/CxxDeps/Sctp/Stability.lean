import CxxDeps.Sctp.Network
import CxxDeps.Sctp.Store

/-! Stability of a connected association. A HEARTBEAT is answered with an
OPERATIONAL_ERROR, a SACK with gap blocks is refused with one, and an INIT clears
the streams. Where none of these arrives, every packet in flight is one that the
other end handles without an error, so a connected endpoint stays connected and
keeps its streams. -/

namespace CxxDeps.Sctp

open Library

/-- The payload protocols of what endpoints send while no stream is closed. -/
def Plain (ppid : Ppid) : Prop := ppid = Ppid.dcep ∨ ppid = Ppid.binary

/-- A chunk from an endpoint with cookie `own` to one with cookie `peer` that is
handled without an error. -/
def Benign (own peer : List UInt8) (chunk : Chunk) : Prop :=
  match chunk.type with
  | .init => ∃ init : InitChunk, init.parameters = [] ∧ chunk.payload = init.serialize
  | .initAck =>
    ∃ init : InitChunk, init.parameters = [⟨stateCookie, own⟩] ∧ chunk.payload = init.serialize
  | .cookieEcho => chunk.payload = peer
  | .cookieAck => True
  | .data => ∃ data : DataChunk, Plain data.payloadProtocolId ∧ chunk.payload = data.serialize
  | .sack => ∃ sack : SackChunk, chunk.payload = sack.serialize
  | .heartbeat => True
  | _ => False

theorem Benign.named {own peer : List UInt8} {chunk : Chunk} (h : Benign own peer chunk) :
    chunk.type.Named := by
  unfold Benign at h
  cases ht : chunk.type with
  | unnamed b => simp [ht] at h
  | _ => trivial

/-- If the event is a packet, its chunk is benign. -/
def Fine (own peer : List UInt8) (e : Event) : Prop :=
  ∀ data, e = .sendData data → ∃ chunk, Benign own peer chunk ∧ Says chunk e

theorem benign_data (own peer : List UInt8) {f : Fragment} (h : Plain f.2.payloadProtocolId) :
    Benign own peer (dataChunk f) := ⟨f.2, h, rfl⟩

theorem benign_sack (own peer : List UInt8) (sack : SackChunk) :
    Benign own peer (sackChunk sack) := ⟨sack, rfl⟩

theorem fine_of_says {own peer : List UInt8} {chunk : Chunk} {e : Event}
    (hb : Benign own peer chunk) (h : Says chunk e) : Fine own peer e :=
  fun _ _ => ⟨chunk, hb, h⟩

/-- Every fragment that a stream holds, received or sent, is plain. -/
structure PlainStream (sid : UInt16) (stream : Stream) : Prop where
  id : stream.streamId = sid
  received : Filed sid (fun _ _ block => Plain block.chunk.payloadProtocolId) stream.messages
  sent : Filed sid (fun _ _ block => Plain block.chunk.payloadProtocolId) stream.sentMessages

namespace PlainStream

variable {sid : UInt16} {stream : Stream}

theorem saveSentMessage {f : Fragment} (h : PlainStream sid stream)
    (hf : Plain f.2.payloadProtocolId) (now : ℤ) :
    PlainStream sid (stream.saveSentMessage now f) := by
  obtain ⟨rfl, hr, hs⟩ := h
  exact ⟨rfl, hr, hs.file hf⟩

theorem insert {data : DataChunk} (h : PlainStream sid stream)
    (hd : Plain data.payloadProtocolId) (now : ℤ) (flags : ChunkFlags) :
    PlainStream sid (stream.insert now flags data).1 := by
  obtain ⟨rfl, hr, hs⟩ := h
  exact ⟨rfl, hr.file hd, hs⟩

theorem mem_fragments {ssn : UInt16} {ppid : Ppid} {tsn : UInt32} {first : Bool}
    {parts : List (List UInt8)} {f : Fragment}
    (h : f ∈ fragments sid ssn ppid tsn first parts) : f.2.payloadProtocolId = ppid := by
  induction parts generalizing tsn first with
  | nil => cases h
  | cons payload parts ih =>
    rcases List.mem_cons.mp h with rfl | h
    · rfl
    · exact ih h

theorem send {ppid : Ppid} (h : PlainStream sid stream) (hp : Plain ppid) (now : ℤ) (tsn : UInt32)
    (data : List UInt8) :
    PlainStream sid (stream.send now tsn data ppid).1 ∧
      ∀ f ∈ (stream.send now tsn data ppid).2.2.1, Plain f.2.payloadProtocolId := by
  have hfold (l : List Fragment) (hl : ∀ f ∈ l, Plain f.2.payloadProtocolId) (st : Stream)
      (hst : PlainStream sid st) : PlainStream sid (l.foldl (Stream.saveSentMessage now) st) := by
    induction l generalizing st with
    | nil => exact hst
    | cons f l ih =>
      obtain ⟨hf, hl⟩ := List.forall_mem_cons.mp hl
      exact ih hl _ (hst.saveSentMessage hf now)
  rw [Stream.send]
  split
  · exact ⟨h, by simp⟩
  · have hfragments : ∀ f ∈ fragments stream.streamId stream.nextSendSsn ppid tsn true
        (payloads data), Plain f.2.payloadProtocolId := by
      intro f hf
      rw [mem_fragments hf]
      exact hp
    exact ⟨hfold _ hfragments _ ⟨h.id, h.received, h.sent⟩, hfragments⟩

/-- The message taken out of a plain stream is plain, and so is what is left. -/
theorem nextMessage {stream' : Stream} {msg : Message} (h : PlainStream sid stream)
    (hnext : stream.nextMessage = some (msg, stream')) :
    PlainStream sid stream' ∧ msg.streamId = sid ∧
      ∀ block, msg.firstBlock = some block → Plain block.chunk.payloadProtocolId := by
  obtain ⟨hm, -, rfl⟩ := Stream.nextMessage_eq_some hnext
  refine ⟨⟨h.id, h.received.erase _, h.sent⟩, (h.received.ids _ _ hm).1, ?_⟩
  intro block hblock
  obtain ⟨entry, hhead, rfl⟩ := Option.map_eq_some_iff.mp hblock
  exact h.received.blocks _ _ hm entry.1 entry.2
    (Std.ExtTreeMap.mem_toList_iff_getElem?_eq_some.mp (List.mem_of_mem_head? hhead))

theorem processSack (h : PlainStream sid stream) (sack : SackChunk) :
    PlainStream sid (stream.processSack sack) := by
  refine ⟨h.id, h.received, h.sent.keepBlocks ?_⟩
  intro ssn tsn block block' hP hkeep
  split at hkeep
  · cases hkeep
  · exact Option.some.inj hkeep ▸ hP

theorem clearTimeoutRecvMessages (h : PlainStream sid stream) (now : ℤ) :
    PlainStream sid (stream.clearTimeoutRecvMessages now) :=
  ⟨h.id, h.received.filter _, h.sent⟩

theorem resendMessages (h : PlainStream sid stream) :
    PlainStream sid stream.resendMessages.1 ∧
      ∀ f ∈ stream.resendMessages.2, Plain f.2.payloadProtocolId := by
  refine ⟨⟨h.id, h.received, h.sent.keepBlocks ?_⟩, ?_⟩
  · intro ssn tsn block block' hP hkeep
    rw [Block.resent] at hkeep
    split at hkeep
    · cases hkeep
    · exact Option.some.inj hkeep ▸ hP
  · intro f hf
    obtain ⟨entry, hentry, hf⟩ := List.mem_flatMap.mp hf
    obtain ⟨block, hblock, rfl⟩ := List.mem_map.mp hf
    exact h.sent.blocks _ _ (Std.ExtTreeMap.mem_toList_iff_getElem?_eq_some.mp hentry) _ _
      (Std.ExtTreeMap.mem_toList_iff_getElem?_eq_some.mp hblock)

end PlainStream

/-- An association of a steady network: its streams are plain and its packets are
benign. -/
structure Settled (own peer : List UInt8) (s : Association) : Prop where
  cookie : s.localCookie = own
  streams : ∀ (sid : UInt16) (stream : Stream), s.streams[sid]? = some stream →
    PlainStream sid stream
  packets : ∀ e ∈ s.events, Fine own peer e

/-- A connected association stays connected, and every stream is kept. -/
structure Keeps (s s' : Association) : Prop where
  connected : s.state = .connected → s'.state = .connected
  streams : ∀ sid ∈ s.streams, sid ∈ s'.streams

theorem Keeps.refl (s : Association) : Keeps s s := ⟨id, fun _ => id⟩

theorem Keeps.trans {s s' s'' : Association} (h : Keeps s s') (h' : Keeps s' s'') :
    Keeps s s'' :=
  ⟨fun hs => h'.connected (h.connected hs), fun sid hsid => h'.streams sid (h.streams sid hsid)⟩

/-- A step of a steady network. -/
structure Goes (own peer : List UInt8) (s s' : Association) : Prop where
  settled : Settled own peer s'
  keeps : Keeps s s'

theorem Goes.trans {own peer : List UInt8} {s s' s'' : Association} (h : Goes own peer s s')
    (h' : Goes own peer s' s'') : Goes own peer s s'' :=
  ⟨h'.settled, h.keeps.trans h'.keeps⟩

namespace Settled

variable {own peer : List UInt8} {s : Association}

theorem goes (h : Settled own peer s) : Goes own peer s s := ⟨h, Keeps.refl s⟩

theorem say (h : Settled own peer s) {es : List Event} (hes : ∀ e ∈ es, Fine own peer e) :
    Goes own peer s (s.say es) where
  settled := by
    refine ⟨h.cookie, h.streams, fun e he => ?_⟩
    rcases List.mem_append.mp he with he | he
    · exact h.packets e he
    · exact hes e he
  keeps := ⟨id, fun _ => id⟩

theorem emit (h : Settled own peer s) {e : Event} (he : ∀ data, e ≠ .sendData data) :
    Goes own peer s (s.emit e) := by
  refine h.say fun e' he' data hdata => ?_
  rw [List.mem_singleton.mp he'] at hdata
  exact absurd hdata (he data)

theorem setTsn (h : Settled own peer s) (tsn : UInt32) : Goes own peer s (s.setTsn tsn) :=
  ⟨⟨h.cookie, h.streams, h.packets⟩, ⟨id, fun _ => id⟩⟩

/-- A plain stream is put into the map. -/
theorem putStream (h : Settled own peer s) {sid : UInt16} {stream : Stream}
    (hst : PlainStream sid stream) :
    Goes own peer s (s.setStreams (s.streams.insert sid stream)) where
  settled := by
    refine ⟨h.cookie, fun k st hk => ?_, h.packets⟩
    rw [Association.setStreams_streams, Std.ExtTreeMap.getElem?_insert] at hk
    split at hk
    · next heq =>
      obtain rfl := Std.LawfulEqCmp.compare_eq_iff_eq.mp heq
      exact Option.some.inj hk ▸ hst
    · exact h.streams k st hk
  keeps := ⟨id, fun k hk => Std.ExtTreeMap.mem_insert.mpr (.inr hk)⟩

theorem send (h : Settled own peer s) {type : ChunkType} {flags : ChunkFlags}
    {payload : List UInt8} (hb : Benign own peer { type, flags, payload }) :
    Goes own peer s (s.send type flags payload) := by
  obtain ⟨es, hes, hsaid⟩ := Association.send_spec type flags payload s
  rw [hes]
  exact h.say fun e he => fine_of_says hb (hsaid e he)

theorem sendSack (h : Settled own peer s) (msg : Message) : Goes own peer s (s.sendSack msg) :=
  h.send (benign_sack own peer (sackOf msg))

theorem sendFragments (h : Settled own peer s) {chunks : List Fragment}
    (hc : ∀ f ∈ chunks, Plain f.2.payloadProtocolId) :
    Goes own peer s (s.sendFragments chunks) := by
  obtain ⟨es, hes, hsaid⟩ := Association.sendFragments_spec chunks s
  rw [hes]
  refine h.say fun e he => ?_
  obtain ⟨f, hf, hsaidf⟩ := hsaid e he
  exact fine_of_says (benign_data own peer (hc f hf)) hsaidf

theorem streamSend (h : Settled own peer s) {ppid : Ppid} (hp : Plain ppid) (now : ℤ)
    (sid : UInt16) (data : List UInt8) : Goes own peer s (s.streamSend now sid data ppid).1 := by
  cases hst : s.streams[sid]? with
  | none =>
    rw [Association.streamSend_of_none now data ppid hst]
    exact h.goes
  | some stream =>
    obtain ⟨es, hes, hsaid⟩ := Association.streamSend_spec now sid data ppid hst
    obtain ⟨hplain, hfragments⟩ := (h.streams sid stream hst).send hp now s.localTsn data
    rw [hes]
    have htsn := h.setTsn (stream.send now s.localTsn data ppid).2.1
    have hput := htsn.settled.putStream hplain
    refine (htsn.trans hput).trans (hput.settled.say fun e he => ?_)
    obtain ⟨f, hf, hsaidf⟩ := hsaid e he
    exact fine_of_says (benign_data own peer (hfragments f hf)) hsaidf

end Settled

/-! ### Incoming chunks -/

/-- `on_dcep_message` would read the first byte of an empty message. -/
def Message.ReadsNothing (msg : Message) : Prop :=
  msg.firstBlock.map (fun block => block.chunk.payloadProtocolId) = some Ppid.dcep ∧
    msg.serialize = some []

instance (msg : Message) : Decidable msg.ReadsNothing := inferInstanceAs (Decidable (_ ∧ _))

/-- The number of gap blocks that the payload of a SACK announces. -/
def gapBlocks (payload : List UInt8) : UInt16 := be16 (payload.getD 8 0) (payload.getD 9 0)

theorem gapBlocks_serialize (sack : SackChunk) :
    gapBlocks sack.serialize = UInt16.ofNat sack.gaps.length := by
  unfold gapBlocks SackChunk.serialize
  generalize UInt16.ofNat sack.gaps.length = g
  simp [toBe32, toBe16]

/-- An INIT comes before there are streams, a HEARTBEAT and a SACK with gap blocks do
not come, and a DATA chunk completes no empty message filed as DCEP. -/
def SteadyChunk (now : ℤ) (s : Association) (chunk : Chunk) : Prop :=
  match chunk.type with
  | .init => s.streams.isEmpty
  | .heartbeat => False
  | .sack => gapBlocks chunk.payload = 0
  | .data =>
    match DataChunk.deserialize chunk.payload with
    | .ok data => ∀ msg ∈ s.readyMessages now chunk.flags data, ¬ msg.ReadsNothing
    | .error _ => True
  | _ => True

instance (now : ℤ) (s : Association) (chunk : Chunk) : Decidable (SteadyChunk now s chunk) := by
  unfold SteadyChunk
  split
  case h_4 =>
    split
    · exact List.decidableBAll _ _
    · infer_instance
  all_goals infer_instance

namespace Settled

variable {own peer : List UInt8} {s : Association}

theorem onUserMessage (h : Settled own peer s) {msg : Message} (now : ℤ)
    (hplain : ∀ block, msg.firstBlock = some block → Plain block.chunk.payloadProtocolId)
    (hreads : ¬ msg.ReadsNothing) :
    ∃ s', s.onUserMessage now msg = some s' ∧ Goes own peer s s' := by
  rw [Association.onUserMessage]
  cases hblock : msg.firstBlock with
  | none => exact ⟨s, rfl, h.goes⟩
  | some block =>
    dsimp only
    rcases hplain block hblock with hp | hp
    · -- a DCEP message
      rw [if_pos hp, Association.onDcepMessage]
      cases hser : msg.serialize with
      | none => exact ⟨s, rfl, h.goes⟩
      | some buf =>
        cases buf with
        | nil => exact absurd ⟨by rw [hblock, Option.map_some, hp], hser⟩ hreads
        | cons type rest =>
          dsimp only
          split_ifs
          · split
            · exact ⟨s, rfl, h.goes⟩
            · have hsend := h.streamSend (.inl rfl) now msg.streamId [dcepAck]
              exact ⟨_, rfl, hsend.trans (hsend.settled.emit (by simp))⟩
          · exact ⟨_, rfl, h.emit (by simp)⟩
          · exact ⟨s, rfl, h.goes⟩
    · -- a message for the application
      have hne : ¬ Ppid.binary = Ppid.dcep := by decide
      have hne' : ¬ (Ppid.binary = Ppid.emptyBinary ∨ Ppid.binary = Ppid.emptyString) := by decide
      rw [hp, if_neg hne, if_neg hne', if_pos (.inl rfl)]
      cases msg.serialize with
      | none => exact ⟨s, rfl, h.goes⟩
      | some buf => exact ⟨_, rfl, h.emit (by simp)⟩

theorem receive (h : Settled own peer s) {data : DataChunk}
    (hd : Plain data.payloadProtocolId) (now : ℤ) (flags : ChunkFlags) :
    PlainStream data.streamId (s.receive now flags data).1 := by
  refine PlainStream.insert ?_ hd now flags
  cases hst : s.streams[data.streamId]? with
  | none => exact ⟨rfl, filed_empty, filed_empty⟩
  | some stream => exact h.streams _ stream hst

theorem insertDataChunk (h : Settled own peer s) {data : DataChunk} {flags : ChunkFlags}
    {now : ℤ} (hd : Plain data.payloadProtocolId)
    (hreads : ∀ msg ∈ s.readyMessages now flags data, ¬ msg.ReadsNothing) :
    ∃ s', s.insertDataChunk now flags data = some s' ∧ Goes own peer s s' := by
  have hput := h.putStream (h.receive hd now flags)
  refine Association.drain_exists ?_ hput Std.ExtTreeMap.getElem?_insert_self hreads
  intro s₁ msg stream stream' hs₁ hmsg hstream hnext
  obtain ⟨hplain, hid, hblocks⟩ := (hs₁.settled.streams _ _ hstream).nextMessage hnext
  have hput' := hs₁.settled.putStream hplain
  have hsack := hput'.settled.sendSack msg
  obtain ⟨s₂, hs₂, huser⟩ := hsack.settled.onUserMessage now hblocks hmsg
  have hgoes := (hput'.trans hsack).trans huser
  exact ⟨s₂, hs₂, hs₁.trans hgoes,
    hgoes.keeps.streams _ (Std.ExtTreeMap.isSome_getElem?_iff_mem.mp (by simp [hstream]))⟩

theorem clearStreams (h : Settled own peer s) (hs : s.streams.isEmpty) :
    Goes own peer s (s.setStreams ∅) where
  settled := ⟨h.cookie, fun _ _ hk => by simp at hk, h.packets⟩
  keeps := ⟨id, fun sid hsid => by
    rw [Std.ExtTreeMap.isEmpty_iff.mp hs] at hsid
    simp at hsid⟩

theorem setState (h : Settled own peer s) (now : ℤ) (state : SctpState) :
    Settled own peer (s.setState now state) :=
  ⟨h.cookie, h.streams, h.packets⟩

theorem connected (h : Settled own peer s) (now : ℤ) :
    Goes own peer s (s.setState now .connected) :=
  ⟨h.setState now .connected, ⟨fun _ => rfl, fun _ => id⟩⟩

theorem onInit (h : Settled own peer s) {init : InitChunk} (hs : s.streams.isEmpty)
    {header : Header} {chunk : Chunk} (hp : InitChunk.deserialize chunk.payload = .ok init) :
    ∃ s', s.onInit header chunk = some s' ∧ Goes own peer s s' := by
  rw [Association.onInit, hp]
  have hclear := h.clearStreams hs
  have hremote : Goes own peer (s.setStreams ∅) ((s.setStreams ∅).setRemote init header) :=
    ⟨⟨hclear.settled.cookie, hclear.settled.streams, hclear.settled.packets⟩,
      ⟨id, fun _ => id⟩⟩
  refine ⟨_, rfl, (hclear.trans hremote).trans (hremote.settled.send ?_)⟩
  refine ⟨_, ?_, rfl⟩
  rw [← hremote.settled.cookie]
  rfl

theorem onInitAck (h : Settled own peer s) {init : InitChunk} {chunk : Chunk}
    (hparams : init.parameters = [⟨stateCookie, peer⟩])
    (hp : InitChunk.deserialize chunk.payload = .ok init) :
    ∃ s', s.onInitAck chunk = some s' ∧ Goes own peer s s' := by
  have hfind : findParameter stateCookie init.parameters = some peer := by
    simp [hparams, findParameter]
  simp only [Association.onInitAck, hp, Association.reading, hfind]
  have hcookie : Goes own peer s (s.setRemoteCookie peer) :=
    ⟨⟨h.cookie, h.streams, h.packets⟩, ⟨id, fun _ => id⟩⟩
  exact ⟨_, rfl, hcookie.trans (hcookie.settled.send rfl)⟩

theorem onCookieEcho (h : Settled own peer s) {chunk : Chunk} (now : ℤ)
    (hp : CookieEchoChunk.deserialize chunk.payload chunk.payloadLength = .ok ⟨own⟩) :
    ∃ s', s.onCookieEcho now chunk = some s' ∧ Goes own peer s s' := by
  simp only [Association.onCookieEcho, hp, Association.reading, h.cookie, ne_eq,
    not_true_eq_false, if_false]
  have hack : Goes own peer s (s.send .cookieAck flagsNone []) := h.send trivial
  have hconn := hack.settled.connected now
  exact ⟨_, rfl, (hack.trans hconn).trans (hconn.settled.emit (by simp))⟩

theorem onSack (h : Settled own peer s) {sack : SackChunk} {chunk : Chunk}
    (hp : SackChunk.deserialize chunk.payload = .ok sack) :
    ∃ s', s.onSack chunk = some s' ∧ Goes own peer s s' := by
  rw [Association.onSack, hp]
  refine ⟨_, rfl, ⟨h.cookie, fun sid stream hst => ?_, h.packets⟩, ⟨id, fun sid hsid => ?_⟩⟩
  · rw [Association.processSack, Association.setStreams_streams, getElem?_updateAll] at hst
    obtain ⟨st, hget, hsome⟩ := Option.bind_eq_some_iff.mp hst
    exact Option.some.inj hsome ▸ (h.streams sid st hget).processSack sack
  · rw [Association.processSack, Association.setStreams_streams,
      ← Std.ExtTreeMap.isSome_getElem?_iff_mem, getElem?_updateAll]
    obtain ⟨st, hst⟩ := Option.isSome_iff_exists.mp
      (Std.ExtTreeMap.isSome_getElem?_iff_mem.mpr hsid)
    simp [hst]

/-- Every benign chunk that arrives in a steady network is handled without an
error. -/
theorem onChunk (h : Settled own peer s) {chunk : Chunk} (hb : Benign peer own chunk)
    (hlen : chunk.serialize.length ≤ maxChunkSize) (now : ℤ) (header : Header)
    (hc : SteadyChunk now s chunk.sized) :
    ∃ s', s.onChunk now header chunk.sized = some s' ∧ Goes own peer s s' := by
  have hpayload : chunk.payload.length ≤ maxChunkSize := by
    have := chunk.length_serialize
    omega
  have htype : chunk.sized.type = chunk.type := rfl
  unfold Benign at hb
  unfold SteadyChunk at hc
  rw [htype] at hc
  rw [Association.onChunk, htype]
  cases ht : chunk.type <;> simp only [ht] at hb hc ⊢
  case init =>
    obtain ⟨init, -, hinit⟩ := hb
    apply h.onInit hc
    exact (congrArg _ hinit).trans (InitChunk.deserialize_serialize (hinit ▸ hpayload))
  case initAck =>
    obtain ⟨init, hparams, hinit⟩ := hb
    apply h.onInitAck hparams
    exact (congrArg _ hinit).trans (InitChunk.deserialize_serialize (hinit ▸ hpayload))
  case cookieEcho =>
    refine h.onCookieEcho now ?_
    rw [CookieEchoChunk.deserialize_sized hlen, hb]
  case cookieAck =>
    have hconn := h.connected now
    exact ⟨_, rfl, hconn.trans (hconn.settled.emit (by simp))⟩
  case data =>
    obtain ⟨data, hplain, hdata⟩ := hb
    have hp : DataChunk.deserialize chunk.sized.payload = .ok data :=
      (congrArg _ hdata).trans (DataChunk.deserialize_serialize (hdata ▸ hpayload))
    simp only [hp] at hc
    rw [Association.onData, hp]
    exact h.insertDataChunk hplain hc
  case sack =>
    obtain ⟨sack, hsack⟩ := hb
    have hread := SackChunk.deserialize_serialize (hsack ▸ hpayload)
    have hgaps : UInt16.ofNat sack.gaps.length = 0 := by
      have hsized : chunk.sized.payload = sack.serialize := hsack
      rwa [hsized, gapBlocks_serialize] at hc
    rw [if_pos hgaps] at hread
    exact h.onSack ((congrArg _ hsack).trans hread)

/-! ### Timers and the application -/

theorem ackStream (h : Settled own peer s) (now : ℤ) (sid : UInt16) :
    Goes own peer s (s.ackStream now sid) := by
  rw [Association.ackStream]
  cases hst : s.streams[sid]? with
  | none => exact h.goes
  | some stream =>
    obtain ⟨hplain, hfragments⟩ :=
      ((h.streams sid stream hst).clearTimeoutRecvMessages now).resendMessages
    have hput := h.putStream hplain
    have hsend := hput.trans (hput.settled.sendFragments hfragments)
    dsimp only
    split
    · exact hsend
    · exact hsend.trans (hsend.settled.sendSack _)

theorem onAckTimer (h : Settled own peer s) (now : ℤ) : Goes own peer s (s.onAckTimer now) := by
  have hfold (sids : List UInt16) (s : Association) (h : Settled own peer s) :
      Goes own peer s (sids.foldl (Association.ackStream now) s) := by
    induction sids generalizing s with
    | nil => exact h.goes
    | cons sid sids ih =>
      have hsid := h.ackStream now sid
      exact hsid.trans (ih _ hsid.settled)
  rw [Association.onAckTimer]
  split
  · exact h.goes
  · exact hfold _ s h

theorem benign_init (own peer : List UInt8) (s : Association) :
    Benign own peer { type := .init, flags := flagsNone, payload := s.initChunk.serialize } :=
  ⟨s.initChunk, rfl, rfl⟩

theorem onStateTimer (h : Settled own peer s) (now : ℤ) :
    Goes own peer s (s.onStateTimer now) := by
  rw [Association.onStateTimer]
  split_ifs
  · exact h.goes
  · exact h.send (benign_init own peer s)
  · exact h.goes
  · have hconn := h.connected now
    exact hconn.trans (hconn.settled.send trivial)
  · exact h.goes

theorem createStream (h : Settled own peer s) (now : ℤ) (label : List UInt8) :
    Goes own peer s (s.createStream now label).1 := by
  have hnext : Goes own peer s s.makeNextStreamId.2 :=
    ⟨⟨h.cookie, h.streams, h.packets⟩, ⟨id, fun _ => id⟩⟩
  have hensure : Goes own peer s (s.makeNextStreamId.2.ensureStream s.makeNextStreamId.1) := by
    rw [Association.ensureStream]
    split
    · exact hnext.trans (hnext.settled.putStream ⟨rfl, filed_empty, filed_empty⟩)
    · exact hnext
  exact hensure.trans (hensure.settled.streamSend (.inl rfl) now _ _)

/-- An association that is not connected yet may drop its streams. -/
theorem connect (h : Settled own peer s) (now : ℤ) (remotePort : UInt16) :
    Settled own peer (s.connect now remotePort).1 ∧
      (s.state = .connected → (s.connect now remotePort).1 = s) := by
  rw [Association.connect]
  split_ifs with hport hstate
  · exact ⟨h, fun _ => rfl⟩
  · exact ⟨h, fun _ => rfl⟩
  · rw [not_not] at hstate
    refine ⟨?_, fun hs => by rw [hstate] at hs; cases hs⟩
    have hclear : Settled own peer (Association.setStreams ∅ { s with remotePort }) :=
      ⟨h.cookie, fun _ _ hk => by simp at hk, h.packets⟩
    have hsend := (hclear.send (benign_init own peer s)).settled
    rw [Association.send] at hsend
    exact hsend.setState now .connecting

end Settled

/-! ### The network -/

/-- No stream is closed, and the chunk that arrives is steady. -/
def Net.Steady (net : Net) : Move → Prop
  | .deliver side now i =>
    match net.arrives side i with
    | some chunk => SteadyChunk now (net side) chunk
    | none => True
  | .act _ (.closeStream _) => False
  | .act _ _ => True

instance (net : Net) (m : Move) : Decidable (net.Steady m) := by
  unfold Net.Steady
  split
  case h_1 => split <;> infer_instance
  all_goals infer_instance

/-- A side that is connected stays so and keeps its streams. -/
def Lasts (s s' : Association) : Prop :=
  s.state = .connected → s'.state = .connected ∧ ∀ sid ∈ s.streams, sid ∈ s'.streams

theorem Lasts.refl (s : Association) : Lasts s s := fun h => ⟨h, fun _ => id⟩

theorem Lasts.trans {s s' s'' : Association} (h : Lasts s s') (h' : Lasts s' s'') :
    Lasts s s'' := by
  intro hs
  obtain ⟨hs', hmem⟩ := h hs
  obtain ⟨hs'', hmem'⟩ := h' hs'
  exact ⟨hs'', fun sid hsid => hmem' sid (hmem sid hsid)⟩

theorem Keeps.lasts {s s' : Association} (h : Keeps s s') : Lasts s s' :=
  fun hs => ⟨h.connected hs, h.streams⟩

/-- Both sides are settled, with the cookies they issue. -/
def Net.Settled (cookie : Side → List UInt8) (net : Net) : Prop :=
  ∀ side, Sctp.Settled (cookie side) (cookie side.peer) (net side)

variable {cookie : Side → List UInt8} {net : Net}

theorem act_steady {own peer : List UInt8} {s : Association} (h : Settled own peer s) {a : Act}
    (ha : ∀ sid, a ≠ .closeStream sid) :
    ∃ s', s.act a = some s' ∧ Settled own peer s' ∧ Lasts s s' := by
  cases a with
  | connect now remotePort =>
    obtain ⟨hsettled, hsame⟩ := h.connect now remotePort
    exact ⟨_, rfl, hsettled, fun hs => by rw [hsame hs]; exact Lasts.refl s hs⟩
  | createStream now label =>
    have hgoes := h.createStream now label
    exact ⟨_, rfl, hgoes.settled, hgoes.keeps.lasts⟩
  | closeStream sid => exact absurd rfl (ha sid)
  | sendUserMessage now sid data =>
    have hplain : Plain Ppid.binary := .inr rfl
    have hgoes := h.streamSend hplain now sid data
    exact ⟨_, rfl, hgoes.settled, hgoes.keeps.lasts⟩
  | stateTimer now => exact ⟨_, rfl, (h.onStateTimer now).settled, (h.onStateTimer now).keeps.lasts⟩
  | ackTimer now => exact ⟨_, rfl, (h.onAckTimer now).settled, (h.onAckTimer now).keeps.lasts⟩

/-- A packet that arrives in a steady network does no harm. -/
theorem connInput_steady (h : net.Settled cookie) {side : Side} {i : ℕ} {data : List UInt8}
    (hdata : net.arriving side i = some data) (now : ℤ)
    (hc : ∀ chunk, net.arrives side i = some chunk → SteadyChunk now (net side) chunk) :
    ∃ s', (net side).connInput now data = some s' ∧
      Settled (cookie side) (cookie side.peer) s' ∧ Lasts (net side) s' := by
  have hmem : .sendData data ∈ (net side.peer).events :=
    Association.mem_flight.mp (List.mem_of_getElem? hdata)
  obtain ⟨chunk, hb, hsaid⟩ := (h side.peer).packets _ hmem data rfl
  rw [Side.peer_peer] at hb
  rcases connInput_says hb.named hsaid with ⟨-, hsame⟩ | ⟨hlen, hcarried, header, hchunk⟩
  · exact ⟨net side, hsame now _, h side, Lasts.refl _⟩
  · have harrives : net.arrives side i = some chunk.sized := by
      rw [Net.arrives, hdata]
      exact hcarried
    obtain ⟨s', hs', hgoes⟩ := (h side).onChunk hb hlen now header (hc _ harrives)
    exact ⟨s', (hchunk now _).trans hs', hgoes.settled, hgoes.keeps.lasts⟩

/-- A move of a steady network. -/
theorem step_steady (h : net.Settled cookie) {m : Move} (hm : net.Steady m) :
    ∃ net', net.step m = some (net', []) ∧ net'.Settled cookie ∧
      ∀ side, Lasts (net side) (net' side) := by
  have hset {side : Side} {s' : Association} (hs : Settled (cookie side) (cookie side.peer) s')
      (hl : Lasts (net side) s') :
      (net.set side s').Settled cookie ∧ ∀ x, Lasts (net x) (net.set side s' x) := by
    refine ⟨fun x => ?_, fun x => ?_⟩
    · by_cases hx : x = side
      · rw [hx, Net.set_self]
        exact hs
      · rw [Net.set_of_ne net s' hx]
        exact h x
    · by_cases hx : x = side
      · rw [hx, Net.set_self]
        exact hl
      · rw [Net.set_of_ne net s' hx]
        exact Lasts.refl _
  cases m with
  | deliver side now i =>
    rw [Net.step]
    cases hdata : net.arriving side i with
    | none => exact ⟨net, rfl, h, fun _ => Lasts.refl _⟩
    | some data =>
      have hc : ∀ chunk, net.arrives side i = some chunk → SteadyChunk now (net side) chunk := by
        intro chunk hchunk
        simpa only [Net.Steady, hchunk] using hm
      obtain ⟨s', hs', hsettled, hlasts⟩ := connInput_steady h hdata now hc
      dsimp only
      rw [hs']
      exact ⟨_, rfl, hset hsettled hlasts⟩
  | act side a =>
    have ha : ∀ sid, a ≠ .closeStream sid := by
      rintro sid rfl
      exact hm
    obtain ⟨s', hs', hsettled, hlasts⟩ := act_steady (h side) ha
    rw [Net.step, hs']
    exact ⟨_, rfl, hset hsettled hlasts⟩

/-- A run of a steady network. -/
theorem run_steady {ms : List Move} (h : net.Settled cookie)
    (hm : RunOk Net.step Net.Steady net ms) :
    ∃ net', run Net.step net ms = some (net', []) ∧ net'.Settled cookie ∧
      ∀ side, Lasts (net side) (net' side) := by
  induction ms generalizing net with
  | nil => exact ⟨net, rfl, h, fun _ => Lasts.refl _⟩
  | cons m ms ih =>
    obtain ⟨net₁, hstep, h₁, hl₁⟩ := step_steady h hm.1
    obtain ⟨net₂, hrun, h₂, hl₂⟩ := ih h₁ (hm.2 _ hstep)
    exact ⟨net₂, run_cons_eq_some.mpr ⟨net₁, [], [], hstep, hrun, rfl⟩, h₂,
      fun side => (hl₁ side).trans (hl₂ side)⟩

theorem Net.Opened.settled {net : Net} (h : net.Opened) :
    net.Settled fun side => (net side).localCookie := by
  intro side
  obtain ⟨sid, localPort, uuid, tag, tsn, hnet⟩ := h side
  refine ⟨rfl, ?_, ?_⟩ <;> rw [hnet]
  · exact fun _ _ hk => by simp [opened, Association.open'] at hk
  · exact List.forall_mem_nil _

/-- In every run of a steady network, an endpoint that is connected stays connected
and keeps its streams. -/
theorem connected_lasts {net : Net} (hnet : net.Opened) {before after : List Move}
    (h : RunOk Net.step Net.Steady net (before ++ after)) :
    ∃ net₁ net₂, run Net.step net before = some (net₁, []) ∧
      run Net.step net₁ after = some (net₂, []) ∧ ∀ side, Lasts (net₁ side) (net₂ side) := by
  obtain ⟨net₁, hrun₁, h₁, -⟩ := run_steady hnet.settled h.append_left
  obtain ⟨net₂, hrun₂, -, hlasts⟩ := run_steady h₁ (h.append_right hrun₁)
  exact ⟨net₁, net₂, hrun₁, hrun₂, hlasts⟩

/-- A stream is opened after the handshake, and the COOKIE_ACK arrives once more. -/
private def exchange : List Move :=
  [.act .client (.createStream 0 [0x61]), .deliver .server 0 2, .deliver .client 0 2,
    .deliver .client 0 1]

theorem connected_lasts_exchange :
    ∃ net₁ net₂, run Net.step pair handshake = some (net₁, []) ∧
      run Net.step net₁ exchange = some (net₂, []) ∧ ∀ side, Lasts (net₁ side) (net₂ side) :=
  connected_lasts pair_opened (by decide +kernel)

/-- The first HEARTBEAT takes the association down. -/
theorem heartbeat_closes :
    ¬ ∀ (net : Net), net.Opened → ∀ (before after : List Move) (net₁ net₂ : Net)
      (os₁ os₂ : List Empty),
      (∀ side sid, .act side (.closeStream sid) ∉ before ++ after) →
      run Net.step net before = some (net₁, os₁) → (∀ side, (net₁ side).state = .connected) →
      run Net.step net₁ after = some (net₂, os₂) → ∀ side, Lasts (net₁ side) (net₂ side) := by
  intro h
  have hbefore : (run Net.step pair handshake).map
      (fun r => ((r.1 .client).state, (r.1 .server).state)) = some (.connected, .connected) := by
    decide +kernel
  have hall : (run Net.step pair (handshake ++
      [.act .client (.stateTimer 5000), .deliver .server 5000 2, .deliver .client 5000 2])).map
      (fun r => (r.1 .client).state) = some .closed := by
    decide +kernel
  obtain ⟨⟨net₂, os⟩, hrun, hclosed⟩ := Option.map_eq_some_iff.mp hall
  obtain ⟨net₁, os₁, os₂, hrun₁, hrun₂, -⟩ := run_append_eq_some.mp hrun
  rw [hrun₁] at hbefore
  obtain ⟨hclient, hserver⟩ := Prod.mk.inj (Option.some.inj hbefore)
  have hconnected : ∀ side, (net₁ side).state = .connected := by
    intro side
    cases side with
    | client => exact hclient
    | server => exact hserver
  have hlasts := h pair pair_opened _ _ net₁ net₂ os₁ os₂ (by simp [handshake]) hrun₁ hconnected
    hrun₂ .client hclient
  rw [hclosed] at hlasts
  cases hlasts.1

end CxxDeps.Sctp
