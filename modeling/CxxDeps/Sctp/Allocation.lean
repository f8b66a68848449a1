import CxxDeps.Library.Run
import CxxDeps.Sctp.Effects
import CxxDeps.Stun.Transport

/-! The stream ids that an association hands out. The DTLS role decides where the
counter starts, and the counter goes up by two, so the ids of one endpoint have
one parity. The search over the counter leaves out the last id of the class. -/

namespace CxxDeps.Sctp

open Library
open Stun (DtlsRole)

/-- The argument of `set_init_stream_id` in `handle_dtls_completed`. -/
def firstStreamId : DtlsRole → UInt16
  | .client => 1
  | .server => 2

/-- The id has the parity of the role. -/
def OfRole (role : DtlsRole) (sid : UInt16) : Prop := sid % 2 = firstStreamId role % 2

instance (role : DtlsRole) (sid : UInt16) : Decidable (OfRole role sid) :=
  inferInstanceAs (Decidable (sid % 2 = firstStreamId role % 2))

namespace Association

def setInitStreamId (sid : UInt16) (s : Association) : Association := { s with initStreamId := sid }

/-- `transport::handle_dtls_completed`: only the client connects. -/
def handleDtlsCompleted (role : DtlsRole) (now : ℤ) (remotePort : UInt16) (s : Association) :
    Association :=
  match role with
  | .client => ((s.setInitStreamId (firstStreamId .client)).connect now remotePort).1
  | .server => s.setInitStreamId (firstStreamId .server)

end Association

/-- What happens to an association: DTLS completes, a packet comes in, or the
application or a timer acts. -/
inductive Happening
  | dtlsCompleted (now : ℤ) (remotePort : UInt16)
  | input (now : ℤ) (data : List UInt8)
  | act (a : Act)
  deriving DecidableEq, Repr

namespace Association

/-- The id that an act hands out. -/
def handsOut (s : Association) : Act → List UInt16
  | .createStream now label => [(s.createStream now label).2.1]
  | _ => []

/-- One step, with the ids that it hands out. -/
def happen (role : DtlsRole) (s : Association) : Happening → Option (Association × List UInt16)
  | .dtlsCompleted now remotePort => some (s.handleDtlsCompleted role now remotePort, [])
  | .input now data => (s.connInput now data).map fun t => (t, [])
  | .act a => (s.act a).map fun t => (t, s.handsOut a)

/-- An id of the role is free. -/
def HasFree (role : DtlsRole) (s : Association) : Prop :=
  ∃ sid, OfRole role sid ∧ sid ∉ s.streams

/-- A free id of the role other than the one just behind the counter, which the
search does not reach. Id 0 is what a search without result returns. -/
def Reaches (role : DtlsRole) (s : Association) : Prop :=
  ∃ sid, OfRole role sid ∧ sid ∉ s.streams ∧ (sid = s.initStreamId - 2 → sid = 0)

/-- `create_stream` uses an id that is free and has the parity of the role. -/
def Allots (role : DtlsRole) (s : Association) : Prop :=
  ∀ now label, (s.createStream now label).2.1 ∉ s.streams ∧
    OfRole role (s.createStream now label).2.1

end Association

/-- A stream is only created where the search reaches a free id. -/
def Happening.Reaches (role : DtlsRole) (s : Association) : Happening → Prop
  | .act (.createStream _ _) => s.Reaches role
  | _ => True

/-! ### The search -/

/-- The ids of one parity, by their distance. -/
theorem eq_add_of_ofRole {role : DtlsRole} {a b : UInt16} (ha : OfRole role a)
    (hb : OfRole role b) : ∃ i < 0x8000, b = a + UInt16.ofNat (2 * i) := by
  have hparity : a.toNat % 2 = b.toNat % 2 := by
    have h := congrArg UInt16.toNat (ha.trans hb.symm)
    simpa [UInt16.toNat_mod] using h
  have hla := a.toNat_lt
  have hlb := b.toNat_lt
  refine ⟨(b - a).toNat / 2, ?_, ?_⟩
  · have := (b - a).toNat_lt
    omega
  · have heven : 2 * ((b - a).toNat / 2) = (b - a).toNat := by
      rw [UInt16.toNat_sub]
      omega
    rw [heven, UInt16.ofNat_toNat]
    grind

theorem ofRole_add {role : DtlsRole} {a : UInt16} (h : OfRole role a) (i : ℕ) :
    OfRole role (a + UInt16.ofNat (2 * i)) := by
  have hsame : (a + UInt16.ofNat (2 * i)) % 2 = a % 2 := by
    apply UInt16.toNat_inj.mp
    simp only [UInt16.toNat_mod, UInt16.toNat_add, UInt16.toNat_ofNat', UInt16.reduceToNat]
    omega
  exact hsame.trans h

namespace Association

/-- The search ends on the first id that is free, or on 0 after `n` ids. -/
theorem nextStreamIdLoop_spec (streams : Streams) (n : ℕ) (next : UInt16) :
    (∃ i < n, nextStreamIdLoop streams n next =
        (next + UInt16.ofNat (2 * i), next + UInt16.ofNat (2 * (i + 1))) ∧
          next + UInt16.ofNat (2 * i) ∉ streams) ∨
      (∀ i < n, next + UInt16.ofNat (2 * i) ∈ streams) ∧
        nextStreamIdLoop streams n next = (0, next + UInt16.ofNat (2 * n)) := by
  have hshift (i : ℕ) : next + 2 + UInt16.ofNat (2 * i) = next + UInt16.ofNat (2 * (i + 1)) := by
    apply UInt16.toNat_inj.mp
    simp only [UInt16.toNat_add, UInt16.toNat_ofNat', UInt16.reduceToNat]
    omega
  have hzero : next + UInt16.ofNat (2 * 0) = next := by simp
  induction n generalizing next with
  | zero => exact .inr ⟨by simp, by simp [nextStreamIdLoop]⟩
  | succ n ih =>
    rw [nextStreamIdLoop]
    split_ifs with hmem
    · have hshift' (i : ℕ) :
          next + 2 + 2 + UInt16.ofNat (2 * i) = next + 2 + UInt16.ofNat (2 * (i + 1)) := by
        apply UInt16.toNat_inj.mp
        simp only [UInt16.toNat_add, UInt16.toNat_ofNat', UInt16.reduceToNat]
        omega
      rcases ih (next + 2) hshift' (by simp) with ⟨i, hi, hr, hfree⟩ | ⟨hall, hr⟩
      · rw [hshift, hshift] at hr
        exact .inl ⟨i + 1, by omega, hr, hshift i ▸ hfree⟩
      · rw [hshift] at hr
        refine .inr ⟨fun i hi => ?_, hr⟩
        cases i with
        | zero => rwa [hzero]
        | succ i => exact hshift i ▸ hall i (by omega)
    · have hone : next + 2 = next + UInt16.ofNat (2 * (0 + 1)) := by simp
      exact .inl ⟨0, by omega, by rw [hzero, ← hone], by rwa [hzero]⟩

variable {role : DtlsRole} {s s' : Association}

theorem allots_iff_next : s.Allots role ↔
    s.makeNextStreamId.1 ∉ s.streams ∧ OfRole role s.makeNextStreamId.1 :=
  ⟨fun h => h 0 [], fun h _ _ => h⟩

/-- The next id is as it should be exactly if the search reaches a free id. -/
theorem allots_iff (h : OfRole role s.initStreamId) : s.Allots role ↔ s.Reaches role := by
  have hlast (i : ℕ) (hi : i < 0x8000)
      (heq : s.initStreamId + UInt16.ofNat (2 * i) = s.initStreamId - 2) : i = 0x7FFF := by
    have := congrArg UInt16.toNat heq
    simp only [UInt16.toNat_add, UInt16.toNat_sub, UInt16.toNat_ofNat', UInt16.reduceToNat] at this
    have := s.initStreamId.toNat_lt
    omega
  rcases nextStreamIdLoop_spec s.streams 0x7FFF s.initStreamId with
    ⟨i, hi, hr, hfree⟩ | ⟨hall, hr⟩
  · have hid : s.makeNextStreamId.1 = s.initStreamId + UInt16.ofNat (2 * i) := congrArg Prod.fst hr
    rw [allots_iff_next, hid]
    have hrole := ofRole_add h i
    refine iff_of_true ⟨hfree, hrole⟩ ⟨_, hrole, hfree, fun heq => ?_⟩
    have := hlast i (by omega) heq
    omega
  · have hid : s.makeNextStreamId.1 = 0 := congrArg Prod.fst hr
    rw [allots_iff_next, hid]
    constructor
    · rintro ⟨hfree, hrole⟩
      exact ⟨0, hrole, hfree, fun _ => rfl⟩
    · rintro ⟨sid, hrole, hfree, hzero⟩
      obtain ⟨i, hi, rfl⟩ := eq_add_of_ofRole h hrole
      have hi' : i = 0x7FFF := by
        by_contra hne
        exact hfree (hall i (by omega))
      have heq : s.initStreamId + UInt16.ofNat (2 * i) = s.initStreamId - 2 := by
        subst hi'
        apply UInt16.toNat_inj.mp
        simp only [UInt16.toNat_add, UInt16.toNat_sub, UInt16.toNat_ofNat', UInt16.reduceToNat]
        omega
      rw [← hzero heq]
      exact ⟨hfree, hrole⟩

theorem ofRole_makeNextStreamId (h : OfRole role s.initStreamId) :
    OfRole role s.makeNextStreamId.2.initStreamId := by
  have hr : s.makeNextStreamId.2.initStreamId =
      (nextStreamIdLoop s.streams 0x7FFF s.initStreamId).2 := rfl
  rw [hr]
  rcases nextStreamIdLoop_spec s.streams 0x7FFF s.initStreamId with
    ⟨i, hi, hr, -⟩ | ⟨-, hr⟩
  · rw [hr]
    exact ofRole_add h (i + 1)
  · rw [hr]
    exact ofRole_add h 0x7FFF

end Association

/-! ### Everything else leaves the counter alone -/

/-- The counter is as before. -/
def SameCounter (s s' : Association) : Prop := s'.initStreamId = s.initStreamId

namespace SameCounter

open Association

variable {s s' s'' : Association}

theorem refl (s : Association) : SameCounter s s := rfl

theorem trans (h : SameCounter s s') (h' : SameCounter s' s'') : SameCounter s s'' :=
  Eq.trans h' h

theorem emit (e : Event) (s : Association) : SameCounter s (s.emit e) := rfl

theorem setState (now : ℤ) (state : SctpState) (s : Association) :
    SameCounter s (s.setState now state) := rfl

theorem setStreams (streams : Streams) (s : Association) :
    SameCounter s (s.setStreams streams) := rfl

theorem send (type : ChunkType) (flags : ChunkFlags) (payload : List UInt8) (s : Association) :
    SameCounter s (s.send type flags payload) := by
  obtain ⟨es, hes, -⟩ := send_spec type flags payload s
  rw [hes]
  rfl

theorem sendSack (msg : Message) (s : Association) : SameCounter s (s.sendSack msg) := by
  obtain ⟨es, hes, -⟩ := sendSack_spec msg s
  rw [hes]
  rfl

theorem sendFragments (chunks : List Fragment) (s : Association) :
    SameCounter s (s.sendFragments chunks) := by
  obtain ⟨es, hes, -⟩ := sendFragments_spec chunks s
  rw [hes]
  rfl

theorem streamSend (now : ℤ) (sid : UInt16) (data : List UInt8) (ppid : Ppid)
    (s : Association) : SameCounter s (s.streamSend now sid data ppid).1 := by
  rw [Association.streamSend]
  split
  · exact refl s
  · exact sendFragments _ _

theorem closeEntry (announce : Bool) (s : Association) (entry : UInt16 × Stream) :
    SameCounter s (s.closeEntry announce entry) := by
  obtain ⟨tsn, es, hes, -⟩ := closeEntry_spec announce s entry
  rw [hes]
  rfl

theorem closeStreams (announce : Bool) (s : Association) :
    SameCounter s (s.closeStreams announce) := by
  obtain ⟨tsn, es, hes, -⟩ := closeStreams_spec announce s
  rw [hes]
  rfl

theorem reading {α : Type} {payload : Except Fault α} {k : α → Option Association}
    (hk : ∀ a, k a = some s' → SameCounter s s') (h : s.reading payload k = some s') :
    SameCounter s s' := by
  unfold Association.reading at h
  split at h
  · exact hk _ h
  · exact Option.some.inj h ▸ send _ _ _ s
  · cases h

theorem onDcepMessage {now : ℤ} {msg : Message} (h : s.onDcepMessage now msg = some s') :
    SameCounter s s' := by
  rw [Association.onDcepMessage] at h
  split at h
  · exact Option.some.inj h ▸ refl s
  · cases h
  · split_ifs at h
    · split at h
      · exact Option.some.inj h ▸ refl s
      · obtain rfl := Option.some.inj h
        have hsend := streamSend now msg.streamId [dcepAck] Ppid.dcep s
        exact hsend.trans (emit _ _)
    · exact Option.some.inj h ▸ refl s
    · exact Option.some.inj h ▸ refl s

theorem onUserMessage {now : ℤ} {msg : Message} (h : s.onUserMessage now msg = some s') :
    SameCounter s s' := by
  rw [Association.onUserMessage] at h
  split at h
  · exact Option.some.inj h ▸ refl s
  · simp only at h
    split_ifs at h
    · exact onDcepMessage h
    · split at h
      · exact Option.some.inj h ▸ refl s
      · next stream _ =>
        have hclose := closeEntry true s (msg.streamId, stream)
        exact Option.some.inj h ▸ hclose.trans (setStreams _ _)
    · split at h
      · exact Option.some.inj h ▸ refl s
      · exact Option.some.inj h ▸ refl s
    · exact Option.some.inj h ▸ refl s

theorem insertDataChunk {now : ℤ} {flags : ChunkFlags} {chunk : DataChunk}
    (h : s.insertDataChunk now flags chunk = some s') : SameCounter s s' := by
  have hround (t t' : Association) (msg : Message) (ht : SameCounter s t)
      (hr : Round now chunk.streamId t t' msg) : SameCounter s t' := by
    obtain ⟨stream, stream', -, -, hmsg⟩ := hr
    have hsack := sendSack msg (t.setStreams (t.streams.insert chunk.streamId stream'))
    have ht' : SameCounter s (t.setStreams (t.streams.insert chunk.streamId stream')) := ht
    exact (ht'.trans hsack).trans (onUserMessage hmsg)
  let stream := (s.receive now flags chunk).1
  have hstart : SameCounter s (s.setStreams (s.streams.insert chunk.streamId stream)) := refl s
  have hfind : (s.setStreams (s.streams.insert chunk.streamId stream)).streams[chunk.streamId]? =
      some stream := Std.ExtTreeMap.getElem?_insert_self
  have hready : ∀ msg ∈ readyLoop (stream.messages.size + 1) stream, True := fun _ _ => trivial
  exact drain_induct (fun t t' msg ht _ hr => hround t t' msg ht hr) hstart hfind hready h

/-- No handler of a chunk moves the counter. -/
theorem onChunk {now : ℤ} {header : Header} {chunk : Chunk}
    (h : s.onChunk now header chunk = some s') : SameCounter s s' := by
  have hends :=
    ((closeStreams true s).trans (setState now .closed _)).trans (emit .disconnected _)
  cases ht : chunk.type with
  | init =>
    rw [Association.onChunk, ht] at h
    refine reading (fun init hk => ?_) h
    have hremote : SameCounter s ((s.setStreams ∅).setRemote init header) := refl s
    exact Option.some.inj hk ▸ hremote.trans (send _ _ _ _)
  | initAck =>
    rw [Association.onChunk, ht] at h
    refine reading (fun initAck hk => ?_) h
    split at hk
    · exact Option.some.inj hk ▸ send _ _ _ s
    · next cookie _ =>
      have hcookie : SameCounter s (s.setRemoteCookie cookie) := refl s
      exact Option.some.inj hk ▸ hcookie.trans (send _ _ _ _)
  | cookieEcho =>
    rw [Association.onChunk, ht] at h
    refine reading (fun echo hk => ?_) h
    split at hk
    · exact Option.some.inj hk ▸ send _ _ _ s
    · have hack := send .cookieAck flagsNone [] s
      exact Option.some.inj hk ▸ (hack.trans (setState now .connected _)).trans (emit _ _)
  | cookieAck =>
    rw [Association.onChunk, ht] at h
    exact Option.some.inj h ▸ refl s
  | data =>
    rw [Association.onChunk, ht] at h
    exact reading (fun data hk => insertDataChunk hk) h
  | sack =>
    rw [Association.onChunk, ht] at h
    have hsack (sack : SackChunk) : SameCounter s (s.processSack sack) := setStreams _ s
    exact reading (fun sack hk => Option.some.inj hk ▸ hsack sack) h
  | heartbeat =>
    rw [Association.onChunk, ht] at h
    refine reading (fun hb hk => ?_) h
    have hanswer := send .operationalError flagsNone (HeartbeatChunk.serialize ⟨hb.parameters⟩) s
    exact Option.some.inj hk ▸ hanswer.trans (emit _ _)
  | heartbeatAck =>
    rw [Association.onChunk, ht] at h
    exact Option.some.inj h ▸ refl s
  | shutdown =>
    rw [Association.onChunk, ht] at h
    have hclose := (closeStreams true s).trans (setState now .closed _)
    have hack := hclose.trans (send .shutdownAck flagsNone [] _)
    exact Option.some.inj h ▸ hack.trans (emit _ _)
  | shutdownAck =>
    rw [Association.onChunk, ht] at h
    exact Option.some.inj h ▸ hends
  | abort =>
    rw [Association.onChunk, ht] at h
    refine (setState now .closed s).trans (reading (fun abort hk => ?_) h)
    have hclose := closeStreams true (s.setState now .closed)
    exact Option.some.inj hk ▸ hclose.trans (emit _ _)
  | operationalError =>
    rw [Association.onChunk, ht] at h
    exact Option.some.inj h ▸ hends
  | unnamed b =>
    rw [Association.onChunk, ht] at h
    exact Option.some.inj h ▸ refl s

theorem connInput {now : ℤ} {data : List UInt8} (h : s.connInput now data = some s') :
    SameCounter s s' := by
  have hfold (header : Header) (chunks : List Chunk) (t : Association)
      (hf : chunks.foldlM (Association.onChunk now header) t = some s') : SameCounter t s' := by
    induction chunks generalizing t with
    | nil => exact Option.some.inj hf ▸ refl t
    | cons chunk chunks ih =>
      obtain ⟨t', ht, hf⟩ := Option.bind_eq_some_iff.mp hf
      exact (onChunk ht).trans (ih t' hf)
  rw [Association.connInput] at h
  split at h
  · exact Option.some.inj h ▸ refl s
  · cases h
  · split_ifs at h
    · exact hfold _ _ s h
    · exact Option.some.inj h ▸ refl s

theorem connect (now : ℤ) (remotePort : UInt16) (s : Association) :
    SameCounter s (s.connect now remotePort).1 := by
  rw [Association.connect]
  split_ifs
  · exact refl s
  · exact refl s
  · dsimp only
    have hstart : SameCounter s (Association.setStreams ∅ { s with remotePort }) := refl s
    have hsend := send .init flagsNone s.initChunk.serialize
      (Association.setStreams ∅ { s with remotePort })
    exact (hstart.trans hsend).trans (setState now .connecting _)

theorem onAckTimer (now : ℤ) (s : Association) : SameCounter s (s.onAckTimer now) := by
  have hstep (t : Association) (sid : UInt16) : SameCounter t (t.ackStream now sid) := by
    rw [ackStream]
    split
    · exact refl t
    · next stream _ =>
      let r := (stream.clearTimeoutRecvMessages now).resendMessages
      have hsent : SameCounter t
          ((t.setStreams (t.streams.insert sid r.1)).sendFragments r.2) := sendFragments r.2 _
      cases hfirst : r.1.firstMessage with
      | none =>
        simp only [r] at hfirst
        simp only [hfirst]
        exact hsent
      | some msg =>
        simp only [r] at hfirst
        simp only [hfirst]
        exact hsent.trans (sendSack _ _)
  have hfold (sids : List UInt16) (t : Association) :
      SameCounter t (sids.foldl (ackStream now) t) := by
    induction sids generalizing t with
    | nil => exact refl t
    | cons sid sids ih => exact (hstep t sid).trans (ih _)
  rw [Association.onAckTimer]
  split_ifs
  · exact refl s
  · exact hfold _ s

/-- Of the calls and the timers, only `create_stream` moves the counter. -/
theorem act {a : Act} (ha : ∀ now label, a ≠ .createStream now label) (h : s.act a = some s') :
    SameCounter s s' := by
  cases a with
  | connect now remotePort => exact Option.some.inj h ▸ connect now remotePort s
  | createStream now label => exact absurd rfl (ha now label)
  | closeStream sid =>
    rw [Association.act] at h
    cases hst : s.streams[sid]? with
    | none =>
      rw [closeStream, hst] at h
      cases h
    | some stream =>
      obtain ⟨es, hes, -⟩ := closeStream_spec hst
      obtain rfl := Option.some.inj (hes.symm.trans h)
      have htsn : SameCounter s (s.setTsn (stream.close s.localTsn).2.1) := refl s
      have hsaid : SameCounter s (say es (s.setTsn (stream.close s.localTsn).2.1)) := htsn
      exact (hsaid.trans (emit (.streamClosed sid) _)).trans (setStreams _ _)
  | sendUserMessage now sid data => exact Option.some.inj h ▸ streamSend now sid data _ s
  | stateTimer now =>
    obtain rfl := Option.some.inj h
    simp only [onStateTimer]
    split_ifs
    · exact refl s
    · exact send .init flagsNone s.initChunk.serialize s
    · exact refl s
    · have hset := setState now .connected s
      exact hset.trans (send .heartbeat flagsNone (heartbeatChunk now).serialize _)
    · exact refl s
  | ackTimer now => exact Option.some.inj h ▸ onAckTimer now s

end SameCounter

/-! ### Runs -/

namespace Association

variable {role : DtlsRole} {s s' : Association}

theorem handleDtlsCompleted_initStreamId (role : DtlsRole) (now : ℤ) (remotePort : UInt16)
    (s : Association) :
    (s.handleDtlsCompleted role now remotePort).initStreamId = firstStreamId role := by
  cases role with
  | client => exact SameCounter.connect now remotePort (s.setInitStreamId (firstStreamId .client))
  | server => rfl

theorem handleDtlsCompleted_streams (role : DtlsRole) (now : ℤ) (remotePort : UInt16)
    (h : s.streams = ∅) : (s.handleDtlsCompleted role now remotePort).streams = ∅ := by
  cases role with
  | client =>
    rw [handleDtlsCompleted, connect]
    split_ifs
    · exact h
    · exact h
    · obtain ⟨es, hes, -⟩ := send_spec .init flagsNone s.initChunk.serialize
        (setStreams ∅ { s.setInitStreamId (firstStreamId .client) with remotePort })
      have hstate (t : Association) : (setState now .connecting t).streams = t.streams := rfl
      dsimp only
      rw [hstate]
      exact congrArg streams hes
  | server => exact h

theorem ofRole_handleDtlsCompleted (role : DtlsRole) (now : ℤ) (remotePort : UInt16)
    (s : Association) : OfRole role (s.handleDtlsCompleted role now remotePort).initStreamId :=
  congrArg (· % 2) (handleDtlsCompleted_initStreamId role now remotePort s)

theorem createStream_initStreamId (now : ℤ) (label : List UInt8) (s : Association) :
    (s.createStream now label).1.initStreamId = s.makeNextStreamId.2.initStreamId := by
  have hensure : SameCounter s.makeNextStreamId.2
      (s.makeNextStreamId.2.ensureStream s.makeNextStreamId.1) := by
    rw [ensureStream]
    split <;> exact SameCounter.refl _
  exact hensure.trans (SameCounter.streamSend now _ _ _ _)

/-- The counter keeps the parity of the role. -/
theorem ofRole_happen {h : Happening} {ids : List UInt16} (hs : OfRole role s.initStreamId)
    (hr : s.happen role h = some (s', ids)) : OfRole role s'.initStreamId := by
  cases h with
  | dtlsCompleted now remotePort =>
    obtain ⟨rfl, -⟩ := Prod.mk.inj (Option.some.inj hr)
    exact ofRole_handleDtlsCompleted role now remotePort s
  | input now data =>
    obtain ⟨t, ht, heq⟩ := Option.map_eq_some_iff.mp hr
    obtain ⟨rfl, -⟩ := Prod.mk.inj heq
    exact SameCounter.connInput ht ▸ hs
  | act a =>
    obtain ⟨t, ht, heq⟩ := Option.map_eq_some_iff.mp hr
    obtain ⟨rfl, -⟩ := Prod.mk.inj heq
    by_cases ha : ∃ now label, a = .createStream now label
    · obtain ⟨now, label, rfl⟩ := ha
      obtain rfl := Option.some.inj ht
      rw [createStream_initStreamId]
      exact ofRole_makeNextStreamId hs
    · have ha' : ∀ now label, a ≠ .createStream now label := fun now label h => ha ⟨now, label, h⟩
      exact SameCounter.act ha' ht ▸ hs

/-- Along a run that only creates streams where the search reaches a free id, all the
ids handed out are of the role. -/
theorem ofRole_run {hs : List Happening} {ids : List UInt16} (hstart : OfRole role s.initStreamId)
    (hok : RunOk (happen role) (Happening.Reaches role) s hs)
    (hr : run (happen role) s hs = some (s', ids)) : ∀ sid ∈ ids, OfRole role sid := by
  have hinv := RunOk.invariant
    (fun (t : Association) out => OfRole role t.initStreamId ∧ ∀ sid ∈ out, OfRole role sid)
    (fun t out h t' o ht hok ht' => ⟨ofRole_happen ht.1 ht', ?_⟩) [] hok
    ⟨hstart, List.forall_mem_nil _⟩ hr
  · exact hinv.2
  · have hout : ∀ sid ∈ o, OfRole role sid := by
      cases h with
      | dtlsCompleted now remotePort =>
        obtain ⟨-, rfl⟩ := Prod.mk.inj (Option.some.inj ht')
        exact List.forall_mem_nil _
      | input now data =>
        obtain ⟨u, -, heq⟩ := Option.map_eq_some_iff.mp ht'
        obtain ⟨-, rfl⟩ := Prod.mk.inj heq
        exact List.forall_mem_nil _
      | act a =>
        obtain ⟨u, -, heq⟩ := Option.map_eq_some_iff.mp ht'
        obtain ⟨-, rfl⟩ := Prod.mk.inj heq
        cases a with
        | createStream now label =>
          have hallots := (allots_iff ht.1).mpr hok
          exact List.forall_mem_singleton.mpr (hallots now label).2
        | _ => exact List.forall_mem_nil _
    exact List.forall_mem_append.mpr ⟨ht.2, hout⟩

/-- In every state reached, the next id is free and of the role exactly if the search
reaches a free id, and two endpoints of opposite roles whose searches all do hand
out different ids. -/
theorem allocation_iff (now : ℤ) (remotePort : UInt16) (s : Association) :
    (∀ role hs t ids,
      run (happen role) (handleDtlsCompleted role now remotePort s) hs = some (t, ids) →
        ((t.HasFree role → t.Allots role) ↔ (t.HasFree role → t.Reaches role))) ∧
    ∀ hs t ids now' remotePort' s' hs' t' ids',
      run (happen .client) (handleDtlsCompleted .client now remotePort s) hs = some (t, ids) →
      run (happen .server) (handleDtlsCompleted .server now' remotePort' s') hs' =
        some (t', ids') →
      RunOk (happen .client) (Happening.Reaches .client)
        (handleDtlsCompleted .client now remotePort s) hs →
      RunOk (happen .server) (Happening.Reaches .server)
        (handleDtlsCompleted .server now' remotePort' s') hs' →
      List.Disjoint ids ids' := by
  constructor
  · intro role hs t ids hr
    have hstep (t : Association) (h : Happening) (t' : Association) (o : List UInt16)
        (ht : OfRole role t.initStreamId) (hh : happen role t h = some (t', o)) :
        OfRole role t'.initStreamId := ofRole_happen ht hh
    have hrole : OfRole role t.initStreamId :=
      run_invariant hstep (ofRole_handleDtlsCompleted role now remotePort s) hr
    rw [allots_iff hrole]
  · intro hs t ids now' remotePort' s' hs' t' ids' hr hr' hok hok' sid hsid hsid'
    have hclient := ofRole_run (ofRole_handleDtlsCompleted .client now remotePort s) hok hr sid hsid
    have hserver :=
      ofRole_run (ofRole_handleDtlsCompleted .server now' remotePort' s') hok' hr' sid hsid'
    have hne : ¬ firstStreamId .client % 2 = firstStreamId .server % 2 := by decide
    exact hne (hclient.symm.trans hserver)

/-! ### A run that fills the ids of the client -/

theorem mem_createStream (now : ℤ) (label : List UInt8) (s : Association) (sid : UInt16) :
    sid ∈ (s.createStream now label).1.streams ↔ s.makeNextStreamId.1 = sid ∨ sid ∈ s.streams := by
  have hensure : sid ∈ (s.makeNextStreamId.2.ensureStream s.makeNextStreamId.1).streams ↔
      s.makeNextStreamId.1 = sid ∨ sid ∈ s.streams := by
    have hsame : s.makeNextStreamId.2.streams = s.streams := rfl
    rw [ensureStream]
    split
    · rw [setStreams_streams, Std.ExtTreeMap.mem_insert, Std.LawfulEqCmp.compare_eq_iff_eq, hsame]
    · next stream hst =>
      rw [hsame] at hst ⊢
      refine ⟨.inr, ?_⟩
      rintro (rfl | h)
      · exact Std.ExtTreeMap.mem_iff_isSome_getElem?.mpr (hst ▸ rfl)
      · exact h
  refine Iff.trans ?_ hensure
  change sid ∈ (streamSend now s.makeNextStreamId.1 (DcepOpen.serialize { label }) Ppid.dcep
    (s.makeNextStreamId.2.ensureStream s.makeNextStreamId.1)).1.streams ↔ _
  generalize s.makeNextStreamId.2.ensureStream s.makeNextStreamId.1 = t
  exact mem_streamSend now _ _ Ppid.dcep t sid

/-- The first `k` ids of the client are in use. -/
structure Filled (k : ℕ) (s : Association) : Prop where
  counter : s.initStreamId = 1 + UInt16.ofNat (2 * k)
  mem : ∀ sid, sid ∈ s.streams ↔ ∃ i < k, sid = 1 + UInt16.ofNat (2 * i)

theorem Filled.createStream {k : ℕ} (h : s.Filled k) (hk : k < 0x8000) :
    Filled (k + 1) (s.createStream 0 []).1 := by
  have hfree : s.initStreamId ∉ s.streams := by
    rw [h.mem, h.counter]
    rintro ⟨i, hi, heq⟩
    have := congrArg UInt16.toNat heq
    simp only [UInt16.toNat_add, UInt16.toNat_ofNat', UInt16.reduceToNat] at this
    omega
  have hnext : nextStreamIdLoop s.streams 0x7FFF s.initStreamId =
      (s.initStreamId, s.initStreamId + 2) := by
    rw [show 0x7FFF = 0x7FFE + 1 from rfl, nextStreamIdLoop, if_neg hfree]
  constructor
  · rw [createStream_initStreamId, makeNextStreamId, hnext, h.counter]
    apply UInt16.toNat_inj.mp
    simp only [UInt16.toNat_add, UInt16.toNat_ofNat', UInt16.reduceToNat]
    omega
  · intro sid
    rw [mem_createStream, makeNextStreamId, hnext, h.mem, h.counter]
    constructor
    · rintro (rfl | ⟨i, hi, rfl⟩)
      · exact ⟨k, by omega, rfl⟩
      · exact ⟨i, by omega, rfl⟩
    · rintro ⟨i, hi, rfl⟩
      rcases Nat.lt_succ_iff_lt_or_eq.mp hi with hi | rfl
      · exact .inr ⟨i, hi, rfl⟩
      · exact .inl rfl

theorem Filled.creations (h : s.Filled 0) (k : ℕ) (hk : k ≤ 0x8000) :
    ∃ t ids, run (happen .client) s (List.replicate k (.act (.createStream 0 []))) =
      some (t, ids) ∧ t.Filled k := by
  induction k with
  | zero => exact ⟨s, [], rfl, h⟩
  | succ k ih =>
    obtain ⟨t, ids, hr, ht⟩ := ih (by omega)
    refine ⟨(t.createStream 0 []).1, ids ++ [(t.createStream 0 []).2.1], ?_,
      ht.createStream (by omega)⟩
    rw [List.replicate_succ', run_append_eq_some]
    exact ⟨t, ids, _, hr, rfl, rfl⟩

/-- A client that has used all its ids and closes the last stream. -/
def exhausting : List Happening :=
  List.replicate 0x8000 (.act (.createStream 0 [])) ++ [.act (.closeStream 65535)]

theorem last_id_never_found :
    ¬ ∀ role now remotePort s hs t ids,
      run (happen role) (handleDtlsCompleted role now remotePort s) hs = some (t, ids) →
        t.HasFree role → t.Allots role := by
  intro hall
  let start := opened 0 5000 [1, 2, 3, 4] 7 100
  have hstart : Filled 0 (handleDtlsCompleted .client 0 5000 start) := by
    refine ⟨?_, fun sid => ?_⟩
    · rw [handleDtlsCompleted_initStreamId]
      rfl
    · rw [handleDtlsCompleted_streams .client 0 5000 rfl]
      simp
  obtain ⟨t, ids, hr, ht⟩ := hstart.creations 0x8000 le_rfl
  obtain ⟨stream, hst⟩ : ∃ stream, t.streams[(65535 : UInt16)]? = some stream :=
    ⟨_, Std.ExtTreeMap.getElem?_eq_some_getElem ((ht.mem 65535).mpr ⟨0x7FFF, by omega, rfl⟩)⟩
  obtain ⟨es, hclose, -⟩ := closeStream_spec hst
  let t' := setStreams (t.streams.erase 65535) (emit (.streamClosed 65535)
    (say es (t.setTsn (stream.close t.localTsn).2.1)))
  have hmem (sid : UInt16) : sid ∈ t'.streams ↔ sid ≠ 65535 ∧ sid ∈ t.streams := by
    have herase : t'.streams = t.streams.erase 65535 := rfl
    rw [herase, Std.ExtTreeMap.mem_erase, Ne, Std.LawfulEqCmp.compare_eq_iff_eq, eq_comm]
  have hrun : run (happen .client) (handleDtlsCompleted .client 0 5000 start) exhausting =
      some (t', ids ++ ([] ++ [])) :=
    run_append_eq_some.mpr ⟨t, ids, [] ++ [], hr,
      run_cons_eq_some.mpr ⟨t', [], [], by rw [happen, act, hclose]; rfl, rfl, rfl⟩, rfl⟩
  have hfree : t'.HasFree .client := ⟨65535, by decide, fun h => ((hmem 65535).mp h).1 rfl⟩
  have hallots := allots_iff_next.mp (hall .client 0 5000 start exhausting t' _ hrun hfree)
  have hsame : SameCounter t t' :=
    SameCounter.act (a := .closeStream 65535) (fun _ _ => nofun) hclose
  have hcounter : t'.initStreamId = 1 := Eq.trans hsame ht.counter
  rcases nextStreamIdLoop_spec t'.streams 0x7FFF t'.initStreamId with
    ⟨i, hi, -, hout⟩ | ⟨-, hzero⟩
  · -- all the ids that the search looks at are in use
    rw [hcounter, hmem] at hout
    refine hout ⟨fun heq => ?_, (ht.mem _).mpr ⟨i, by omega, rfl⟩⟩
    have := congrArg UInt16.toNat heq
    simp only [UInt16.toNat_add, UInt16.toNat_ofNat', UInt16.reduceToNat] at this
    omega
  · have hid : t'.makeNextStreamId.1 = 0 := congrArg Prod.fst hzero
    rw [hid] at hallots
    exact absurd hallots.2 (by decide)

/-- Two streams are created. -/
private def twoStreams : List Happening := List.replicate 2 (.act (.createStream 0 []))

private theorem twoStreams_ok {role : DtlsRole} (first second : UInt16)
    (hfirst : OfRole role first ∧ first ∉ s.streams ∧ first ≠ s.initStreamId - 2)
    (hsecond : OfRole role second ∧ second ∉ (s.createStream 0 []).1.streams ∧
      second ≠ (s.createStream 0 []).1.initStreamId - 2) :
    RunOk (happen role) (Happening.Reaches role) s twoStreams := by
  refine ⟨⟨first, hfirst.1, hfirst.2.1, fun heq => absurd heq hfirst.2.2⟩, fun r hr => ?_⟩
  obtain rfl := Option.some.inj hr
  exact ⟨⟨second, hsecond.1, hsecond.2.1, fun heq => absurd heq hsecond.2.2⟩, fun _ _ => trivial⟩

/-- The first ids of each role. -/
theorem first_ids_differ : ∃ t ids t' ids',
    run (happen .client) (handleDtlsCompleted .client 0 5000 {}) twoStreams = some (t, ids) ∧
      run (happen .server) (handleDtlsCompleted .server 0 5000 {}) twoStreams = some (t', ids') ∧
      ids = [1, 3] ∧ ids' = [2, 4] ∧ List.Disjoint ids ids' := by
  have hids (role : DtlsRole) (ids : List UInt16) (h : (run (happen role)
      (handleDtlsCompleted role 0 5000 {}) twoStreams).map Prod.snd = some ids) :
      ∃ t, run (happen role) (handleDtlsCompleted role 0 5000 {}) twoStreams = some (t, ids) := by
    obtain ⟨⟨t, _⟩, ht, rfl⟩ := Option.map_eq_some_iff.mp h
    exact ⟨t, ht⟩
  obtain ⟨t, ht⟩ := hids .client [1, 3] (by decide +kernel)
  obtain ⟨t', ht'⟩ := hids .server [2, 4] (by decide +kernel)
  refine ⟨t, _, t', _, ht, ht', rfl, rfl, (allocation_iff 0 5000 {}).2 twoStreams t [1, 3] 0 5000 {}
    twoStreams t' [2, 4] ht ht' ?_ ?_⟩
  · exact twoStreams_ok 1 3 (by decide +kernel) (by decide +kernel)
  · exact twoStreams_ok 2 4 (by decide +kernel) (by decide +kernel)

end Association

end CxxDeps.Sctp
