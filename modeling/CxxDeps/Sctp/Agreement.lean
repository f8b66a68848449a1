import CxxDeps.Library.History
import CxxDeps.Sctp.Handshake
import CxxDeps.Sctp.Network

/-! Agreement of the handshake. `on_init` stores the tag and the initial TSN of the
other end; `on_init_ack` stores nothing but the cookie. So an endpoint that becomes
connected knows its peer exactly if an INIT of the peer came before, and the one
that only called `connect` does not. -/

namespace CxxDeps.Sctp

open Library

/-- The moves of the exchange: `connect`, the timer that repeats the INIT, and packets
that arrive, in any order and any number of times. -/
def Move.Exchanges : Move → Prop
  | .deliver _ _ _ => True
  | .act _ (.connect _ _) => True
  | .act _ (.stateTimer _) => True
  | .act _ _ => False

instance : (m : Move) → Decidable m.Exchanges
  | .deliver _ _ _ => .isTrue trivial
  | .act _ (.connect _ _) => .isTrue trivial
  | .act _ (.stateTimer _) => .isTrue trivial
  | .act _ (.createStream _ _) => .isFalse id
  | .act _ (.closeStream _) => .isFalse id
  | .act _ (.sendUserMessage _ _ _) => .isFalse id
  | .act _ (.ackTimer _) => .isFalse id

/-- The move brings a chunk of this type to a side. -/
def Net.brings (net : Net) (type : ChunkType) (side : Side) : Move → Bool
  | .deliver side' _ i => side' = side ∧ (net.arrives side' i).map Chunk.type = some type
  | .act _ _ => false

/-- A connected side has the tag of its peer and the initial TSN with which the peer
opened, which is the one that its INIT and its INIT_ACK announce. -/
def Net.Agree (start net : Net) : Prop :=
  ∀ side, (net side).state = .connected →
    (net side).remoteTag = (net side.peer).localTag ∧
      (net side).remoteInitTsn = (start side.peer).localTsn

/-- The sides at which an INIT has arrived. -/
def Net.meet (net : Net) (m : Move) (met : Side → Bool) : Side → Bool :=
  fun side => met side || net.brings .init side m

/-- A COOKIE_ACK comes to a side only after an INIT, or the peer has zeros to tell. -/
def Net.Informed (start : Net) (w : Net × (Side → Bool)) (m : Move) : Prop :=
  ∀ side, w.1.brings .cookieAck side m →
    w.2 side ∨ (start side.peer).localTag = 0 ∧ (start side.peer).localTsn = 0

instance (start : Net) (w : Net × (Side → Bool)) (m : Move) : Decidable (start.Informed w m) :=
  decidable_of_iff (∀ side ∈ [Side.client, Side.server], w.1.brings .cookieAck side m →
      w.2 side ∨ (start side.peer).localTag = 0 ∧ (start side.peer).localTsn = 0)
    ⟨fun h side => h side (by cases side <;> simp), fun h side _ => h side⟩

/-! ### What an endpoint of the exchange sends -/

/-- A chunk that `own` sends to `peer`. The INIT_ACK is sent by a side that has met the
other, and the COOKIE_ECHO to one. -/
def Exchanged (own peer : Association) (met metPeer : Bool) (chunk : Chunk) : Prop :=
  match chunk.type with
  | .init => chunk.payload = own.initChunk.serialize
  | .initAck => met ∧ chunk.payload = own.initAckChunk.serialize
  | .cookieEcho => metPeer ∧ chunk.payload = peer.localCookie
  | .cookieAck => True
  | .heartbeat => True
  | .operationalError => True
  | _ => False

theorem Exchanged.named {own peer : Association} {met metPeer : Bool} {chunk : Chunk}
    (h : Exchanged own peer met metPeer chunk) : chunk.type.Named := by
  unfold Exchanged at h
  cases ht : chunk.type with
  | unnamed b => simp [ht] at h
  | _ => trivial

theorem Exchanged.mono {own peer : Association} {met met' metPeer metPeer' : Bool}
    {chunk : Chunk} (hmet : met → met') (hpeer : metPeer → metPeer')
    (h : Exchanged own peer met metPeer chunk) : Exchanged own peer met' metPeer' chunk := by
  unfold Exchanged at h ⊢
  split at h
  case h_2 => exact ⟨hmet h.1, h.2⟩
  case h_3 => exact ⟨hpeer h.1, h.2⟩
  all_goals exact h

/-- An endpoint of the exchange, compared with what it and its peer were when they were
opened. -/
structure Exchanging (own peer : Association) (met metPeer : Bool) (s : Association) : Prop where
  tag : s.localTag = own.localTag
  tsn : s.localTsn = own.localTsn
  cookie : s.localCookie = own.localCookie
  streams : s.streams = ∅
  remote : (s.remoteTag, s.remoteInitTsn) =
    if met then (peer.localTag, peer.localTsn) else (0, 0)
  packets : ∀ data, .sendData data ∈ s.events →
    ∃ chunk, Exchanged own peer met metPeer chunk ∧ Says chunk (.sendData data)

namespace Exchanging

variable {own peer : Association} {met metPeer : Bool} {s : Association}

theorem initChunk (h : Exchanging own peer met metPeer s) : s.initChunk = own.initChunk := by
  rw [Association.initChunk, Association.initChunk, h.tag, h.tsn]

theorem initAckChunk (h : Exchanging own peer met metPeer s) :
    s.initAckChunk = own.initAckChunk := by
  rw [Association.initAckChunk, Association.initAckChunk, h.initChunk, h.cookie]

theorem mono (h : Exchanging own peer met metPeer s) {metPeer' : Bool}
    (hpeer : metPeer → metPeer') : Exchanging own peer met metPeer' s := by
  refine ⟨h.tag, h.tsn, h.cookie, h.streams, h.remote, fun data hdata => ?_⟩
  obtain ⟨chunk, hchunk, hsaid⟩ := h.packets data hdata
  exact ⟨chunk, hchunk.mono id hpeer, hsaid⟩

theorem setState (h : Exchanging own peer met metPeer s) (now : ℤ) (state : SctpState) :
    Exchanging own peer met metPeer (s.setState now state) :=
  ⟨h.tag, h.tsn, h.cookie, h.streams, h.remote, h.packets⟩

theorem emit (h : Exchanging own peer met metPeer s) {e : Event}
    (he : ∀ data, e ≠ .sendData data) : Exchanging own peer met metPeer (s.emit e) := by
  refine ⟨h.tag, h.tsn, h.cookie, h.streams, h.remote, fun data hdata => ?_⟩
  rcases List.mem_append.mp hdata with hdata | hdata
  · exact h.packets data hdata
  · exact absurd (List.mem_singleton.mp hdata).symm (he data)

theorem send (h : Exchanging own peer met metPeer s) {type : ChunkType} {flags : ChunkFlags}
    {payload : List UInt8} (hc : Exchanged own peer met metPeer { type, flags, payload }) :
    Exchanging own peer met metPeer (s.send type flags payload) := by
  obtain ⟨es, hes, hsaid⟩ := Association.send_spec type flags payload s
  rw [hes]
  refine ⟨h.tag, h.tsn, h.cookie, h.streams, h.remote, fun data hdata => ?_⟩
  rcases List.mem_append.mp hdata with hdata | hdata
  · exact h.packets data hdata
  · exact ⟨_, hc, hsaid _ hdata⟩

theorem sendError (h : Exchanging own peer met metPeer s) (cause : ErrorCause) :
    Exchanging own peer met metPeer (s.sendError cause) := h.send trivial

theorem closeStreams (h : Exchanging own peer met metPeer s) (announce : Bool) :
    Exchanging own peer met metPeer (s.closeStreams announce) := by
  have hnone : s.closeStreams announce = s.setStreams ∅ := by
    have hnil : (∅ : Streams).toList = [] := rfl
    rw [Association.closeStreams, h.streams, hnil]
    rfl
  rw [hnone]
  exact ⟨h.tag, h.tsn, h.cookie, rfl, h.remote, h.packets⟩

/-- `on_init` stores what the INIT says. -/
theorem onInit (h : Exchanging own peer met metPeer s) {header : Header} {chunk : Chunk}
    {s' : Association} (hp : InitChunk.deserialize chunk.payload = .ok peer.initChunk)
    (hs : s.onInit header chunk = some s') : Exchanging own peer true metPeer s' := by
  rw [Association.onInit, hp] at hs
  obtain rfl := Option.some.inj hs
  have hremote : Exchanging own peer true metPeer
      ((s.setStreams ∅).setRemote peer.initChunk header) := by
    refine ⟨h.tag, h.tsn, h.cookie, rfl, rfl, fun data hdata => ?_⟩
    obtain ⟨chunk, hchunk, hsaid⟩ := h.packets data hdata
    exact ⟨chunk, hchunk.mono (fun _ => rfl) id, hsaid⟩
  exact hremote.send ⟨rfl, congrArg InitChunk.serialize hremote.initAckChunk⟩

/-- `on_init_ack` stores nothing but the cookie. -/
theorem onInitAck (h : Exchanging own peer met true s) {chunk : Chunk} {s' : Association}
    (hp : InitChunk.deserialize chunk.payload = .ok peer.initAckChunk)
    (hs : s.onInitAck chunk = some s') : Exchanging own peer met true s' := by
  have hfind : findParameter stateCookie peer.initAckChunk.parameters =
      some peer.localCookie := by
    simp [Association.initAckChunk, findParameter]
  simp only [Association.onInitAck, hp, Association.reading, hfind] at hs
  obtain rfl := Option.some.inj hs
  have hcookie : Exchanging own peer met true (s.setRemoteCookie peer.localCookie) :=
    ⟨h.tag, h.tsn, h.cookie, h.streams, h.remote, h.packets⟩
  exact hcookie.send ⟨rfl, rfl⟩

theorem onCookieEcho (h : Exchanging own peer met metPeer s) {now : ℤ} {chunk : Chunk}
    {s' : Association} (hs : s.onCookieEcho now chunk = some s') :
    Exchanging own peer met metPeer s' := by
  rw [Association.onCookieEcho] at hs
  cases hp : CookieEchoChunk.deserialize chunk.payload chunk.payloadLength with
  | error f =>
    rw [hp] at hs
    cases f with
    | rejected => exact Option.some.inj hs ▸ h.sendError _
    | undefined => cases hs
  | ok echo =>
    simp only [hp, Association.reading] at hs
    split at hs
    · exact Option.some.inj hs ▸ h.sendError _
    · have hack : Exchanging own peer met metPeer (s.send .cookieAck flagsNone []) :=
        h.send trivial
      exact Option.some.inj hs ▸ (hack.setState now .connected).emit (by simp)

theorem onHeartbeat (h : Exchanging own peer met metPeer s) {chunk : Chunk} {s' : Association}
    (hs : s.onHeartbeat chunk = some s') : Exchanging own peer met metPeer s' := by
  rw [Association.onHeartbeat] at hs
  cases hp : HeartbeatChunk.deserialize chunk.payload with
  | error f =>
    rw [hp] at hs
    cases f with
    | rejected => exact Option.some.inj hs ▸ h.sendError _
    | undefined => cases hs
  | ok hb =>
    rw [hp] at hs
    have hanswer : Exchanging own peer met metPeer
        (s.send .operationalError flagsNone (HeartbeatChunk.serialize ⟨hb.parameters⟩)) :=
      h.send trivial
    exact Option.some.inj hs ▸ hanswer.emit (by simp)

/-- A chunk of the exchange keeps an endpoint in it; an INIT makes it meet the peer. -/
theorem onChunk (h : Exchanging own peer met metPeer s) {chunk : Chunk}
    (hc : Exchanged peer own metPeer met chunk) (hlen : chunk.serialize.length ≤ maxChunkSize)
    {now : ℤ} {header : Header} {s' : Association}
    (hs : s.onChunk now header chunk.sized = some s') :
    Exchanging own peer (met || decide (chunk.type = .init)) metPeer s' := by
  have hpayload : chunk.payload.length ≤ maxChunkSize := by
    have := chunk.length_serialize
    omega
  have htype : chunk.sized.type = chunk.type := rfl
  unfold Exchanged at hc
  rw [Association.onChunk, htype] at hs
  cases ht : chunk.type <;> simp only [ht] at hc hs ⊢
  case init =>
    have hinit := h.onInit
      ((congrArg _ hc).trans (InitChunk.deserialize_serialize (hc ▸ hpayload))) hs
    simpa using hinit
  case initAck =>
    obtain ⟨rfl, hpeer⟩ := hc
    have hack := h.onInitAck
      ((congrArg _ hpeer).trans (InitChunk.deserialize_serialize (hpeer ▸ hpayload))) hs
    simpa using hack
  case cookieEcho => simpa using h.onCookieEcho hs
  case cookieAck =>
    obtain rfl := Option.some.inj hs
    have hconn : Exchanging own peer met metPeer (s.onCookieAck now) :=
      (h.setState now .connected).emit (by simp)
    simpa using hconn
  case heartbeat => simpa using h.onHeartbeat hs
  case operationalError =>
    obtain rfl := Option.some.inj hs
    have hclosed : Exchanging own peer met metPeer (s.onOperationalError now) :=
      ((h.closeStreams true).setState now .closed).emit (by simp)
    simpa using hclosed

/-- `connect` and the timer send at most an INIT or a HEARTBEAT. -/
theorem act (h : Exchanging own peer met metPeer s) {a : Act} {side : Side}
    (ha : (Move.act side a).Exchanges) {s' : Association} (hs : s.act a = some s') :
    Exchanging own peer met metPeer s' ∧ (s'.state = .connected → s.state = .connected) := by
  have hinit : Exchanged own peer met metPeer
      { type := .init, flags := flagsNone, payload := s.initChunk.serialize } :=
    congrArg InitChunk.serialize h.initChunk
  cases a with
  | connect now remotePort =>
    obtain rfl := Option.some.inj hs
    simp only [Association.connect]
    split_ifs
    · exact ⟨h, id⟩
    · exact ⟨h, id⟩
    · have hclear : Exchanging own peer met metPeer
          (Association.setStreams ∅ { s with remotePort }) :=
        ⟨h.tag, h.tsn, h.cookie, rfl, h.remote, h.packets⟩
      have hsend := hclear.send hinit
      rw [Association.send] at hsend
      dsimp only
      exact ⟨hsend.setState now .connecting, by simp⟩
  | stateTimer now =>
    obtain rfl := Option.some.inj hs
    simp only [Association.onStateTimer]
    split_ifs with _ _ _ hconnected
    · exact ⟨h, id⟩
    · obtain ⟨es, hes, -⟩ :=
        Association.send_spec .init flagsNone s.initChunk.serialize s
      exact ⟨h.send hinit, by simp [hes]⟩
    · exact ⟨h, id⟩
    · exact ⟨(h.setState now .connected).send trivial, fun _ => hconnected⟩
    · exact ⟨h, id⟩
  | _ => exact ha.elim

end Exchanging

/-! ### The network -/

/-- Both sides are in the exchange that began at `start`. -/
def Net.Exchanging (start : Net) (w : Net × (Side → Bool)) : Prop :=
  ∀ side, Sctp.Exchanging (start side) (start side.peer) (w.2 side) (w.2 side.peer) (w.1 side)

/-- A connected side has met its peer, or the peer has zeros to tell. -/
def Net.Known (start : Net) (w : Net × (Side → Bool)) : Prop :=
  ∀ side, (w.1 side).state = .connected →
    w.2 side ∨ (start side.peer).localTag = 0 ∧ (start side.peer).localTsn = 0

variable {start : Net} {w w' : Net × (Side → Bool)}

/-- A side that has met its peer, or has nothing but zeros to learn, agrees with it. -/
theorem Net.agree_iff (h : Net.Exchanging start w) : start.Agree w.1 ↔ start.Known w := by
  apply forall_congr'
  intro side
  have hpeer := (h side.peer).tag
  have hremote := (h side).remote
  rw [hpeer]
  cases hmet : w.2 side with
  | true =>
    rw [hmet] at hremote
    obtain ⟨htag, htsn⟩ := Prod.mk.inj hremote
    simp [htag, htsn]
  | false =>
    rw [hmet] at hremote
    obtain ⟨htag, htsn⟩ := Prod.mk.inj hremote
    simp [htag, htsn, eq_comm]

/-- A packet of the exchange arrives. -/
theorem connInput_exchanging (h : Net.Exchanging start w) {side : Side} {i : ℕ}
    {data : List UInt8} (hdata : w.1.arriving side i = some data) {now : ℤ} {s' : Association}
    (hs : (w.1 side).connInput now data = some s') :
    Sctp.Exchanging (start side) (start side.peer)
        (w.2 side || w.1.brings .init side (.deliver side now i)) (w.2 side.peer) s' ∧
      (s'.state = .connected → (w.1 side).state = .connected ∨ w.2 side ∨
        w.1.brings .cookieAck side (.deliver side now i)) ∧
      (w.1.brings .cookieAck side (.deliver side now i) → s'.state = .connected) := by
  have hmem : .sendData data ∈ (w.1 side.peer).events :=
    Association.mem_flight.mp (List.mem_of_getElem? hdata)
  obtain ⟨chunk, hc, hsaid⟩ := (h side.peer).packets data hmem
  rw [Side.peer_peer] at hc
  have harrives : w.1.arrives side i = carried data := by rw [Net.arrives, hdata]; rfl
  simp only [Net.brings, harrives, true_and]
  rcases connInput_says hc.named hsaid with ⟨hnone, hsame⟩ | ⟨hlen, hcarried, header, hchunk⟩
  · -- the packet is not read
    rw [hsame] at hs
    obtain rfl := Option.some.inj hs
    rw [hnone]
    simpa using ⟨h side, fun hconn => Or.inl hconn⟩
  · have htype : chunk.sized.type = chunk.type := rfl
    rw [hchunk] at hs
    rw [hcarried]
    simp only [Option.map_some, Option.some.injEq, htype, decide_eq_true_eq]
    refine ⟨(h side).onChunk hc hlen hs, ?_, ?_⟩
    · intro hconn
      by_cases hconnecting : (w.1 side).Connecting chunk.sized
      · rcases hconnecting with hack | ⟨hecho, -⟩
        · exact .inr (.inr hack)
        · unfold Exchanged at hc
          rw [htype] at hecho
          simp only [hecho] at hc
          exact .inr (.inl hc.1)
      · rcases (Association.calm_onChunk hconnecting hs).state with hstate | hstate
        · exact .inl (hstate ▸ hconn)
        · rw [hstate] at hconn
          cases hconn
    · intro hack
      exact (Association.onChunk_of_connecting (.inl (htype.trans hack)) hs).2

/-- A move of the exchange keeps both sides in it. -/
theorem step_exchanging (h : Net.Exchanging start w) {m : Move} (hm : m.Exchanges)
    {os : List Empty} (hs : noted Net.step Net.meet w m = some (w', os)) :
    Net.Exchanging start w' ∧
      ∀ side, ((w'.1 side).state = .connected →
          (w.1 side).state = .connected ∨ w.2 side ∨ w.1.brings .cookieAck side m) ∧
        (w.1.brings .cookieAck side m → (w'.1 side).state = .connected) := by
  obtain ⟨hstep, hmet⟩ := noted_eq_some.mp hs
  obtain ⟨net', met'⟩ := w'
  dsimp only at hmet hstep ⊢
  subst hmet
  -- the other side only learns that its peer may have met it
  have hother {side : Side} {s' : Association} {met : Side → Bool}
      (hmono : ∀ x, w.2 x → met x) (hpeer : met side.peer = w.2 side.peer)
      (hself : Sctp.Exchanging (start side) (start side.peer) (met side) (w.2 side.peer) s') :
      Net.Exchanging start (w.1.set side s', met) := by
    intro x
    by_cases hx : x = side
    · subst hx
      dsimp only
      rw [Net.set_self, hpeer]
      exact hself
    · obtain rfl := Side.eq_peer_of_ne hx
      dsimp only
      rw [Net.set_peer, hpeer, Side.peer_peer]
      have hx := h side.peer
      rw [Side.peer_peer] at hx
      exact hx.mono (hmono side)
  have hmono (x : Side) (hx : w.2 x) : Net.meet w.1 m w.2 x := by simp [Net.meet, hx]
  cases m with
  | deliver side now i =>
    have hbrings (type : ChunkType) :
        w.1.brings type side.peer (.deliver side now i) = false := by
      simp [Net.brings, side.peer_ne.symm]
    have hpeer : Net.meet w.1 (.deliver side now i) w.2 side.peer = w.2 side.peer := by
      simp [Net.meet, hbrings]
    rw [Net.step] at hstep
    cases hdata : w.1.arriving side i with
    | none =>
      rw [hdata] at hstep
      obtain ⟨rfl, -⟩ := Prod.mk.inj (Option.some.inj hstep)
      have hnone (type : ChunkType) (x : Side) :
          w.1.brings type x (.deliver side now i) = false := by
        simp [Net.brings, Net.arrives, hdata]
      have hsame : Net.meet w.1 (.deliver side now i) w.2 = w.2 := by
        funext x
        simp [Net.meet, hnone]
      rw [hsame]
      exact ⟨h, fun x => ⟨.inl, fun hx => by simp [hnone] at hx⟩⟩
    | some data =>
      rw [hdata] at hstep
      obtain ⟨s', hs', heq⟩ := Option.map_eq_some_iff.mp hstep
      obtain ⟨rfl, -⟩ := Prod.mk.inj heq
      obtain ⟨hself, hconn, hack⟩ := connInput_exchanging h hdata hs'
      refine ⟨hother hmono hpeer hself, fun x => ?_⟩
      by_cases hx : x = side
      · subst hx
        rw [Net.set_self]
        exact ⟨hconn, hack⟩
      · obtain rfl := Side.eq_peer_of_ne hx
        rw [Net.set_peer, hbrings]
        exact ⟨.inl, by simp⟩
  | act side a =>
    have hpeer : Net.meet w.1 (.act side a) w.2 = w.2 := by
      funext x
      simp [Net.meet, Net.brings]
    rw [Net.step] at hstep
    obtain ⟨s', hs', heq⟩ := Option.map_eq_some_iff.mp hstep
    obtain ⟨rfl, -⟩ := Prod.mk.inj heq
    obtain ⟨hself, hconn⟩ := (h side).act hm hs'
    rw [hpeer]
    refine ⟨hother (fun _ => id) rfl hself, fun x => ⟨fun hx => .inl ?_, by simp [Net.brings]⟩⟩
    by_cases hxs : x = side
    · subst hxs
      rw [Net.set_self] at hx
      exact hconn hx
    · rwa [Net.set_of_ne _ _ hxs] at hx

theorem Net.Opened.exchanging {start : Net} (h : start.Opened) :
    Net.Exchanging start (start, fun _ => false) := by
  intro side
  obtain ⟨sid, localPort, uuid, tag, tsn, hnet⟩ := h side
  refine ⟨rfl, rfl, rfl, ?_, ?_, ?_⟩ <;> dsimp only <;> rw [hnet]
  · rfl
  · rfl
  · exact fun _ hdata => absurd hdata List.not_mem_nil

theorem Net.Opened.known {start : Net} (h : start.Opened) :
    start.Known (start, fun _ => false) := by
  intro side hside
  obtain ⟨sid, localPort, uuid, tag, tsn, hnet⟩ := h side
  dsimp only at hside
  rw [hnet] at hside
  cases hside

/-- A COOKIE_ACK is always handled. -/
theorem cookieAck_handled (h : Net.Exchanging start w) {side : Side} {m : Move}
    (hm : w.1.brings .cookieAck side m) :
    ∃ w', noted Net.step Net.meet w m = some (w', []) ∧ w'.2 side = w.2 side := by
  cases m with
  | act side' a => cases hm
  | deliver side' now i =>
    simp only [Net.brings, decide_eq_true_eq] at hm
    obtain ⟨rfl, hm⟩ := hm
    obtain ⟨chunk', hchunk', htype⟩ := Option.map_eq_some_iff.mp hm
    obtain ⟨data, hdata, hcarried⟩ := Option.bind_eq_some_iff.mp hchunk'
    obtain ⟨chunk, hc, hsaid⟩ := (h side'.peer).packets data
      (Association.mem_flight.mp (List.mem_of_getElem? hdata))
    rcases connInput_says hc.named hsaid with ⟨hnone, -⟩ | ⟨-, hsized, header, hchunk⟩
    · rw [hcarried] at hnone
      cases hnone
    · obtain rfl := Option.some.inj (hcarried.symm.trans hsized)
      have hinput : (w.1 side').connInput now data = some ((w.1 side').onCookieAck now) := by
        rw [hchunk, Association.onChunk, htype]
      refine ⟨(w.1.set side' ((w.1 side').onCookieAck now),
        Net.meet w.1 (.deliver side' now i) w.2), ?_, ?_⟩
      · rw [noted, Net.step, hdata]
        simp only [hinput]
        rfl
      · simp [Net.meet, Net.brings, hm]

/-- In a run of the exchange every connected side agrees with its peer, in every state
reached, exactly if each COOKIE_ACK comes to a side that has had an INIT. -/
theorem agreement_iff {start : Net} (hstart : start.Opened) {ms : List Move}
    (hms : ∀ m ∈ ms, m.Exchanges) :
    (∀ before, before <+: ms → ∀ net os, run Net.step start before = some (net, os) →
        start.Agree net) ↔
      RunOk (noted Net.step Net.meet) start.Informed (start, fun _ => false) ms := by
  constructor
  · intro h
    refine RunOk.of_good (Net.Exchanging start) (fun w => start.Agree w.1) ?_
      (fun _ _ _ _ hm hi _ hs => (step_exchanging hi hm hs).1) hms hstart.exchanging
      fun before hbefore w os hr => h before hbefore w.1 os (run_of_noted hr)
    intro w m hm hi hgood side hack
    obtain ⟨w', hs, hmet⟩ := cookieAck_handled hi hack
    obtain ⟨hi', hmoves⟩ := step_exchanging hi hm hs
    have hknown := (Net.agree_iff hi').mp (hgood w' [] hs) side ((hmoves side).2 hack)
    rwa [hmet] at hknown
  · rintro h before ⟨after, rfl⟩ net os hr
    obtain ⟨met, hnoted⟩ : ∃ met, run (noted Net.step Net.meet) (start, fun _ => false) before =
        some ((net, met), os) := run_noted _ hr
    have hbefore : ∀ m ∈ before, m.Exchanges := fun m hm => hms m (List.mem_append_left after hm)
    have hinv : Net.Exchanging start (net, met) ∧ start.Known (net, met) := by
      refine (h.append_left.restrict hbefore).invariant
        (fun w _ => Net.Exchanging start w ∧ start.Known w) ?_ []
        ⟨hstart.exchanging, hstart.known⟩ hnoted
      rintro w out m w' o ⟨hi, hknown⟩ ⟨hm, hinformed⟩ hs
      obtain ⟨hi', hmoves⟩ := step_exchanging hi hm hs
      refine ⟨hi', fun side hconn => ?_⟩
      have hmono (hmet : w.2 side) : w'.2 side := by
        rw [(noted_eq_some.mp hs).2, Net.meet, hmet]
        rfl
      rcases (hmoves side).1 hconn with hbefore | hmet | hack
      · exact (hknown side hbefore).imp_left hmono
      · exact .inl (hmono hmet)
      · exact (hinformed side hack).imp_left hmono
    exact (Net.agree_iff hinv.1).mpr hinv.2

/-- Both sides call `connect`, and each hears the INIT of the other first. -/
private def crossing : List Move :=
  [.act .client (.connect 0 5000), .act .server (.connect 0 5000), .deliver .server 0 0,
    .deliver .client 0 0, .deliver .client 0 1, .deliver .server 0 2, .deliver .client 0 2]

theorem agreement_crossing :
    (run Net.step pair crossing).map (fun r => ((r.1 .client).state, (r.1 .server).state)) =
        some (.connected, .connected) ∧
      ∀ before, before <+: crossing → ∀ net os, run Net.step pair before = some (net, os) →
        pair.Agree net :=
  ⟨by decide +kernel, (agreement_iff pair_opened (by decide)).mpr (by decide +kernel)⟩

/-- After an ordinary handshake the endpoint that called `connect` is connected, and its
remote tag is zero. -/
theorem initiator_does_not_agree :
    ¬ ∀ start : Net, start.Opened → ∀ ms : List Move, (∀ m ∈ ms, m.Exchanges) →
      ∀ net os, run Net.step start ms = some (net, os) → start.Agree net := by
  intro h
  have hfinal : (run Net.step pair handshake).map (fun r =>
      ((r.1 .client).state, (r.1 .client).remoteTag, (r.1 .server).localTag)) =
        some (.connected, 0, 8) := by decide +kernel
  obtain ⟨⟨net, os⟩, hrun, heq⟩ := Option.map_eq_some_iff.mp hfinal
  obtain ⟨hstate, htags⟩ := Prod.mk.inj heq
  obtain ⟨hremote, hlocal⟩ := Prod.mk.inj htags
  have hagree := (h pair pair_opened handshake (by decide) net os hrun .client hstate).1
  rw [hremote] at hagree
  exact absurd (hagree.trans hlocal) (by decide)

end CxxDeps.Sctp
