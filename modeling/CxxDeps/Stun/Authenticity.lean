import CxxDeps.Library.Run
import CxxDeps.Stun.Transport

/-! Who may move the remote endpoints of the media streams and the role of ICE.
`handle_stun_message` reports the endpoint of every binding request and response to the
session (rtp_session.cpp, media_stream.cpp) and never compares the message integrity, so
a message changes whatever the priorities and the tie-breakers leave open. -/

namespace CxxDeps.Stun

open Library

/-- `candidate::make_priority`. -/
def makePriority (type local' component : UInt32) : UInt32 :=
  ((1 : UInt32) <<< 24) * type + ((1 : UInt32) <<< 8) * local' + (256 - component)

def candidateTypeHost : UInt32 := 126

/-- The priority of an endpoint that a message came from. -/
def hostPriority (component : UInt32) : ℤ :=
  (makePriority candidateTypeHost 0xFFFF component).toNat

/-- The endpoints of a `media_stream`; a priority below zero stands for none. -/
structure MediaStream where
  localRtpPort : UInt16
  localRtcpPort : UInt16
  isRtcpMux : Bool
  remoteRtpEndpoint : Endpoint
  remoteRtpEndpointPriority : ℤ := -1
  remoteRtcpEndpoint : Endpoint
  remoteRtcpEndpointPriority : ℤ := -1
  deriving DecidableEq, Repr

namespace MediaStream

def setRemoteRtpEndpoint (m : MediaStream) (endpoint : Endpoint) (priority : ℤ) : MediaStream :=
  if priority ≤ m.remoteRtpEndpointPriority then m
  else { m with remoteRtpEndpointPriority := priority, remoteRtpEndpoint := endpoint }

def setRemoteRtcpEndpoint (m : MediaStream) (endpoint : Endpoint) (priority : ℤ) : MediaStream :=
  if priority ≤ m.remoteRtcpEndpointPriority then m
  else { m with remoteRtcpEndpointPriority := priority, remoteRtcpEndpoint := endpoint }

def receiveStunCompleted (m : MediaStream) (endpoint : Endpoint) : MediaStream :=
  let m := m.setRemoteRtpEndpoint endpoint (hostPriority 1)
  if m.isRtcpMux then m.setRemoteRtcpEndpoint endpoint (hostPriority 2) else m

/-- `remote_rtp_endpoint` and `remote_rtcp_endpoint`. -/
def remote (m : MediaStream) : Option Endpoint × Option Endpoint :=
  (if m.remoteRtpEndpointPriority < 0 then none else some m.remoteRtpEndpoint,
    if m.remoteRtcpEndpointPriority < 0 then none else some m.remoteRtcpEndpoint)

/-- An endpoint of the stream has a lower priority than one that a message comes from,
and is not that one already. -/
def Open (m : MediaStream) (endpoint : Endpoint) : Prop :=
  m.remoteRtpEndpointPriority < hostPriority 1 ∧ m.remote.1 ≠ some endpoint ∨
    m.isRtcpMux = true ∧ m.remoteRtcpEndpointPriority < hostPriority 2 ∧
      m.remote.2 ≠ some endpoint

end MediaStream

/-- A transport of the session and the session's streams. -/
structure Session where
  transport : Transport
  streams : List MediaStream
  deriving DecidableEq, Repr

/-- A datagram that is taken for STUN arrives, or anything else happens. -/
inductive Event
  | stun (buffer : List UInt8) (endpoint : Endpoint)
  | other (s : Session)

namespace Session

/-- The stream sends or receives at the port of the transport. -/
def Uses (s : Session) (m : MediaStream) : Prop :=
  m.localRtpPort = s.transport.localPort ∨ m.localRtcpPort = s.transport.localPort

instance (s : Session) (m : MediaStream) : Decidable (s.Uses m) :=
  inferInstanceAs (Decidable (_ ∨ _))

def handleStunCompleted (s : Session) (endpoint : Endpoint) : Session :=
  { s with streams := s.streams.map fun m =>
      if s.Uses m then m.receiveStunCompleted endpoint else m }

/-- The calls of the transport that concern the streams. -/
def handleOutput (s : Session) : Output → Session
  | .onStunCompleted endpoint => s.handleStunCompleted endpoint
  | .send _ _ => s
  | .sendDtlsRequest _ => s

def handleStunMessage (H : Hash) (s : Session) (buffer : List UInt8) (endpoint : Endpoint) :
    Session :=
  let (tp, outputs) := s.transport.handleStunMessage H buffer endpoint
  { outputs.foldl handleOutput s with transport := tp }

def step (H : Hash) (s : Session) : Event → Option (Session × List Empty)
  | .stun buffer endpoint => some (s.handleStunMessage H buffer endpoint, [])
  | .other s' => some (s', [])

/-- A remote endpoint of a stream or the role of ICE differs. -/
def Altered (s s' : Session) : Prop :=
  s'.streams.map MediaStream.remote ≠ s.streams.map MediaStream.remote ∨
    s'.transport.iceRole ≠ s.transport.iceRole

/-- The message integrity is that of the password: the local one for a request, the
remote one for a response. -/
def Authentic (H : Hash) (s : Session) (msg : Message) : Prop :=
  ∃ code rest, msg.calculateMessageIntegrity H
      (if msg.type = Message.bindingRequest then s.transport.icePwdLocal
        else s.transport.icePwdRemote) = some (code, rest) ∧
    msg.getAttribute Attribute.messageIntegrity = code.toList

/-- The message is a binding request or response. -/
def Binding (msg : Message) : Prop :=
  msg.type = Message.bindingRequest ∨ msg.type = Message.bindingResponse

/-- What a binding request or response changes is done by the holder of the password. -/
def Protected (H : Hash) (s : Session) : Event → Prop
  | .stun buffer endpoint => ∀ msg fp, Message.deserialize H buffer = some (msg, fp) →
      Binding msg → s.Altered (s.handleStunMessage H buffer endpoint) → s.Authentic H msg
  | .other _ => True

/-- A stream of the port is open to the endpoint, or the request wins the role. -/
def Exposed (s : Session) (msg : Message) (endpoint : Endpoint) : Prop :=
  (∃ m ∈ s.streams, s.Uses m ∧ m.Open endpoint) ∨ s.transport.Yields msg

/-- A binding request or response to which the session is exposed carries the message
integrity. -/
def Guarded (H : Hash) (s : Session) : Event → Prop
  | .stun buffer endpoint => ∀ msg fp, Message.deserialize H buffer = some (msg, fp) →
      Binding msg → s.Exposed msg endpoint → s.Authentic H msg
  | .other _ => True

end Session

/-! ### What a binding message changes -/

theorem hostPriority_nonneg (component : UInt32) : 0 ≤ hostPriority component :=
  Int.natCast_nonneg _

namespace MediaStream

theorem receiveStunCompleted_remote (m : MediaStream) (endpoint : Endpoint) :
    (m.receiveStunCompleted endpoint).remote =
      (if m.remoteRtpEndpointPriority < hostPriority 1 then some endpoint else m.remote.1,
        if m.isRtcpMux = true ∧ m.remoteRtcpEndpointPriority < hostPriority 2 then some endpoint
          else m.remote.2) := by
  have h1 := hostPriority_nonneg 1
  have h2 := hostPriority_nonneg 2
  simp only [receiveStunCompleted, setRemoteRtpEndpoint, setRemoteRtcpEndpoint, remote]
  grind

/-- The endpoints change exactly if one is open. -/
theorem receiveStunCompleted_remote_ne_iff (m : MediaStream) (endpoint : Endpoint) :
    (m.receiveStunCompleted endpoint).remote ≠ m.remote ↔ m.Open endpoint := by
  rw [receiveStunCompleted_remote, Open]
  grind

end MediaStream

namespace Transport

/-- Only a controlling side yields. -/
theorem Yields.controlling {tp : Transport} {msg : Message} (h : tp.Yields msg) :
    tp.iceRole = .controlling := by
  obtain ⟨-, v, hv, -⟩ := h
  by_contra hrole
  simp [conflict, hrole] at hv

theorem iceRole_ne_iff {H : Hash} (tp : Transport) {buffer : List UInt8} {msg : Message}
    {fp : UInt32} (endpoint : Endpoint)
    (hread : Message.deserialize H buffer = some (msg, fp)) :
    (tp.handleStunMessage H buffer endpoint).1.iceRole ≠ tp.iceRole ↔ tp.Yields msg := by
  obtain ⟨hyields, hno⟩ := tp.handleStunMessage_iceRole endpoint hread
  by_cases hy : tp.Yields msg
  · rw [hyields hy, hy.controlling]
    simp [hy]
  · rw [hno hy]
    simp [hy]

/-- What is sent in reply does not reach the streams. -/
theorem foldl_judge (H : Hash) (tp : Transport) (msg : Message) (endpoint : Endpoint)
    (s : Session) : (tp.judge H msg endpoint).2.foldl Session.handleOutput s = s := by
  unfold judge
  split
  · split_ifs <;> rfl
  · rfl

end Transport

namespace Session

/-- Every binding request and response reports its endpoint. -/
theorem handleStunMessage_eq {H : Hash} {s : Session} {buffer : List UInt8} {msg : Message}
    {fp : UInt32} (endpoint : Endpoint)
    (hread : Message.deserialize H buffer = some (msg, fp)) (hbinding : Binding msg) :
    s.handleStunMessage H buffer endpoint =
      { s.handleStunCompleted endpoint with
        transport := (s.transport.handleStunMessage H buffer endpoint).1 } := by
  rcases hbinding with htype | htype
  · have hhandle : s.transport.handleStunMessage H buffer endpoint =
        s.transport.handleRequest H msg endpoint := by
      simp only [Transport.handleStunMessage, hread, if_pos htype]
    simp only [handleStunMessage, hhandle, Transport.handleRequest, List.foldl_cons,
      Transport.foldl_judge]
    rfl
  · have hne : ¬msg.type = Message.bindingRequest := by
      rw [htype]
      decide
    have hhandle : s.transport.handleStunMessage H buffer endpoint =
        (s.transport, s.transport.handleStunCompleted endpoint) := by
      simp only [Transport.handleStunMessage, hread, if_neg hne, if_pos htype]
    simp only [handleStunMessage, hhandle, Transport.handleStunCompleted]
    split_ifs <;> rfl

/-- A binding request or response changes something exactly if the session is exposed
to it. -/
theorem altered_iff {H : Hash} {s : Session} {buffer : List UInt8} {msg : Message}
    {fp : UInt32} (endpoint : Endpoint)
    (hread : Message.deserialize H buffer = some (msg, fp)) (hbinding : Binding msg) :
    s.Altered (s.handleStunMessage H buffer endpoint) ↔ s.Exposed msg endpoint := by
  have hstreams : (s.handleStunCompleted endpoint).streams.map MediaStream.remote ≠
      s.streams.map MediaStream.remote ↔ ∃ m ∈ s.streams, s.Uses m ∧ m.Open endpoint := by
    simp only [handleStunCompleted, List.map_map, ne_eq, List.map_inj_left, not_forall,
      Function.comp_apply, exists_prop]
    apply exists_congr
    intro m
    rw [← m.receiveStunCompleted_remote_ne_iff endpoint]
    by_cases huses : s.Uses m <;> simp [huses]
  rw [handleStunMessage_eq endpoint hread hbinding, Altered, Exposed, hstreams,
    s.transport.iceRole_ne_iff endpoint hread]

theorem protected_iff (H : Hash) (s : Session) (e : Event) :
    s.Protected H e ↔ s.Guarded H e := by
  cases e with
  | other s' => exact Iff.rfl
  | stun buffer endpoint =>
    simp only [Protected, Guarded]
    constructor
    · intro h msg fp hread hbinding hexposed
      exact h msg fp hread hbinding ((altered_iff endpoint hread hbinding).mpr hexposed)
    · intro h msg fp hread hbinding haltered
      exact h msg fp hread hbinding ((altered_iff endpoint hread hbinding).mp haltered)

end Session

/-- In a run, whatever else happens between the messages, the endpoints and the role
change only by the holder of the password exactly if every binding request and response
to which the session is exposed carries the message integrity. -/
theorem stun_authentic_iff (H : Hash) (s : Session) (events : List Event) :
    RunOk (Session.step H) (Session.Protected H) s events ↔
      RunOk (Session.step H) (Session.Guarded H) s events :=
  ⟨RunOk.mono fun s e => (s.protected_iff H e).mp, RunOk.mono fun s e => (s.protected_iff H e).mpr⟩

private def media : Endpoint := ⟨.v4 #v[10, 0, 0, 1], 4000⟩

private def stranger : Endpoint := ⟨.v4 #v[10, 6, 6, 6], 6666⟩

/-- A session whose stream has its endpoint from the SDP. -/
private def calling : Session :=
  ⟨{ localPort := 5000, iceUfragRemote := [0x61], icePwdRemote := [0x62],
     iceUfragLocal := [0x63], icePwdLocal := [0x64], tieBreaker := 7 },
    [⟨5000, 5000, true, media, 0, media, 0⟩]⟩

/-- A binding response without attributes. -/
private def bareResponse : List UInt8 :=
  [1, 1, 0, 0, 0x21, 0x12, 0xA4, 0x42, 0, 0, 0, 0, 0, 0, 0, 0, 0, 0, 0, 0]

/-- Twenty bytes from anywhere redirect the media. -/
theorem response_redirects_media :
    let H : Hash := ⟨fun _ _ => Vector.replicate 20 0, fun _ => 0⟩
    calling.streams.map MediaStream.remote = [(some media, some media)] ∧
      (calling.handleStunMessage H bareResponse stranger).streams.map MediaStream.remote =
        [(some stranger, some stranger)] ∧
      ¬RunOk (Session.step H) (Session.Protected H) calling [.stun bareResponse stranger] := by
  intro H
  have hbefore : calling.streams.map MediaStream.remote = [(some media, some media)] := by decide
  have hafter : (calling.handleStunMessage H bareResponse stranger).streams.map
      MediaStream.remote = [(some stranger, some stranger)] := by decide
  refine ⟨hbefore, hafter, fun h => ?_⟩
  have haltered : calling.Altered (calling.handleStunMessage H bareResponse stranger) := by
    rw [Session.Altered, hbefore, hafter]
    exact .inl (by decide)
  obtain ⟨code, rest, hcode, -⟩ := h.1 _ _ rfl (.inr rfl) haltered
  cases hcode

end CxxDeps.Stun
