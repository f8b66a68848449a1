import CxxDeps.Session.Endpoints
import CxxDeps.Stun.Authenticity

/-! From a transport to a receiver (rtpx/rtp_session.cpp, rtpx/media_stream.cpp). A stream is
found by the two SSRCs that it keeps and never by a payload type: a stream for which none was
signalled keeps 0, and the lines that would learn an SSRC are not reached with another. -/

namespace CxxDeps.Session

open Sys Sdp Library
open Stun (Address Endpoint hostPriority)

/-- `receiver`; a retransmission goes on to the receiver of another payload type. -/
structure Receiver where
  ssrc : UInt32
  format : Format
  apt : Option UInt8

/-- A stream with its receivers, and the section it was last negotiated with. -/
structure Stream where
  ms : MediaStream
  remote : Option Media := none
  receivers : Std.ExtTreeMap UInt8 Receiver compare := ∅
  useRtpEndpoint : Bool := false
  endpoints : Endpoints := {}

/-- A packet that comes to the transport of a port. -/
structure Arrival where
  port : UInt16
  endpoint : Endpoint
  pt : UInt8
  ssrc : UInt32

/-- `set_remote_rtp_endpoint`. -/
def Endpoints.setRemoteRtpEndpoint (e : Endpoints) (endpoint : Endpoint) (priority : ℤ) :
    Endpoints :=
  if priority ≤ e.rtpPriority then e else { e with rtpPriority := priority, rtp := endpoint }

/-- The codecs for which `create_receiver` has a receiver of their own. -/
def hasReceiver : CodecType → Bool
  | .h264 | .h265 | .vp8 | .ps | .mpeg4Generic | .mp4aLatm | .opus | .pcma | .pcmu | .g722 => true
  | _ => false

namespace Stream

variable (st : Stream)

/-- `set_remote_sdp`; a negotiation starts without receivers. -/
def setRemoteSdp (fromString : Text → Option Address) (type : SdpType) (sdp : Media) :
    Option Stream :=
  (setRemoteSection fromString type (st.ms, st.endpoints) sdp).map fun r => { st with
    ms := r.1
    endpoints := r.2
    remote := some sdp
    receivers := if type = .answer then ∅ else st.receivers }

/-- A receiver for retransmissions needs the one that it hands them to. -/
def canCreate (fmt : Format) : Bool :=
  (match fmt.link with
    | some apt => st.receivers.contains apt
    | none => hasReceiver fmt.codec) && !st.receivers.contains fmt.pt

/-- `create_receiver`. -/
def createReceiver (fmt : Format) : Option (Stream × Receiver) :=
  if st.canCreate fmt then
    let ssrc := if fmt.codec = .rtx then st.ms.remoteRtxSsrc else st.ms.remoteRtpSsrc
    let receiver : Receiver := ⟨ssrc, fmt, fmt.link⟩
    some ({ st with receivers := st.receivers.insert fmt.pt receiver }, receiver)
  else none

/-- `get_receiver`. -/
def getReceiver (pt : UInt8) : Option (Stream × Receiver) :=
  match st.receivers[pt]? with
  | some receiver => some (st, receiver)
  | none => st.ms.remoteFormats[pt]?.bind st.createReceiver

/-- `receiver::insert_packet` takes over the SSRC; what it does to the buffer is left out. -/
def insertPacket (receiver : Receiver) (p : Arrival) : Stream :=
  if receiver.format.codec = .rtx then st
  else { st with
    receivers := st.receivers.insert receiver.format.pt { receiver with ssrc := p.ssrc } }

/-- What `receive_rtp_packet` learns from a packet. -/
def learn (p : Arrival) : Stream :=
  let st := if st.useRtpEndpoint then { st with
      endpoints := st.endpoints.setRemoteRtpEndpoint p.endpoint (hostPriority 1)
      useRtpEndpoint := false }
    else st
  if st.ms.remoteRtpSsrc = 0 then { st with ms := { st.ms with remoteRtpSsrc := p.ssrc } } else st

/-- `receive_rtp_packet`, with the payload type of the receiver that the packet goes to. -/
def receiveRtpPacket (p : Arrival) : Stream × Option UInt8 :=
  match st.getReceiver p.pt with
  | none => (st, none)
  | some (st, receiver) =>
    let st := if receiver.format.codec = .rtx then st else st.learn p
    (st.insertPacket receiver p, some receiver.format.pt)

/-- One of the SSRCs is this one. -/
def Keeps (ssrc : UInt32) : Prop := st.ms.remoteRtpSsrc = ssrc ∨ st.ms.remoteRtxSsrc = ssrc

instance (ssrc : UInt32) : Decidable (st.Keeps ssrc) := inferInstanceAs (Decidable (_ ∨ _))

end Stream

/-- `get_media_stream_by_remote_ssrc`, with the stream's place in the session. -/
def getMediaStreamByRemoteSsrc (s : List Stream) (ssrc : UInt32) : Option ℕ :=
  s.findIdx? fun st => st.Keeps ssrc

/-- `handle_rtp_packet`: the stream that a packet reaches and the receiver it goes to there. -/
def handleRtpPacket (s : List Stream) (p : Arrival) : List Stream × Option (ℕ × Option UInt8) :=
  match getMediaStreamByRemoteSsrc s p.ssrc with
  | none => (s, none)
  | some i =>
    match s[i]? with
    | none => (s, none)
    | some st =>
      let (st, receiver) := st.receiveRtpPacket p
      (s.set i st, some (i, receiver))

/-- What can happen to a session. -/
inductive SessionEvent
  | addStream (ms : MediaStream)
  | removeStream (i : ℕ)
  | setRemoteSdp (i : ℕ) (type : SdpType) (sdp : Media)
  | rtpPacket (p : Arrival)

/-- One event; a packet is shown with the streams that it came to and what became of it. -/
def sessionStep (fromString : Text → Option Address) (s : List Stream) :
    SessionEvent → Option (List Stream × List (List Stream × Arrival × Option (ℕ × Option UInt8)))
  | .addStream ms => some (s ++ [{ ms }], [])
  | .removeStream i => some (s.eraseIdx i, [])
  | .setRemoteSdp i type sdp =>
    (s[i]?.bind fun st => st.setRemoteSdp fromString type sdp).map fun st => (s.set i st, [])
  | .rtpPacket p => some ((handleRtpPacket s p).1, [(s, p, (handleRtpPacket s p).2)])

/-! ### Where a packet belongs -/

/-- The payload type was negotiated for the stream, and the packet came to its transport. -/
def Stream.Expects (st : Stream) (p : Arrival) : Prop :=
  st.ms.rtpTransport = p.port ∧ p.pt ∈ st.ms.remoteFormats

/-- Of all streams only this one expects the packet. -/
def Alone (s : List Stream) (p : Arrival) (i : ℕ) : Prop :=
  ∀ (j : ℕ) (st : Stream), s[j]? = some st → (st.Expects p ↔ j = i)

/-- A packet goes to the receiver of the only stream that expects it when no SSRC was signalled
there, and to the stream that its SSRC was signalled by. -/
structure Demultiplexed (s : List Stream) (p : Arrival) (r : Option (ℕ × Option UInt8)) :
    Prop where
  unsignalled : ∀ (i : ℕ) (st : Stream) (m : Media), s[i]? = some st → st.remote = some m →
    m.ssrcs = [] → Alone s p i → ∃ pt, r = some (i, some pt)
  signalled : ∀ (i : ℕ) (st : Stream) (m : Media), s[i]? = some st → st.remote = some m →
    p.ssrc ∈ m.ssrcs.map Ssrc.ssrc → ∃ pt, r = some (i, pt)

/-- The stream keeps the SSRC, and none before it does. -/
def Leads (s : List Stream) (ssrc : UInt32) (i : ℕ) : Prop :=
  (∃ st, s[i]? = some st ∧ st.Keeps ssrc) ∧
    ∀ j < i, ∀ st, s[j]? = some st → ¬st.Keeps ssrc

/-- There is a receiver for the payload type, or one can be created for its format. -/
def Stream.Receives (st : Stream) (pt : UInt8) : Prop :=
  pt ∈ st.receivers ∨ ∃ fmt, st.ms.remoteFormats[pt]? = some fmt ∧ st.canCreate fmt = true

/-- The SSRC is kept where the packet belongs and by no stream before. -/
structure Led (s : List Stream) (p : Arrival) : Prop where
  unsignalled : ∀ (i : ℕ) (st : Stream) (m : Media), s[i]? = some st → st.remote = some m →
    m.ssrcs = [] → Alone s p i → Leads s p.ssrc i ∧ st.Receives p.pt
  signalled : ∀ (i : ℕ) (st : Stream) (m : Media), s[i]? = some st → st.remote = some m →
    p.ssrc ∈ m.ssrcs.map Ssrc.ssrc → Leads s p.ssrc i

/-! ### Endpoints that STUN moves -/

/-- The stream as a transport sees it that reports STUN messages. -/
def Stream.forStun (st : Stream) : Stun.MediaStream where
  localRtpPort := st.ms.rtpTransport
  localRtcpPort := st.ms.rtcpTransport
  isRtcpMux := st.ms.isRtcpMux
  remoteRtpEndpoint := st.endpoints.rtp
  remoteRtpEndpointPriority := st.endpoints.rtpPriority
  remoteRtcpEndpoint := st.endpoints.rtcp
  remoteRtcpEndpointPriority := st.endpoints.rtcpPriority

namespace Stream

variable (st : Stream) (endpoint : Endpoint)

theorem forStun_remote : st.forStun.remote =
    (st.endpoints.remoteRtpEndpoint, st.endpoints.remoteRtcpEndpoint) := rfl

theorem forStun_setRemoteRtpEndpoint (priority : ℤ) :
    ({ st with
      endpoints := st.endpoints.setRemoteRtpEndpoint endpoint priority } : Stream).forStun =
        st.forStun.setRemoteRtpEndpoint endpoint priority := by
  unfold Endpoints.setRemoteRtpEndpoint Stun.MediaStream.setRemoteRtpEndpoint
  by_cases h : priority ≤ st.endpoints.rtpPriority
  · rw [if_pos h]
    exact (if_pos h).symm
  · rw [if_neg h]
    exact (if_neg h).symm

/-- An endpoint of an SDP gives way to any other one that a STUN message comes from. -/
theorem open_of_setRemoteSdp {fromString : Text → Option Address} {type : SdpType} {sdp : Media}
    {st st' : Stream} (hc : sdp.candidates = [])
    (h : st.setRemoteSdp fromString type sdp = some st') {a : Address}
    (ha : fromString sdp.rtpAddress = some a) {endpoint : Endpoint}
    (hne : endpoint ≠ ⟨a, UInt16.ofInt sdp.rtpPort⟩) : st'.forStun.Open endpoint := by
  obtain ⟨r, hr, rfl⟩ := Option.map_eq_some_iff.mp h
  have hset := setRemote_rtp st.endpoints ha
  have hpriority := setRemote_rtpPriority st.endpoints ha
  rw [← setRemoteSection_endpoints hc hr] at hset hpriority
  refine .inl ⟨?_, ?_⟩
  · show r.2.rtpPriority < hostPriority 1
    rw [hpriority]
    decide
  · rw [forStun_remote, hset]
    exact fun heq => hne (Option.some.inj heq).symm

end Stream

/-! ### One packet -/

variable {s : List Stream} {p : Arrival}

theorem createReceiver_isSome (st : Stream) (fmt : Format) :
    (st.createReceiver fmt).isSome = st.canCreate fmt := by
  unfold Stream.createReceiver
  by_cases h : st.canCreate fmt = true
  · rw [if_pos h, h]
    rfl
  · rw [if_neg h, Bool.eq_false_iff.mpr h]
    rfl

theorem getReceiver_isSome (st : Stream) (pt : UInt8) :
    (st.getReceiver pt).isSome = true ↔ st.Receives pt := by
  unfold Stream.getReceiver Stream.Receives
  rw [Std.ExtTreeMap.mem_iff_isSome_getElem?]
  rcases st.receivers[pt]? with _ | receiver
  · rw [or_iff_right (by decide)]
    rcases st.ms.remoteFormats[pt]? with _ | fmt
    · simp
    · simp [createReceiver_isSome]
  · simp

theorem receiveRtpPacket_isSome (st : Stream) (p : Arrival) :
    (st.receiveRtpPacket p).2.isSome = true ↔ st.Receives p.pt := by
  rw [← getReceiver_isSome]
  unfold Stream.receiveRtpPacket
  rcases st.getReceiver p.pt with _ | ⟨st', receiver⟩ <;> rfl

theorem getMediaStreamByRemoteSsrc_eq_some {ssrc : UInt32} {i : ℕ} :
    getMediaStreamByRemoteSsrc s ssrc = some i ↔ Leads s ssrc i := by
  unfold getMediaStreamByRemoteSsrc Leads
  rw [List.findIdx?_eq_some_iff_getElem]
  constructor
  · rintro ⟨hi, hkeeps, hbefore⟩
    refine ⟨⟨s[i], List.getElem?_eq_getElem hi, by simpa using hkeeps⟩, fun j hj st hst => ?_⟩
    rw [List.getElem?_eq_getElem (by omega)] at hst
    simpa [Option.some.inj hst] using hbefore j hj
  · rintro ⟨⟨st, hst, hkeeps⟩, hbefore⟩
    obtain ⟨hi, rfl⟩ := List.getElem?_eq_some_iff.mp hst
    exact ⟨hi, by simpa using hkeeps,
      fun j hj => by simpa using hbefore j hj _ (List.getElem?_eq_getElem (by omega))⟩

/-- A packet reaches the first stream that keeps its SSRC. -/
theorem handleRtpPacket_eq_some {i : ℕ} {r : Option UInt8} :
    (handleRtpPacket s p).2 = some (i, r) ↔
      Leads s p.ssrc i ∧ ∃ st, s[i]? = some st ∧ (st.receiveRtpPacket p).2 = r := by
  rw [← getMediaStreamByRemoteSsrc_eq_some]
  unfold handleRtpPacket
  rcases hget : getMediaStreamByRemoteSsrc s p.ssrc with _ | j
  · simp
  · obtain ⟨⟨st, hst, -⟩, -⟩ := getMediaStreamByRemoteSsrc_eq_some.mp hget
    dsimp only
    rw [hst]
    dsimp only
    constructor
    · intro h
      obtain ⟨rfl, rfl⟩ := Prod.mk.inj (Option.some.inj h)
      exact ⟨rfl, st, hst, rfl⟩
    · rintro ⟨hji, st', hst', rfl⟩
      obtain rfl := Option.some.inj hji
      rw [hst] at hst'
      rw [Option.some.inj hst']

/-- A packet is handled as it should be exactly if the streams that it belongs to lead. -/
theorem demultiplexed_handleRtpPacket (s : List Stream) (p : Arrival) :
    Demultiplexed s p (handleRtpPacket s p).2 ↔ Led s p := by
  constructor
  · intro h
    refine ⟨fun i st m hst hm hnone halone => ?_, fun i st m hst hm hin => ?_⟩
    · obtain ⟨pt, hpt⟩ := h.unsignalled i st m hst hm hnone halone
      obtain ⟨hleads, st', hst', hr⟩ := handleRtpPacket_eq_some.mp hpt
      rw [hst] at hst'
      obtain rfl := Option.some.inj hst'
      exact ⟨hleads, (receiveRtpPacket_isSome st p).mp (by rw [hr]; rfl)⟩
    · obtain ⟨pt, hpt⟩ := h.signalled i st m hst hm hin
      exact (handleRtpPacket_eq_some.mp hpt).1
  · intro h
    refine ⟨fun i st m hst hm hnone halone => ?_, fun i st m hst hm hin => ?_⟩
    · obtain ⟨hleads, hreceives⟩ := h.unsignalled i st m hst hm hnone halone
      obtain ⟨pt, hpt⟩ :=
        Option.isSome_iff_exists.mp ((receiveRtpPacket_isSome st p).mpr hreceives)
      exact ⟨pt, handleRtpPacket_eq_some.mpr ⟨hleads, st, hst, hpt⟩⟩
    · exact ⟨_, handleRtpPacket_eq_some.mpr ⟨h.signalled i st m hst hm hin, st, hst, rfl⟩⟩

/-! ### Runs -/

variable {fromString : Text → Option Address}

/-- What an event asks for in the state it comes to. -/
def LedEvent (s : List Stream) : SessionEvent → Prop
  | .rtpPacket p => Led s p
  | _ => True

/-- Of any negotiations and packets: every packet is handled as it should be exactly if the
streams that it belongs to lead in the state it comes to. -/
theorem demultiplexed_iff {s t : List Stream} {es : List SessionEvent}
    {shown : List (List Stream × Arrival × Option (ℕ × Option UInt8))}
    (hrun : run (sessionStep fromString) s es = some (t, shown)) :
    (∀ x ∈ shown, Demultiplexed x.1 x.2.1 x.2.2) ↔
      RunOk (sessionStep fromString) LedEvent s es := by
  have hruns : RunOk (sessionStep fromString) LedEvent s es ↔
      ∀ x ∈ [] ++ shown, Demultiplexed x.1 x.2.1 x.2.2 :=
    RunOk.iff_outputs (fun _ _ => True)
      (fun out : List (List Stream × Arrival × Option (ℕ × Option UInt8)) =>
        ∀ x ∈ out, Demultiplexed x.1 x.2.1 x.2.2)
      (fun os os' h x hx => h x (List.mem_append_left os' hx))
      (fun _ _ _ _ _ _ _ _ => trivial)
      (fun s out e s' o _ _ hout hs => by
        rcases e with ms | i | ⟨i, type, sdp⟩ | p
        · obtain ⟨-, rfl⟩ := Prod.mk.inj (Option.some.inj hs)
          exact iff_of_true trivial (by rwa [List.append_nil])
        · obtain ⟨-, rfl⟩ := Prod.mk.inj (Option.some.inj hs)
          exact iff_of_true trivial (by rwa [List.append_nil])
        · obtain ⟨st, -, heq⟩ := Option.map_eq_some_iff.mp hs
          obtain ⟨-, rfl⟩ := Prod.mk.inj heq
          exact iff_of_true trivial (by rwa [List.append_nil])
        · obtain ⟨-, rfl⟩ := Prod.mk.inj (Option.some.inj hs)
          rw [List.forall_mem_append, and_iff_right hout, List.forall_mem_singleton,
            demultiplexed_handleRtpPacket]
          rfl)
      [] (RunOk.of_forall (fun _ _ => trivial) s es : RunOk _ (fun _ _ => True) s es) trivial
      (List.forall_mem_nil _) hrun
  rw [List.nil_append] at hruns
  exact hruns.symm

/-! ### Streams for which nothing was signalled -/

/-- The stream keeps no SSRC, which is to keep 0. -/
def Stream.Silent (st : Stream) : Prop := st.ms.remoteRtpSsrc = 0 ∧ st.ms.remoteRtxSsrc = 0

theorem Stream.Silent.keeps_iff {st : Stream} (h : st.Silent) (ssrc : UInt32) :
    st.Keeps ssrc ↔ ssrc = 0 := by
  unfold Stream.Keeps
  rw [h.1, h.2, or_self, eq_comm]

theorem negotiate_ssrcs {ms t : MediaStream} {m : Media} (h : ms.negotiate m = some t) :
    t.remoteRtpSsrc = ms.remoteRtpSsrc ∧ t.remoteRtxSsrc = ms.remoteRtxSsrc := by
  unfold MediaStream.negotiate at h
  dsimp only at h
  split_ifs at h
  obtain rfl := Option.some.inj h
  exact ⟨rfl, rfl⟩

theorem acceptAnswer_ssrcs {ms t : MediaStream} {m : Media} (h : ms.acceptAnswer m = some t) :
    t.remoteRtpSsrc = (m.ssrcs[0]?.map Ssrc.ssrc).getD ms.remoteRtpSsrc ∧
      t.remoteRtxSsrc = (m.ssrcs[1]?.map Ssrc.ssrc).getD ms.remoteRtxSsrc := by
  unfold MediaStream.acceptAnswer at h
  by_cases hsetup : m.setup = .none
  · rw [if_pos hsetup] at h
    cases h
  · rw [if_neg hsetup] at h
    obtain ⟨u, hu, rfl⟩ := Option.map_eq_some_iff.mp h
    exact negotiate_ssrcs hu

/-- A stream keeps the first two SSRCs of a section, and those from before where there are none. -/
theorem setRemoteSdp_ssrcs {st st' : Stream} {type : SdpType} {sdp : Media}
    (h : st.setRemoteSdp fromString type sdp = some st') :
    st'.ms.remoteRtpSsrc = (sdp.ssrcs[0]?.map Ssrc.ssrc).getD st.ms.remoteRtpSsrc ∧
      st'.ms.remoteRtxSsrc = (sdp.ssrcs[1]?.map Ssrc.ssrc).getD st.ms.remoteRtxSsrc := by
  obtain ⟨⟨ms, e⟩, hsec, rfl⟩ := Option.map_eq_some_iff.mp h
  obtain ⟨ms', hms, heq⟩ := Option.map_eq_some_iff.mp hsec
  obtain ⟨rfl, -⟩ := Prod.mk.inj heq
  cases type with
  | unknown => cases hms
  | offer =>
    dsimp only at hms
    unfold MediaStream.setRemoteSdp at hms
    by_cases hno : sdp.setup = .none ∨ sdp.transMode = .inactive
    · rw [if_pos hno] at hms
      cases hms
    · rw [if_neg hno] at hms
      obtain rfl := Option.some.inj hms
      exact ⟨rfl, rfl⟩
  | answer => exact acceptAnswer_ssrcs hms

/-- A section without an SSRC leaves a stream silent. -/
theorem Stream.Silent.setRemoteSdp {st st' : Stream} {type : SdpType} {sdp : Media}
    (h : st.Silent) (hnone : sdp.ssrcs = [])
    (hset : st.setRemoteSdp fromString type sdp = some st') : st'.Silent := by
  have hssrcs := setRemoteSdp_ssrcs hset
  rw [hnone] at hssrcs
  exact ⟨hssrcs.1.trans h.1, hssrcs.2.trans h.2⟩

theorem getReceiver_ms {st st' : Stream} {pt : UInt8} {receiver : Receiver}
    (h : st.getReceiver pt = some (st', receiver)) : st'.ms = st.ms := by
  unfold Stream.getReceiver at h
  split at h
  · obtain ⟨rfl, -⟩ := Prod.mk.inj (Option.some.inj h)
    rfl
  · obtain ⟨fmt, -, hcreate⟩ := Option.bind_eq_some_iff.mp h
    unfold Stream.createReceiver at hcreate
    by_cases hcan : st.canCreate fmt = true
    · rw [if_pos hcan] at hcreate
      obtain ⟨rfl, -⟩ := Prod.mk.inj (Option.some.inj hcreate)
      rfl
    · rw [if_neg hcan] at hcreate
      cases hcreate

theorem insertPacket_ms (st : Stream) (receiver : Receiver) (p : Arrival) :
    (st.insertPacket receiver p).ms = st.ms := by
  unfold Stream.insertPacket
  split_ifs <;> rfl

theorem learn_ssrcs (st : Stream) (p : Arrival) :
    (st.learn p).ms.remoteRtpSsrc =
        (if st.ms.remoteRtpSsrc = 0 then p.ssrc else st.ms.remoteRtpSsrc) ∧
      (st.learn p).ms.remoteRtxSsrc = st.ms.remoteRtxSsrc := by
  unfold Stream.learn
  by_cases huse : st.useRtpEndpoint = true <;> by_cases hzero : st.ms.remoteRtpSsrc = 0 <;>
    simp [huse, hzero]

/-- The SSRC of a stream is learned only when it is 0, from the packets that reach it. -/
theorem Stream.Silent.receiveRtpPacket {st : Stream} (h : st.Silent) (hzero : p.ssrc = 0) :
    (st.receiveRtpPacket p).1.Silent := by
  unfold Stream.receiveRtpPacket
  rcases hget : st.getReceiver p.pt with _ | ⟨st', receiver⟩
  · exact h
  · have hms : st'.Silent := by
      unfold Stream.Silent
      rw [getReceiver_ms hget]
      exact h
    unfold Stream.Silent
    dsimp only
    rw [insertPacket_ms]
    split_ifs
    · exact hms
    · rw [(learn_ssrcs st' p).1, (learn_ssrcs st' p).2, if_pos hms.1]
      exact ⟨hzero, hms.2⟩

/-- A packet leaves a silent stream silent. -/
theorem handleRtpPacket_silent {i : ℕ} (h : ∀ st, s[i]? = some st → st.Silent) :
    ∀ st, (handleRtpPacket s p).1[i]? = some st → st.Silent := by
  unfold handleRtpPacket
  rcases hget : getMediaStreamByRemoteSsrc s p.ssrc with _ | j
  · exact h
  · obtain ⟨⟨st, hst, hkeeps⟩, -⟩ := getMediaStreamByRemoteSsrc_eq_some.mp hget
    dsimp only
    rw [hst]
    intro st' hst'
    by_cases hij : j = i
    · subst hij
      rw [List.getElem?_set_self (List.getElem?_eq_some_iff.mp hst).1] at hst'
      obtain rfl := Option.some.inj hst'
      exact (h st hst).receiveRtpPacket (((h st hst).keeps_iff _).mp hkeeps)
    · rw [List.getElem?_set_ne hij] at hst'
      exact h st' hst'

/-- Whatever packets came, none with an SSRC reaches a stream for which none was signalled. -/
theorem silent_unreached {i : ℕ} (h : ∀ st, s[i]? = some st → st.Silent) (ps : List Arrival)
    (hssrc : p.ssrc ≠ 0) (r : Option UInt8) :
    (handleRtpPacket (ps.foldl (fun s p => (handleRtpPacket s p).1) s) p).2 ≠ some (i, r) := by
  induction ps generalizing s with
  | nil =>
    intro hreach
    obtain ⟨⟨⟨st, hst, hkeeps⟩, -⟩, -⟩ := handleRtpPacket_eq_some.mp hreach
    exact hssrc (((h st hst).keeps_iff _).mp hkeeps)
  | cons q ps ih => exact ih (handleRtpPacket_silent h)

private def pcmaSection (ssrcs : List UInt32) : Media :=
  { mediaType := .audio, setup := .active
    ssrcs := ssrcs.map fun n => ⟨n, [], [], []⟩
    rtpmap := .ofList [(8, { pt := 8, codec := .pcma, frequency := 8000 })] compare }

private def pcmaPacket (ssrc : UInt32) : Arrival := ⟨40000, anyEndpoint, 8, ssrc⟩

private def newStream : Stream := { ms := .create .audio .sendrecv 40000 40000 1 2 }

private def oneStream : List Stream := [newStream]

private theorem signalled_received : (run (sessionStep fun _ => none) oneStream
    [.setRemoteSdp 0 .offer (pcmaSection [77]), .rtpPacket (pcmaPacket 77)]).isSome = true := by
  decide +kernel

theorem demultiplexed_signalled :
    (∀ x ∈ ((run (sessionStep fun _ => none) oneStream
        [.setRemoteSdp 0 .offer (pcmaSection [77]), .rtpPacket (pcmaPacket 77)]).get
          signalled_received).2, Demultiplexed x.1 x.2.1 x.2.2) ↔
      RunOk (sessionStep fun _ => none) LedEvent oneStream
        [.setRemoteSdp 0 .offer (pcmaSection [77]), .rtpPacket (pcmaPacket 77)] :=
  demultiplexed_iff (Option.some_get signalled_received).symm

private theorem unsignalled_negotiated :
    (newStream.setRemoteSdp (fun _ => none) .offer (pcmaSection [])).map
      (fun st => (st.ms.rtpTransport, st.ms.remoteFormats.contains 8)) = some (40000, true) := by
  decide +kernel

/-- The only stream of a transport, negotiated without SSRCs, does not get a packet with one. -/
theorem unsignalled_dropped : ∃ t shown, run (sessionStep fun _ => none) oneStream
    [.setRemoteSdp 0 .offer (pcmaSection []), .rtpPacket (pcmaPacket 1234)] = some (t, shown) ∧
      ¬∀ x ∈ shown, Demultiplexed x.1 x.2.1 x.2.2 := by
  obtain ⟨st, hst, hnegotiated⟩ := Option.map_eq_some_iff.mp unsignalled_negotiated
  obtain ⟨hport, hpt⟩ := Prod.mk.inj hnegotiated
  have hstep : sessionStep (fun _ => none) oneStream (.setRemoteSdp 0 .offer (pcmaSection [])) =
      some ([st], []) := by
    unfold sessionStep oneStream
    dsimp only
    rw [List.getElem?_cons_zero, Option.bind_some, hst]
    rfl
  have hrun : run (sessionStep fun _ => none) [st] [.rtpPacket (pcmaPacket 1234)] =
      some ((handleRtpPacket [st] (pcmaPacket 1234)).1,
        [([st], pcmaPacket 1234, (handleRtpPacket [st] (pcmaPacket 1234)).2)]) := rfl
  refine ⟨_, _, run_cons_eq_some.mpr ⟨[st], [], _, hstep, hrun, rfl⟩, fun hall => ?_⟩
  have hremote : st.remote = some (pcmaSection []) := by
    obtain ⟨r, -, rfl⟩ := Option.map_eq_some_iff.mp hst
    rfl
  have hsilent : st.Silent := Stream.Silent.setRemoteSdp ⟨rfl, rfl⟩ rfl hst
  have halone : Alone [st] (pcmaPacket 1234) 0 := by
    intro j st' hst'
    rcases j with _ | j
    · obtain rfl := Option.some.inj hst'
      exact iff_of_true ⟨hport, Std.ExtTreeMap.mem_iff_contains.mpr hpt⟩ rfl
    · cases hst'
  obtain ⟨pt, hreached⟩ := (hall _ List.mem_cons_self).unsignalled 0 st (pcmaSection []) rfl
    hremote rfl halone
  refine silent_unreached (s := [st]) (i := 0) (fun st' hst' => ?_) [] (by decide) _ hreached
  obtain rfl := Option.some.inj hst'
  exact hsilent

end CxxDeps.Session
