import Mathlib.Data.List.Forall2
import CxxDeps.Session.RtpSession

/-! An answer beside its offer. The streams of an accepted offer are its sections, one by
one; the section that is made of a stream has the protocols of its kind, whatever was
offered, and multiplexes RTCP with one port for everything. -/

namespace CxxDeps.Session

open Sys Sdp RtpSession

/-! ### Conformance -/

/-- The directions with which an offered direction may be answered. -/
def DirectionOk : TransMode → TransMode → Prop
  | .sendrecv, _ => True
  | .sendonly, a => a = .recvonly ∨ a = .inactive
  | .recvonly, a => a = .sendonly ∨ a = .inactive
  | .inactive, a => a = .inactive

/-- The setups with which an offered setup may be answered. -/
def SetupOk : Setup → Setup → Prop
  | .actpass, a => a = .active ∨ a = .passive
  | .active, a => a = .passive
  | .passive, a => a = .active
  | .none, a => a = .none

/-- What an answer has to keep of a section. -/
structure SectionConforms (offered answered : Media) : Prop where
  mid : answered.mid = offered.mid
  mediaType : answered.mediaType = offered.mediaType
  protocol : answered.toProtocolsString = offered.toProtocolsString
  formats : ∀ (pt : UInt8) fmt, answered.rtpmap[pt]? = some fmt →
    ∃ fmt', offered.rtpmap[pt]? = some fmt' ∧ fmt.codec = fmt'.codec ∧
      fmt.codecText = fmt'.codecText
  direction : DirectionOk offered.transMode answered.transMode
  setup : SetupOk offered.setup answered.setup
  rtcpMux : answered.rtcpMux = true → offered.rtcpMux = true

def Conforms (offer answer : Sdp) : Prop := List.Forall₂ SectionConforms offer.medias answer.medias

/-- The protocol string of every answer to a section of this kind. -/
def answerProtocol (m : Media) : Text :=
  match m.mediaType, m.isSecurity with
  | .application, true => text "UDP/DTLS/SCTP"
  | .application, false => text "UDP/SCTP"
  | _, true => text "UDP/TLS/RTP/SAVPF"
  | _, false => text "UDP/RTP/AVPF/AVP"

/-- A section that is answered as it should be: a data channel if it is an application,
offered with the protocols that every answer names, and with RTCP multiplexing if there
is one port for everything. -/
structure Answerable (isPortMux : Bool) (m : Media) : Prop where
  app : m.mediaType = .application → m.appDataType = text "webrtc-datachannel"
  protocol : m.toProtocolsString = answerProtocol m
  rtcpMux : isPortMux = true → m.rtcpMux = true

/-! ### The streams of an offer -/

/-- The stream of a section. -/
structure MadeFrom (isPortMux : Bool) (m : Media) (ms : MediaStream) : Prop where
  role : ms.sdpRole = .answer
  mid : ms.mid = m.mid
  mediaType : ms.mediaType = m.mediaType
  appProto : ms.appProto = m.appDataType
  security : ms.security = m.isSecurity
  formats : ms.localFormats = m.rtpmap
  active : m.transMode ≠ .inactive
  transMode : ms.transMode = reverseMode m.transMode
  hasSetup : m.setup ≠ .none
  setup : SetupOk m.setup ms.localSetup
  rtcpMux : ms.isRtcpMux = (isPortMux || m.rtcpMux)

/-- Making transports keeps the role, the streams and the port multiplexing. -/
structure SameStreams (s s' : RtpSession) : Prop where
  isPortMux : s'.isPortMux = s.isPortMux
  sdpRole : s'.sdpRole = s.sdpRole
  mediaStreams : s'.mediaStreams = s.mediaStreams

theorem SameStreams.trans {s s' s'' : RtpSession} (h : SameStreams s s')
    (h' : SameStreams s' s'') : SameStreams s s'' :=
  ⟨h'.isPortMux.trans h.isPortMux, h'.sdpRole.trans h.sdpRole,
    h'.mediaStreams.trans h.mediaStreams⟩

section Sections

variable {env : Env} {s : RtpSession}

theorem createTransport_sameStreams (port : UInt16) (security : Bool) :
    SameStreams s (createTransport env s port security).1 := by
  unfold createTransport
  dsimp only
  split_ifs <;> exact ⟨rfl, rfl, rfl⟩

theorem tryRemoveTransport_sameStreams (port : UInt16) :
    SameStreams s (tryRemoveTransport s port) := by
  unfold tryRemoveTransport
  split
  · exact ⟨rfl, rfl, rfl⟩
  · split_ifs <;> exact ⟨rfl, rfl, rfl⟩

theorem singleLoop_sameStreams (security : Bool) (n : ℕ) :
    SameStreams s (singleLoop env security n s).1 := by
  induction n generalizing s with
  | zero => exact ⟨rfl, rfl, rfl⟩
  | succ n ih =>
    have hports : SameStreams s { s with ports := s.ports.getNextPort.2 } := ⟨rfl, rfl, rfl⟩
    rw [singleLoop]
    dsimp only
    split_ifs
    · exact hports.trans (createTransport_sameStreams _ _)
    · exact (hports.trans (createTransport_sameStreams _ _)).trans ih

theorem pairLoop_sameStreams (security : Bool) (n : ℕ) :
    SameStreams s (pairLoop env security n s).1 := by
  induction n generalizing s with
  | zero => exact ⟨rfl, rfl, rfl⟩
  | succ n ih =>
    have hports : SameStreams s { s with ports := s.ports.getNextEvenPort.2 } := ⟨rfl, rfl, rfl⟩
    rw [pairLoop]
    dsimp only
    split_ifs
    · exact (hports.trans (createTransport_sameStreams _ _)).trans ih
    · exact (((hports.trans (createTransport_sameStreams _ _)).trans
        (createTransport_sameStreams _ _)).trans (tryRemoveTransport_sameStreams _)).trans ih
    · exact (hports.trans (createTransport_sameStreams _ _)).trans
        (createTransport_sameStreams _ _)

theorem pairLoop_ne (security : Bool) (n : ℕ) {rtp rtcp : UInt16}
    (h : (pairLoop env security n s).2 = some (rtp, rtcp)) : rtp ≠ rtcp := by
  induction n generalizing s with
  | zero => cases h
  | succ n ih =>
    rw [pairLoop] at h
    dsimp only at h
    split_ifs at h
    · exact ih h
    · exact ih h
    · cases h
      intro he
      have := congrArg UInt16.toNat he
      simp at this
      omega

/-- The transports of a section are one exactly when there is one port for everything or
the section is to be multiplexed. -/
theorem createTransportPair_spec {security rtcpMux : Bool} {s' : RtpSession} {rtp rtcp : UInt16}
    (h : createTransportPair env s security rtcpMux = (s', some (rtp, rtcp))) :
    SameStreams s s' ∧ decide (rtp = rtcp) = (s.isPortMux || rtcpMux) := by
  have hsingle : SameStreams s (singleLoop env security s.ports.count s).1 :=
    singleLoop_sameStreams security s.ports.count
  unfold createTransportPair at h
  cases hp : s.isPortMux with
  | true =>
    rw [if_pos hp] at h
    dsimp only at h
    split_ifs at h with hm hok
    · obtain ⟨rfl, hpair⟩ := Prod.mk.inj h
      cases hpair
      exact ⟨createTransport_sameStreams _ _, by simp⟩
    · cases h
    · obtain ⟨rfl, hpair⟩ := Prod.mk.inj h
      obtain ⟨port, hport, hpair⟩ := Option.map_eq_some_iff.mp hpair
      cases hpair
      rw [hport]
      exact ⟨⟨hsingle.isPortMux, hsingle.sdpRole, hsingle.mediaStreams⟩, by simp⟩
  | false =>
    rw [if_neg (by simp [hp])] at h
    cases rtcpMux with
    | true =>
      obtain ⟨rfl, hpair⟩ := Prod.mk.inj h
      obtain ⟨port, hport, hpair⟩ := Option.map_eq_some_iff.mp hpair
      cases hpair
      exact ⟨hsingle, by simp⟩
    | false =>
      have hs : (pairLoop env security s.ports.count s).1 = s' := congrArg Prod.fst h
      have hne := pairLoop_ne security s.ports.count (congrArg Prod.snd h)
      exact ⟨hs ▸ pairLoop_sameStreams security s.ports.count, by simpa using hne⟩

theorem createMediaStream_spec {mt : MediaType} {mid sid tid : Text} {security rtcpMux : Bool}
    {transMode : TransMode} {s' : RtpSession} {ms : MediaStream}
    (h : createMediaStream env s mt mid security sid tid transMode rtcpMux = some (s', ms)) :
    SameStreams s s' ∧ ms.mediaType = mt ∧ ms.isRtcpMux = (s.isPortMux || rtcpMux) := by
  unfold createMediaStream at h
  rcases hpair : createTransportPair env s security rtcpMux with ⟨s₁, _ | ⟨rtp, rtcp⟩⟩
  · simp only [hpair] at h
    cases h
  · obtain ⟨hsame, hmux⟩ := createTransportPair_spec hpair
    simp only [hpair] at h
    split_ifs at h
    cases h
    exact ⟨⟨hsame.isPortMux, hsame.sdpRole, hsame.mediaStreams⟩, rfl, hmux⟩

theorem setRemoteSdp_madeFrom {ms ms' : MediaStream} {m : Media} {isPortMux : Bool}
    (h : ms.setRemoteSdp m = some ms') (htype : ms.mediaType = m.mediaType)
    (hmux : ms.isRtcpMux = (isPortMux || m.rtcpMux)) : MadeFrom isPortMux m ms' := by
  unfold MediaStream.setRemoteSdp at h
  split_ifs at h with hbad
  obtain ⟨hsetup, hactive⟩ := not_or.mp hbad
  obtain rfl := Option.some.inj h
  refine ⟨rfl, rfl, htype, rfl, rfl, rfl, hactive, rfl, hsetup, ?_, hmux⟩
  show SetupOk m.setup (answerSetup ms.localSetup m.setup)
  cases hm : m.setup with
  | none => exact absurd hm hsetup
  | actpass => exact .inl rfl
  | active => rfl
  | passive => rfl

theorem resumeSctp_madeFrom {ms : MediaStream} {m : Media} {isPortMux : Bool}
    (h : MadeFrom isPortMux m ms) (sctpStreams : List (Text × UInt16)) :
    MadeFrom isPortMux m (resumeSctp sctpStreams ms) := by
  unfold resumeSctp
  split_ifs
  · split
    · unfold MediaStream.setSctpStreamId
      split_ifs
      · exact h
      · exact { h with }
    · exact h
  · exact h

theorem updateTransport_sameStreams (port : UInt16) (f : Transport → Transport) :
    SameStreams s (s.updateTransport port f) := ⟨rfl, rfl, rfl⟩

theorem setupTransports_sameStreams (ms : MediaStream) (m : Media) :
    SameStreams s (setupTransports env s ms m) := by
  unfold setupTransports
  exact ((((updateTransport_sameStreams _ _).trans (updateTransport_sameStreams _ _)).trans
    (updateTransport_sameStreams _ _)).trans (updateTransport_sameStreams _ _)).trans
    (updateTransport_sameStreams _ _)

/-- One round of the loop over an offer makes one stream. -/
theorem addSection_spec {sctpStreams : List (Text × UInt16)} {s' : RtpSession} {m : Media}
    (h : addSection env sctpStreams s m = some s') :
    s'.isPortMux = s.isPortMux ∧ s'.sdpRole = s.sdpRole ∧
      ∃ ms, s'.mediaStreams = s.mediaStreams ++ [ms] ∧ MadeFrom s.isPortMux m ms := by
  unfold addSection at h
  simp only [Option.bind_eq_bind, Option.pure_def] at h
  obtain ⟨⟨s₁, ms₁⟩, hcreate, h⟩ := Option.bind_eq_some_iff.mp h
  obtain ⟨ms₂, hremote, h⟩ := Option.bind_eq_some_iff.mp h
  obtain ⟨hsame, htype, hmux⟩ := createMediaStream_spec hcreate
  have hmade := setRemoteSdp_madeFrom hremote htype hmux
  have hkeep : SameStreams s (setupTransports env s₁ ms₂ m) :=
    hsame.trans (setupTransports_sameStreams ms₂ m)
  obtain rfl := Option.some.inj h
  exact ⟨hkeep.isPortMux, hkeep.sdpRole, _, congrArg (· ++ _) hkeep.mediaStreams,
    resumeSctp_madeFrom hmade _⟩

/-- The loop makes one stream for each section, in order. -/
theorem foldlM_addSection {sctpStreams : List (Text × UInt16)} {medias : List Media}
    {s' : RtpSession} (h : medias.foldlM (addSection env sctpStreams) s = some s') :
    s'.sdpRole = s.sdpRole ∧
      ∃ mss, s'.mediaStreams = s.mediaStreams ++ mss ∧
        List.Forall₂ (MadeFrom s.isPortMux) medias mss := by
  induction medias generalizing s with
  | nil =>
    cases h
    exact ⟨rfl, [], by simp, .nil⟩
  | cons m medias ih =>
    rw [List.foldlM_cons] at h
    obtain ⟨s₁, hfirst, hrest⟩ := Option.bind_eq_some_iff.mp h
    obtain ⟨hp, hrole, ms, hms, hmade⟩ := addSection_spec hfirst
    obtain ⟨hrole', mss, hmss, hall⟩ := ih hrest
    rw [hp] at hall
    exact ⟨hrole'.trans hrole, ms :: mss, by rw [hmss, hms]; simp, .cons hmade hall⟩

/-- The streams of an accepted offer. -/
theorem setRemoteSdp_spec {offer : Sdp} {s' : RtpSession}
    (h : s.setRemoteSdp env offer = some s') :
    s'.sdpRole = .answer ∧
      List.Forall₂ (MadeFrom s.isPortMux) offer.medias s'.mediaStreams := by
  unfold RtpSession.setRemoteSdp at h
  simp only [Option.bind_eq_bind, Option.pure_def] at h
  obtain ⟨s₁, hfold, h⟩ := Option.bind_eq_some_iff.mp h
  obtain ⟨hrole, mss, hmss, hall⟩ := foldlM_addSection hfold
  obtain rfl : s₁.mediaStreams = mss := hmss.trans (List.nil_append mss)
  cases hs : s₁.mediaStreams with
  | nil =>
    rw [hs] at h
    cases h
  | cons ms rest =>
    rw [hs] at h hall
    obtain rfl := Option.some.inj h
    exact ⟨hrole, hall⟩

end Sections

/-! ### The sections of the answer -/

section Answers

variable {isPortMux : Bool} {m a : Media} {ms : MediaStream} {fingerprint : Text}

variable (fingerprint) in
theorem exists_createAnswer (h : MadeFrom isPortMux m ms) :
    (∃ a, ms.createAnswer fingerprint = some a) ↔
      (m.mediaType = .application → m.appDataType = text "webrtc-datachannel") := by
  have hrole : ¬ ms.sdpRole ≠ .answer := not_not.mpr h.role
  rw [MediaStream.createAnswer, if_neg hrole, MediaStream.toLocalSdp, h.mediaType, h.appProto]
  split_ifs with hbad
  · simp [hbad]
  · simpa using hbad

/-- The answer to a section, field by field. -/
structure AnswerTo (isPortMux : Bool) (m a : Media) : Prop where
  mid : a.mid = m.mid
  mediaType : a.mediaType = m.mediaType
  protocol : a.toProtocolsString = answerProtocol m
  formats : a.rtpmap = m.rtpmap
  direction : a.transMode = reverseMode m.transMode
  setup : SetupOk m.setup a.setup
  rtcpMux : a.rtcpMux = (isPortMux || m.rtcpMux)

theorem createAnswer_answerTo (h : MadeFrom isPortMux m ms)
    (ha : ms.createAnswer fingerprint = some a) : AnswerTo isPortMux m a := by
  unfold MediaStream.createAnswer MediaStream.toLocalSdp at ha
  split_ifs at ha
  obtain rfl := Option.some.inj ha
  refine ⟨h.mid, h.mediaType, ?_, h.formats, h.transMode, h.setup, h.rtcpMux⟩
  unfold Media.toProtocolsString answerProtocol MediaStream.localSection
  dsimp only
  rw [MediaStream.localProtos, h.mediaType, h.security]
  cases m.mediaType <;> cases m.isSecurity <;> decide +kernel

theorem directionOk_reverseMode {t : TransMode} : DirectionOk t (reverseMode t) := by
  cases t <;> simp [DirectionOk, reverseMode]

/-- The section that is made for an offered one conforms to it under two conditions. -/
theorem AnswerTo.conforms_iff (h : AnswerTo isPortMux m a) :
    SectionConforms m a ↔
      m.toProtocolsString = answerProtocol m ∧ (isPortMux = true → m.rtcpMux = true) := by
  constructor
  · intro hc
    refine ⟨hc.protocol.symm.trans h.protocol, fun hp => hc.rtcpMux ?_⟩
    rw [h.rtcpMux, hp, Bool.true_or]
  · rintro ⟨hprotocol, hmux⟩
    refine ⟨h.mid, h.mediaType, h.protocol.trans hprotocol.symm, ?_, ?_, h.setup, ?_⟩
    · intro pt fmt hfmt
      exact ⟨fmt, h.formats ▸ hfmt, rfl, rfl⟩
    · rw [h.direction]
      exact directionOk_reverseMode
    · intro ha
      rw [h.rtcpMux, Bool.or_eq_true] at ha
      exact ha.elim hmux id

variable (fingerprint) in
theorem createAnswer_conforms_iff (h : MadeFrom isPortMux m ms) :
    (∃ a, ms.createAnswer fingerprint = some a ∧ SectionConforms m a) ↔
      Answerable isPortMux m := by
  constructor
  · rintro ⟨a, ha, hc⟩
    obtain ⟨hprotocol, hmux⟩ := (createAnswer_answerTo h ha).conforms_iff.mp hc
    exact ⟨(exists_createAnswer fingerprint h).mp ⟨a, ha⟩, hprotocol, hmux⟩
  · rintro ⟨happ, hprotocol, hmux⟩
    obtain ⟨a, ha⟩ := (exists_createAnswer fingerprint h).mpr happ
    exact ⟨a, ha, (createAnswer_answerTo h ha).conforms_iff.mpr ⟨hprotocol, hmux⟩⟩

end Answers

/-- The sections of the streams conform to the offered ones, one by one. -/
theorem mapM_createAnswer_iff {isPortMux : Bool} {medias : List Media} {mss : List MediaStream}
    (h : List.Forall₂ (MadeFrom isPortMux) medias mss) (fp : MediaStream → Text) :
    (∃ answers, (mss.mapM fun ms => ms.createAnswer (fp ms)) = some answers ∧
        List.Forall₂ SectionConforms medias answers) ↔
      ∀ m ∈ medias, Answerable isPortMux m := by
  induction h with
  | nil => simp
  | @cons m ms medias mss hm _ ih =>
    rw [List.forall_mem_cons, ← ih, ← createAnswer_conforms_iff (fp ms) hm]
    simp only [List.mapM_cons, Option.bind_eq_bind, Option.pure_def]
    constructor
    · rintro ⟨answers, hmap, hall⟩
      obtain ⟨a, ha, hmap⟩ := Option.bind_eq_some_iff.mp hmap
      obtain ⟨rest, hrest, hmap⟩ := Option.bind_eq_some_iff.mp hmap
      obtain rfl := Option.some.inj hmap
      obtain ⟨hc, hall⟩ := List.forall₂_cons.mp hall
      exact ⟨⟨a, ha, hc⟩, rest, hrest, hall⟩
    · rintro ⟨⟨a, ha, hc⟩, rest, hrest, hall⟩
      exact ⟨a :: rest, by rw [ha, Option.bind_some, hrest, Option.bind_some], .cons hc hall⟩

/-- For every accepted offer an answer is created that conforms to it, if and only if
all sections are answerable. -/
theorem answer_conforms_iff (env : Env) (s s' : RtpSession) (offer : Sdp)
    (h : s.setRemoteSdp env offer = some s') :
    (∃ answer s'', s'.createAnswer env {} = some (answer, s'') ∧ Conforms offer answer) ↔
      ∀ m ∈ offer.medias, Answerable s.isPortMux m := by
  obtain ⟨hrole, hall⟩ := setRemoteSdp_spec h
  rw [← mapM_createAnswer_iff hall fun ms => fingerprint env s' ms.rtpTransport]
  unfold RtpSession.createAnswer
  rw [if_neg (not_not.mpr hrole)]
  simp only [Option.bind_eq_bind, Option.pure_def]
  constructor
  · rintro ⟨answer, s'', hanswer, hc⟩
    obtain ⟨sections, hmap, hanswer⟩ := Option.bind_eq_some_iff.mp hanswer
    cases hanswer
    exact ⟨sections, hmap, hc⟩
  · rintro ⟨sections, hmap, hc⟩
    exact ⟨{ medias := sections, attrs := _ }, _, by rw [hmap, Option.bind_some]; rfl, hc⟩

/-- Every socket can be bound. -/
private def openEnv : Env := ⟨fun _ _ => true, some (text "AB:CD"), fun n => UInt32.ofNat n + 1⟩

/-- One port for everything, before the first offer. -/
private def freshSession : RtpSession :=
  { isPortMux := true, cname := text "c", iceUfrag := text "u", icePwd := text "p" }

private def offered (protos : List String) : Media :=
  { mediaType := .audio, mid := text "0", setup := .actpass, rtcpMux := true
    protos := .ofList (protos.map text) compare
    rtpmap := .ofList [(8, { pt := 8, codec := .pcma, frequency := 8000 })] compare }

private theorem webrtc_accepted : (freshSession.setRemoteSdp openEnv
    { medias := [offered ["UDP", "TLS", "RTP", "SAVPF"]] }).isSome := by
  decide +kernel

private theorem plain_accepted : (freshSession.setRemoteSdp openEnv
    { medias := [offered ["RTP", "AVP"]] }).isSome := by
  decide +kernel

theorem answer_conforms_iff_webrtc :
    (∃ answer s'', ((freshSession.setRemoteSdp openEnv
        { medias := [offered ["UDP", "TLS", "RTP", "SAVPF"]] }).get
          webrtc_accepted).createAnswer openEnv {} = some (answer, s'') ∧
        Conforms { medias := [offered ["UDP", "TLS", "RTP", "SAVPF"]] } answer) ↔
      ∀ m ∈ [offered ["UDP", "TLS", "RTP", "SAVPF"]], Answerable true m :=
  answer_conforms_iff openEnv freshSession _ { medias := [offered _] }
    (Option.some_get webrtc_accepted).symm

/-- An offer of plain RTP is answered with four protocols. -/
theorem plain_rtp_answered_otherwise :
    ¬ ∀ (env : Env) (s s' : RtpSession) (offer : Sdp), s.setRemoteSdp env offer = some s' →
      ∃ answer s'', s'.createAnswer env {} = some (answer, s'') ∧ Conforms offer answer := by
  intro h
  obtain ⟨answer, s'', hanswer, hc⟩ := h openEnv freshSession _
    { medias := [offered ["RTP", "AVP"]] } (Option.some_get plain_accepted).symm
  have hprotocols : (((freshSession.setRemoteSdp openEnv
      { medias := [offered ["RTP", "AVP"]] }).bind fun s' =>
        s'.createAnswer openEnv {}).map fun q => q.1.medias.map Media.toProtocolsString) =
      some [text "UDP/RTP/AVPF/AVP"] := by
    decide +kernel
  rw [← Option.some_get plain_accepted, Option.bind_some, hanswer, Option.map_some] at hprotocols
  obtain ⟨a, rest, hfirst, -, hmedias⟩ := List.forall₂_cons_left_iff.mp hc
  rw [hmedias] at hprotocols
  have hprotocol := (List.cons.inj (Option.some.inj hprotocols)).1
  rw [hfirst.protocol] at hprotocol
  exact absurd hprotocol (by decide +kernel)

end CxxDeps.Session
