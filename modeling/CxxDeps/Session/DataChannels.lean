import CxxDeps.Session.RtpSession

/-! The SCTP events of `rtp_session`. A transport raises them with its local port, and
the session tells the application about them by the `mid` of a stream.

An opened stream is told about by the port, a closed one and a message by the number
of the stream. Numbers are only unique on one transport. -/

namespace CxxDeps.Session

open Sys Sdp

/-- What a transport raises, bound to its local port by `setup_transport`. -/
inductive SctpEvent
  | connected | disconnected | heartbeat
  | streamOpened (sid : UInt16)
  | streamClosed (sid : UInt16)
  | streamMessage (sid : UInt16) (message : List UInt8)
  deriving DecidableEq, Repr

/-- The number of the stream that an event is about. -/
def SctpEvent.streamId : SctpEvent → Option UInt16
  | .streamOpened sid | .streamClosed sid | .streamMessage sid _ => some sid
  | _ => none

/-- The callbacks that the application has set. -/
structure Callbacks where
  opened : Bool := true
  closed : Bool := true
  message : Bool := true

def Callbacks.has (cb : Callbacks) : SctpEvent → Bool
  | .streamOpened _ => cb.opened
  | .streamClosed _ => cb.closed
  | .streamMessage _ _ => cb.message
  | _ => false

/-- A call of `on_data_channel_opened`, `_closed` or `_message` with the `mid` of a stream,
or of `sctp_open_stream` on it. -/
inductive Report
  | opened (ms : MediaStream)
  | closed (ms : MediaStream)
  | message (ms : MediaStream) (data : List UInt8)
  | openStream (ms : MediaStream)

namespace Report

/-- The report of an event, by the `mid` of a stream. -/
def of (ms : MediaStream) : SctpEvent → Option Report
  | .streamOpened _ => some (.opened ms)
  | .streamClosed _ => some (.closed ms)
  | .streamMessage _ data => some (.message ms data)
  | _ => none

end Report

namespace MediaStream

/-- An application stream on the transport of this port. -/
def IsChannel (ms : MediaStream) (port : UInt16) : Prop :=
  ms.mediaType = .application ∧ ms.rtpTransport = port

instance (ms : MediaStream) (port : UInt16) : Decidable (ms.IsChannel port) :=
  inferInstanceAs (Decidable (_ ∧ _))

/-- An application stream with this number, on whatever transport. -/
def HasStreamId (ms : MediaStream) (sid : UInt16) : Prop :=
  ms.mediaType = .application ∧ ms.sctpStreamId = sid

instance (ms : MediaStream) (sid : UInt16) : Decidable (ms.HasStreamId sid) :=
  inferInstanceAs (Decidable (_ ∧ _))

end MediaStream

namespace RtpSession

def handleSctpConnected (port : UInt16) (s : RtpSession) : List Report :=
  (s.mediaStreams.filter fun ms => ms.IsChannel port ∧ ms.sdpRole = .offer).map .openStream

/-- The loop of `handle_sctp_stream_opened`. -/
def openFirst (port sid : UInt16) : List MediaStream → List MediaStream × List Report
  | [] => ([], [])
  | ms :: rest =>
    if ms.IsChannel port then (ms.setSctpStreamId sid :: rest, [.opened ms])
    else
      let (rest, reports) := openFirst port sid rest
      (ms :: rest, reports)

def handleSctpStreamOpened (port sid : UInt16) (s : RtpSession) : RtpSession × List Report :=
  let (mediaStreams, reports) := openFirst port sid s.mediaStreams
  ({ s with mediaStreams }, reports)

/-- The loop of `handle_sctp_stream_closed` and of `handle_sctp_stream_message`. -/
def firstWithId (sid : UInt16) (s : RtpSession) : Option MediaStream :=
  s.mediaStreams.find? fun ms => ms.HasStreamId sid

def handleSctpStreamClosed (sid : UInt16) (s : RtpSession) : List Report :=
  ((s.firstWithId sid).map Report.closed).toList

def handleSctpStreamMessage (sid : UInt16) (message : List UInt8) (s : RtpSession) : List Report :=
  ((s.firstWithId sid).map (Report.message · message)).toList

/-- An event of the transport of a port. A stream is told what became of the connection,
and does nothing. -/
def handleSctp (cb : Callbacks) (port : UInt16) (s : RtpSession) :
    SctpEvent → RtpSession × List Report
  | .connected => (s, s.handleSctpConnected port)
  | .disconnected | .heartbeat => (s, [])
  | .streamOpened sid => if cb.opened then s.handleSctpStreamOpened port sid else (s, [])
  | .streamClosed sid => (s, if cb.closed then s.handleSctpStreamClosed sid else [])
  | .streamMessage sid message =>
    (s, if cb.message then s.handleSctpStreamMessage sid message else [])

/-- An event, with the state it finds and the reports it gives rise to. -/
structure Handled where
  before : RtpSession
  port : UInt16
  event : SctpEvent
  reports : List Report

/-- The events that the transports raise, one after the other. -/
def handled (cb : Callbacks) : RtpSession → List (UInt16 × SctpEvent) → List Handled
  | _, [] => []
  | s, (port, event) :: events =>
    let (t, reports) := s.handleSctp cb port event
    ⟨s, port, event, reports⟩ :: handled cb t events

/-- The stream to report an event for stream `sid` by: if there is an application stream
on the port then one of them, and one that has the number if there is one. -/
def Targets (port sid : UInt16) (s : RtpSession) (found : Option MediaStream) : Prop :=
  ((∃ ms ∈ s.mediaStreams, ms.IsChannel port) → found ≠ none) ∧
    ∀ ms, found = some ms → ms ∈ s.mediaStreams ∧ ms.IsChannel port ∧
      ((∃ ms' ∈ s.mediaStreams, ms'.IsChannel port ∧ ms'.sctpStreamId = sid) →
        ms.sctpStreamId = sid)

/-- An event for a stream that there is a callback for is reported, by the `mid` of a
stream of its transport. -/
def Handled.Routed (cb : Callbacks) (h : Handled) : Prop :=
  ∀ sid, h.event.streamId = some sid → cb.has h.event →
    ∃ found, h.reports = (found.bind (Report.of · h.event)).toList ∧
      h.before.Targets h.port sid found

/-- The first application stream that is on the port has the number, or none on the port
has it. -/
def OpensInOrder (port sid : UInt16) (s : RtpSession) : Prop :=
  (∃ pre ms post, s.mediaStreams = pre ++ ms :: post ∧ ms.IsChannel port ∧
    ms.sctpStreamId = sid ∧ ∀ ms' ∈ pre, ¬ ms'.IsChannel port) ∨
  ∀ ms ∈ s.mediaStreams, ms.IsChannel port → ms.sctpStreamId ≠ sid

/-- The first application stream that has the number is on the port, or none has it and
none is on the port. -/
def FindsInOrder (port sid : UInt16) (s : RtpSession) : Prop :=
  (∃ pre ms post, s.mediaStreams = pre ++ ms :: post ∧ ms.HasStreamId sid ∧
    ms.rtpTransport = port ∧ ∀ ms' ∈ pre, ¬ ms'.HasStreamId sid) ∨
  ∀ ms ∈ s.mediaStreams, ¬ ms.HasStreamId sid ∧ ¬ ms.IsChannel port

/-- The condition on an event of the transport of a port. -/
def EventInOrder (port : UInt16) (s : RtpSession) : SctpEvent → Prop
  | .streamOpened sid => s.OpensInOrder port sid
  | .streamClosed sid | .streamMessage sid _ => s.FindsInOrder port sid
  | _ => True

/-- It is only asked of an event that there is a callback for. -/
def Handled.InOrder (cb : Callbacks) (h : Handled) : Prop :=
  cb.has h.event → h.before.EventInOrder h.port h.event

variable {cb : Callbacks} {s : RtpSession} {port sid : UInt16}

/-! ### The two searches -/

/-- The loop reports the first application stream on the port. -/
theorem openFirst_reports (port sid : UInt16) (l : List MediaStream) :
    (openFirst port sid l).2 =
      ((l.find? fun ms => ms.IsChannel port).map Report.opened).toList := by
  induction l with
  | nil => rfl
  | cons ms l ih =>
    rw [openFirst, List.find?_cons]
    by_cases h : ms.IsChannel port
    · simp [h]
    · simp [h, ih]

/-- A search by port is right exactly if it leads to the number. -/
theorem targets_port_iff :
    s.Targets port sid (s.mediaStreams.find? fun ms => ms.IsChannel port) ↔
      s.OpensInOrder port sid := by
  constructor
  · rintro ⟨-, hfound⟩
    by_cases hnone : ∀ ms ∈ s.mediaStreams, ms.IsChannel port → ms.sctpStreamId ≠ sid
    · exact .inr hnone
    · left
      simp only [not_forall, not_not] at hnone
      obtain ⟨ms', hmem, hch, hid⟩ := hnone
      cases hfind : s.mediaStreams.find? fun ms => ms.IsChannel port with
      | none => exact absurd hch (by simpa using List.find?_eq_none.mp hfind ms' hmem)
      | some ms =>
        obtain ⟨-, hport, himp⟩ := hfound ms hfind
        obtain ⟨-, pre, post, heq, hpre⟩ := List.find?_eq_some_iff_append.mp hfind
        exact ⟨pre, ms, post, heq, hport, himp ⟨ms', hmem, hch, hid⟩, by simpa using hpre⟩
  · intro h
    refine ⟨?_, fun ms hfind => ?_⟩
    · rintro ⟨ms, hmem, hch⟩ hnone
      exact absurd hch (by simpa using List.find?_eq_none.mp hnone ms hmem)
    · have hch : ms.IsChannel port := by simpa using List.find?_some hfind
      refine ⟨List.mem_of_find?_eq_some hfind, hch, fun ⟨ms', hmem, hch', hid⟩ => ?_⟩
      rcases h with ⟨pre, ms₁, post, heq, hport, hid₁, hpre⟩ | hnone
      · have hfirst : (s.mediaStreams.find? fun ms => ms.IsChannel port) = some ms₁ :=
          List.find?_eq_some_iff_append.mpr
            ⟨by simpa using hport, pre, post, heq, by simpa using hpre⟩
        rw [hfirst] at hfind
        exact Option.some.inj hfind ▸ hid₁
      · exact absurd hid (hnone ms' hmem hch')

/-- A search by number is right exactly if it leads to the port. -/
theorem targets_id_iff : s.Targets port sid (s.firstWithId sid) ↔ s.FindsInOrder port sid := by
  constructor
  · rintro ⟨hsome, hfound⟩
    cases hfind : s.firstWithId sid with
    | none =>
      refine .inr fun ms hmem => ⟨by simpa using List.find?_eq_none.mp hfind ms hmem, fun hch => ?_⟩
      exact hsome ⟨ms, hmem, hch⟩ hfind
    | some ms =>
      obtain ⟨-, hport, -⟩ := hfound ms hfind
      obtain ⟨hid, pre, post, heq, hpre⟩ := List.find?_eq_some_iff_append.mp hfind
      exact .inl ⟨pre, ms, post, heq, by simpa using hid, hport.2, by simpa using hpre⟩
  · rintro (⟨pre, ms, post, heq, hid, hport, hpre⟩ | hnone)
    · have hfirst : s.firstWithId sid = some ms :=
        List.find?_eq_some_iff_append.mpr ⟨by simpa using hid, pre, post, heq, by simpa using hpre⟩
      rw [hfirst]
      refine ⟨fun _ h => (by cases h), fun ms' h => ?_⟩
      obtain rfl := Option.some.inj h
      exact ⟨heq ▸ by simp, ⟨hid.1, hport⟩, fun _ => hid.2⟩
    · have hfirst : s.firstWithId sid = none :=
        List.find?_eq_none.mpr fun ms hmem => by simpa using (hnone ms hmem).1
      rw [hfirst]
      exact ⟨fun ⟨ms, hmem, hch⟩ _ => (hnone ms hmem).2 hch, fun ms h => by cases h⟩

/-! ### Reports -/

/-- The stream of a report can be told from it. -/
theorem report_injective {e : SctpEvent} (he : e.streamId = some sid)
    {found found' : Option MediaStream}
    (h : (found.bind (Report.of · e)).toList = (found'.bind (Report.of · e)).toList) :
    found = found' := by
  have hof (ms ms' : MediaStream) (h : Report.of ms e = Report.of ms' e) : ms = ms' := by
    cases e <;> simp_all [Report.of, SctpEvent.streamId]
  have hsome (ms : MediaStream) : Report.of ms e ≠ none := by
    cases e <;> simp_all [Report.of, SctpEvent.streamId]
  cases found with
  | none =>
    cases found' with
    | none => rfl
    | some ms' => exact absurd (by simpa using h.symm) (hsome ms')
  | some ms =>
    obtain ⟨r, hr⟩ := Option.ne_none_iff_exists'.mp (hsome ms)
    cases found' with
    | none => exact absurd (by simpa using h) (hsome ms)
    | some ms' =>
      obtain ⟨r', hr'⟩ := Option.ne_none_iff_exists'.mp (hsome ms')
      simp only [Option.bind_some, hr, hr', Option.toList_some, List.cons.injEq, and_true] at h
      exact congrArg some (hof ms ms' (hr.trans (h ▸ hr'.symm)))

/-- The search that the handler of an event makes. -/
def search (port : UInt16) (s : RtpSession) : SctpEvent → Option MediaStream
  | .streamOpened _ => s.mediaStreams.find? fun ms => ms.IsChannel port
  | .streamClosed sid | .streamMessage sid _ => s.firstWithId sid
  | _ => none

theorem handleSctp_reports {e : SctpEvent} (he : e.streamId = some sid) (hcb : cb.has e) :
    (s.handleSctp cb port e).2 = ((s.search port e).bind (Report.of · e)).toList := by
  cases e with
  | connected => cases he
  | disconnected => cases he
  | heartbeat => cases he
  | streamOpened sid =>
    have hopened : cb.opened = true := hcb
    simp only [handleSctp, hopened, if_true, handleSctpStreamOpened, openFirst_reports, search]
    cases s.mediaStreams.find? fun ms => ms.IsChannel port <;> rfl
  | streamClosed sid =>
    have hclosed : cb.closed = true := hcb
    simp only [handleSctp, hclosed, if_true, handleSctpStreamClosed, search]
    cases s.firstWithId sid <;> rfl
  | streamMessage sid data =>
    have hmessage : cb.message = true := hcb
    simp only [handleSctp, hmessage, if_true, handleSctpStreamMessage, search]
    cases s.firstWithId sid <;> rfl

theorem targets_search_iff {e : SctpEvent} (he : e.streamId = some sid) :
    s.Targets port sid (s.search port e) ↔ s.EventInOrder port e := by
  cases e with
  | connected => cases he
  | disconnected => cases he
  | heartbeat => cases he
  | streamOpened k => exact Option.some.inj he ▸ targets_port_iff
  | streamClosed k => exact Option.some.inj he ▸ targets_id_iff
  | streamMessage k data => exact Option.some.inj he ▸ targets_id_iff

/-- The reports of a run are those of its handlers. -/
theorem reports_of_handled {events : List (UInt16 × SctpEvent)} {h : Handled}
    (hh : h ∈ s.handled cb events) : h.reports = (h.before.handleSctp cb h.port h.event).2 := by
  induction events generalizing s with
  | nil => cases hh
  | cons e events ih =>
    rcases List.mem_cons.mp hh with rfl | hh
    · rfl
    · exact ih hh

/-- In every run an event for a stream is reported by a stream of its own transport
exactly if the search of its handler leads there. -/
theorem channel_event_routed_iff (cb : Callbacks) (s : RtpSession)
    (events : List (UInt16 × SctpEvent)) (h : Handled) (hh : h ∈ s.handled cb events) :
    h.Routed cb ↔ h.InOrder cb := by
  have hreports := reports_of_handled hh
  obtain ⟨before, port, event, reports⟩ := h
  dsimp only at hreports
  subst hreports
  cases he : event.streamId with
  | none =>
    refine iff_of_true (fun sid hsid => ?_) fun _ => ?_
    · rw [he] at hsid
      cases hsid
    · cases event <;> trivial
  | some sid =>
    constructor
    · intro hrouted hcb
      obtain ⟨found, hfound, htargets⟩ := hrouted sid he hcb
      have hsearch : before.search port event = found :=
        report_injective he ((handleSctp_reports he hcb).symm.trans hfound)
      exact (targets_search_iff he).mp (hsearch ▸ htargets)
    · intro horder k hk hcb
      obtain rfl : sid = k := Option.some.inj (he.symm.trans hk)
      exact ⟨_, handleSctp_reports he hcb, (targets_search_iff he).mpr (horder hcb)⟩

/-- A data channel with number 1. -/
private def channelOn (port : UInt16) (mid : Text) : MediaStream :=
  { MediaStream.create .application .sendrecv port port 0 0 with
    mid, hasSctpStreamId := true, sctpStreamId := 1 }

private def twoChannels : RtpSession where
  isPortMux := false
  cname := []
  iceUfrag := []
  icePwd := []
  mediaStreams := [channelOn 40000 (text "0"), channelOn 40001 (text "1")]

private def firstMessage : Handled where
  before := twoChannels
  port := 40000
  event := .streamMessage 1 [7]
  reports := [.message (channelOn 40000 (text "0")) [7]]

theorem first_message_routed_iff : firstMessage.Routed {} ↔ firstMessage.InOrder {} :=
  channel_event_routed_iff {} twoChannels [(40000, .streamMessage 1 [7])] firstMessage
    (List.mem_singleton.mpr rfl)

/-- A message of the second transport is reported by the channel on the first. -/
theorem message_misrouted :
    ∃ h ∈ twoChannels.handled {} [(40001, .streamMessage 1 [7])],
      h.reports = [.message (channelOn 40000 (text "0")) [7]] ∧ ¬ h.Routed {} := by
  refine ⟨_, List.mem_singleton_self _, rfl, fun h => ?_⟩
  obtain ⟨found, hfound, -, htarget⟩ := h 1 rfl rfl
  have hsearch : some (channelOn 40000 (text "0")) = found :=
    report_injective (e := .streamMessage 1 [7]) rfl hfound
  have hport := (htarget _ hsearch.symm).2.1.2
  revert hport
  decide

end RtpSession

end CxxDeps.Session
