import CxxDeps.Library.Idle
import CxxDeps.Voip.SipCall

/-! Messages of a call that are delivered again. An acknowledgement, a ringing response
and the response to an INVITE without media are recognised where they change nothing; an
INVITE is refused, media are opened again and a call is hung up again. -/

namespace CxxDeps.Voip

open Library Sys Hypertext Sip

/-! ### Runs -/

/-- What happens at an endpoint: a message is delivered, for the first time or again,
with the random text that its handler makes, or anything else is done to the calls. -/
inductive Event (ρ : Type)
  | deliver (again : Bool) (con : Con) (msg : Message) (random : Text)
  | other (f : Endpoint ρ → Endpoint ρ × List Output)

def Event.again {ρ : Type} : Event ρ → Bool
  | .deliver again _ _ _ => again
  | .other _ => false

/-- The callbacks that tell of an incoming call, of its connection, its media and its end, and the
responses that end a transaction. -/
def Output.watched : Output → Bool
  | .respond _ rsp => rsp.status.head? ≠ some 0x31
  | .incomingCall .. => true
  | .connected .. => true
  | .openMedia .. => true
  | .hangup .. => true
  | .request .. => false
  | .stopConnection _ => false
  | .remoteRinging _ => false

section

variable {ρ : Type} (rtp : Rtp ρ)

def step (ep : Endpoint ρ) : Event ρ → Option (Endpoint ρ × List Output)
  | .deliver _ con msg random => some (ep.handleMessage rtp con msg random)
  | .other f => some (f ep)

/-- The messages that may come again: an INVITE, a ringing response, a response of 200 to
an INVITE, an acknowledgement and a BYE. -/
def Repeatable (msg : Message) : Prop :=
  msg.matchMethod (text "INVITE") = true ∨ msg.matchMethod (text "ACK") = true ∨
    msg.matchMethod (text "BYE") = true ∨
    msg.matchMethod (text "SIP/2.0") = true ∧ (msg.filed2 = text "180" ∨
      msg.filed2 = text "200" ∧ belongsTo msg (text "INVITE") = true)

/-- Every message that comes again is one that was delivered before. -/
def Retransmits (events : List (Event ρ)) : Prop :=
  ∀ before con msg random after, events = before ++ .deliver true con msg random :: after →
    Repeatable msg ∧ ∃ random', .deliver false con msg random' ∈ before

/-- The run shows the same as the one in which nothing comes again. -/
def Harmless (ep : Endpoint ρ) (events : List (Event ρ)) : Prop :=
  (run (step rtp) ep events).map (seen Output.watched) =
    (run (step rtp) ep (events.filter fun e => !e.again)).map (seen Output.watched)

/-! ### What is recognised -/

/-- The messages that change nothing in a call: an acknowledgement once there was one, a
ringing response that gives the other side the name it has, and a response to an INVITE
without media whose name, tags and description are in the call, which is acknowledged. -/
def SipCall.Recognises (call : SipCall ρ) (msg : Message) : Prop :=
  msg.matchMethod (text "ACK") = true ∧ call.gotAck = true ∧ call.triggeredConnected = true ∨
  msg.matchMethod (text "SIP/2.0") = true ∧ call.contactAlias msg = call.remoteAlias ∧
    (msg.filed2 = text "180" ∨
      msg.filed2 = text "200" ∧ belongsTo msg (text "INVITE") = true ∧
      (rtp.parse msg.body).2 = [] ∧
      (getTag (from' msg)).getD call.myTag = call.myTag ∧
      (getTag (toAddress msg)).getD call.otherTag = call.otherTag ∧
      rtp.start (if (rtp.parse msg.body).1 then rtp.setRemoteSdp call.rtp msg.body
        else call.rtp) = call.rtp ∧
      (call.con = none ∨ call.gotAck = true ∧ call.triggeredConnected = true))

/-- A message of a call that is over is recognised unless it starts another one. -/
def Endpoint.Recognises (ep : Endpoint ρ) (msg : Message) : Prop :=
  match ep.calls[callId msg]? with
  | some call => call.Recognises rtp msg
  | none => msg.matchMethod (text "INVITE") = true →
      rtp.createChannels ep.incomingAudio ep.incomingVideo rtp.fresh = none

/-- The condition on an event. -/
def Event.Recognised (ep : Endpoint ρ) : Event ρ → Prop
  | .deliver true _ msg _ => Repeatable msg ∧ ep.Recognises rtp msg
  | _ => True

end

/-! ### One message -/

theorem matchMethod_eq {msg : Message} {a : Text} (h : msg.matchMethod a = true) (b : Text) :
    msg.matchMethod b = (a.map toLower == b.map toLower) := by
  have ha : msg.filed1.map toLower = a.map toLower := by
    simpa [Message.matchMethod, icasecompare] using h
  rw [Message.matchMethod, icasecompare, ha]

section

variable {ρ : Type} {rtp : Rtp ρ} {ep : Endpoint ρ} {msg : Message} {call : SipCall ρ}

theorem withCall_none (h : ep.calls[callId msg]? = none)
    (handler : SipCall ρ → SipCall ρ × List Output) : ep.withCall msg handler = (ep, []) := by
  rw [Endpoint.withCall, h]

/-- A handler that leaves the call alone leaves the endpoint alone. -/
theorem withCall_self (h : ep.calls[callId msg]? = some call)
    {handler : SipCall ρ → SipCall ρ × List Output} {os : List Output}
    (hc : handler call = (call, os)) : ep.withCall msg handler = (ep, os) := by
  have hself : ep.calls.insert (callId msg) call = ep.calls := by
    apply Std.ExtTreeMap.ext_getElem?
    intro k
    rw [Std.ExtTreeMap.getElem?_insert]
    split_ifs with hk
    · rw [← Std.LawfulEqCmp.compare_eq_iff_eq.mp hk, h]
    · rfl
  rw [Endpoint.withCall, h]
  simp only [hc, hself]

theorem handleMessage_invite (h : msg.matchMethod (text "INVITE") = true) (con : Con)
    (random : Text) : ep.handleMessage rtp con msg random = ep.onInvite rtp con msg random := by
  rw [Endpoint.handleMessage, if_pos h]

theorem handleMessage_ack (h : msg.matchMethod (text "ACK") = true) (con : Con)
    (random : Text) :
    ep.handleMessage rtp con msg random = ep.withCall msg SipCall.onAck := by
  have hother (b : Text) (hb : ((text "ACK").map toLower == b.map toLower) = false) :
      ¬ msg.matchMethod b = true := by
    rw [matchMethod_eq h, hb]
    exact Bool.false_ne_true
  rw [Endpoint.handleMessage, if_neg (hother _ (by decide)), if_neg (hother _ (by decide)),
    if_pos h]

theorem handleMessage_bye (h : msg.matchMethod (text "BYE") = true) (con : Con)
    (random : Text) :
    ep.handleMessage rtp con msg random = ep.withCall msg fun call => call.onBye msg := by
  have hother (b : Text) (hb : ((text "BYE").map toLower == b.map toLower) = false) :
      ¬ msg.matchMethod b = true := by
    rw [matchMethod_eq h, hb]
    exact Bool.false_ne_true
  rw [Endpoint.handleMessage, if_neg (hother _ (by decide)), if_neg (hother _ (by decide)),
    if_neg (hother _ (by decide)), if_neg (hother _ (by decide)), if_pos h]

theorem handleMessage_response (h : msg.matchMethod (text "SIP/2.0") = true) (con : Con)
    (random : Text) :
    ep.handleMessage rtp con msg random = ep.onResponse rtp msg random := by
  have hother (b : Text) (hb : ((text "SIP/2.0").map toLower == b.map toLower) = false) :
      ¬ msg.matchMethod b = true := by
    rw [matchMethod_eq h, hb]
    exact Bool.false_ne_true
  rw [Endpoint.handleMessage, if_neg (hother _ (by decide)), if_neg (hother _ (by decide)),
    if_neg (hother _ (by decide)), if_neg (hother _ (by decide)), if_neg (hother _ (by decide)),
    if_neg (hother _ (by decide)), if_pos h]

/-- A message of no call does nothing, unless it starts one. -/
theorem handleMessage_unknown (h : ep.calls[callId msg]? = none) (hr : Repeatable msg)
    (hi : msg.matchMethod (text "INVITE") = true →
      rtp.createChannels ep.incomingAudio ep.incomingVideo rtp.fresh = none) (con : Con)
    (random : Text) :
    ∃ os, ep.handleMessage rtp con msg random = (ep, os) ∧ os.filter Output.watched = [] := by
  rcases hr with hm | hm | hm | ⟨hm, -⟩
  · have hcontains : ¬ ep.calls.contains (callId msg) = true := by
      rw [Std.ExtTreeMap.contains_eq_isSome_getElem?, h]
      exact Bool.false_ne_true
    have hstart : (ep.incoming rtp con msg).start rtp con ep.incomingAudio ep.incomingVideo
        random = none := by
      show (rtp.createChannels _ _ rtp.fresh).map _ = none
      rw [hi hm, Option.map_none]
    rw [handleMessage_invite hm, Endpoint.onInvite, if_neg hcontains]
    simp only [hstart]
    refine ⟨_, rfl, ?_⟩
    split_ifs <;> rfl
  · exact ⟨[], by rw [handleMessage_ack hm, withCall_none h], rfl⟩
  · exact ⟨[], by rw [handleMessage_bye hm, withCall_none h], rfl⟩
  · exact ⟨[], by rw [handleMessage_response hm, Endpoint.onResponse, withCall_none h], rfl⟩

theorem invokeConnected_self (h : call.triggeredConnected = true) :
    call.invokeConnected = (call, []) := if_pos h

theorem onAck_self (ha : call.gotAck = true) (ht : call.triggeredConnected = true) :
    call.onAck = (call, []) := by
  have hcall : { call with gotAck := true } = call := by
    rw [← ha]
  rw [SipCall.onAck, hcall, invokeConnected_self ht]

/-- An acknowledgement is sent, and nothing that is watched. -/
theorem ack_self (h : call.con = none ∨ call.gotAck = true ∧ call.triggeredConnected = true)
    (msg : Message) (branch : Text) :
    ∃ os, call.ack msg branch = (call, os) ∧ os.filter Output.watched = [] := by
  unfold SipCall.ack
  cases hcon : call.con with
  | none => exact ⟨[], rfl, rfl⟩
  | some con =>
    obtain ⟨ha, ht⟩ := h.resolve_left (by simp [hcon])
    have hcall : { call with con := some con, gotAck := true } = call := by
      rw [← ha, ← hcon]
    simp only [hcall, invokeConnected_self ht]
    exact ⟨_, rfl, rfl⟩

/-- The response to an INVITE that is in the call already. -/
theorem onResponse_self (halias : call.contactAlias msg = call.remoteAlias)
    (hstatus : msg.filed2 = text "200")
    (hinvite : belongsTo msg (text "INVITE") = true)
    (hmedias : (rtp.parse msg.body).2 = [])
    (htag : (getTag (from' msg)).getD call.myTag = call.myTag)
    (htag' : (getTag (toAddress msg)).getD call.otherTag = call.otherTag)
    (hrtp : rtp.start (if (rtp.parse msg.body).1 then rtp.setRemoteSdp call.rtp msg.body
      else call.rtp) = call.rtp)
    (hack : call.con = none ∨ call.gotAck = true ∧ call.triggeredConnected = true)
    (branch : Text) :
    ∃ os, call.onResponse rtp msg branch = (call, os) ∧ os.filter Output.watched = [] := by
  obtain ⟨taken, htaken⟩ : ∃ taken, call.takeAnswer rtp msg = taken := ⟨_, rfl⟩
  have hkept : { taken with rtp := call.rtp } = call := by
    rw [← htaken, SipCall.takeAnswer, halias, htag, htag']
  have hstarted : rtp.start taken.rtp = call.rtp := by
    rw [← htaken]
    exact hrtp
  have hack' : taken.con = none ∨ taken.gotAck = true ∧ taken.triggeredConnected = true := by
    rw [← htaken]
    exact hack
  obtain ⟨os, hsent, hos⟩ := ack_self hack' msg branch
  refine ⟨os, ?_, hos⟩
  rw [SipCall.onResponse, if_neg (by simp [hstatus]), if_pos hinvite, hmedias, htaken]
  simp only [hsent, List.map_nil, List.nil_append, hstarted, hkept]

theorem recognises_self (hc : call.Recognises rtp msg)
    (h : ep.calls[callId msg]? = some call) (con : Con) (random : Text) :
    ∃ os, ep.handleMessage rtp con msg random = (ep, os) ∧ os.filter Output.watched = [] := by
  rcases hc with ⟨hm, ha, ht⟩ | ⟨hm, halias, hstatus⟩
  · exact ⟨[], by rw [handleMessage_ack hm, withCall_self h (onAck_self ha ht)], rfl⟩
  · rw [handleMessage_response hm]
    rcases hstatus with hstatus | ⟨hstatus, hinvite, hmedias, htag, htag', hrtp, hack⟩
    · have hringing : call.onRinging msg = (call, [.remoteRinging call.callId]) := by
        rw [SipCall.onRinging, halias]
      refine ⟨[.remoteRinging call.callId], withCall_self h ?_, rfl⟩
      rw [if_neg (by rw [hstatus]; decide), if_pos hstatus]
      exact hringing
    · obtain ⟨os, hresponse, hos⟩ := onResponse_self halias hstatus hinvite hmedias htag htag' hrtp
        hack random
      refine ⟨os, withCall_self h ?_, hos⟩
      rw [if_neg (by rw [hstatus]; decide), if_neg (by rw [hstatus]; decide),
        if_neg (by rw [hstatus]; decide)]
      exact hresponse

theorem idle_of_recognised {e : Event ρ} (ha : e.again = true) (h : e.Recognised rtp ep) :
    ∃ os, step rtp ep e = some (ep, os) ∧ os.filter Output.watched = [] := by
  cases e with
  | other f => cases ha
  | deliver again con msg random =>
    cases again with
    | false => cases ha
    | true =>
      obtain ⟨hr, hrec⟩ := h
      have hidle : ∃ os, ep.handleMessage rtp con msg random = (ep, os) ∧
          os.filter Output.watched = [] := by
        unfold Endpoint.Recognises at hrec
        cases hcall : ep.calls[callId msg]? with
        | none =>
          rw [hcall] at hrec
          exact handleMessage_unknown hcall hr hrec con random
        | some call =>
          rw [hcall] at hrec
          exact recognises_self hrec hcall con random
      obtain ⟨os, hstep, hos⟩ := hidle
      exact ⟨os, congrArg some hstep, hos⟩

end

/-- A run in which every message that comes again is recognised shows the same as the
run without them. -/
theorem retransmissions_harmless {ρ : Type} (rtp : Rtp ρ) (ep : Endpoint ρ)
    (events : List (Event ρ)) (h : RunOk (step rtp) (fun ep e => e.Recognised rtp ep) ep events) :
    Harmless rtp ep events :=
  h.leave_out Event.again Output.watched fun _ _ ha hrec => idle_of_recognised ha hrec

/-- A session that takes everything. -/
private def anyRtp : Rtp Unit := ⟨(), fun _ => (true, []), fun _ _ => some, fun r _ => r, id⟩

private def ofCall (method : String) : Message where
  filed1 := text method
  filed2 := text "sip:a@h"
  filed3 := text "SIP/2.0"
  headers := [⟨text "Call-ID", text "1"⟩, ⟨text "From", text "<sip:b@h>;tag=7"⟩]

private def peer : Con := ⟨text "udp$h:5060", false, 5060⟩

private def arrives (again : Bool) (method : String) : Event Unit :=
  .deliver again peer (ofCall method) (text "t")

theorem retransmissions_harmless_ack :
    Harmless anyRtp {} [arrives false "INVITE", arrives false "ACK", arrives true "ACK"] := by
  apply retransmissions_harmless
  refine ⟨trivial, fun r₁ h₁ => ⟨trivial, fun r₂ h₂ => ⟨⟨.inr (.inl (by decide)), ?_⟩, ?_⟩⟩⟩
  · obtain rfl := Option.some.inj h₁
    obtain rfl := Option.some.inj h₂
    have hacked : ∃ call, ((({} : Endpoint Unit).handleMessage anyRtp peer (ofCall "INVITE")
        (text "t")).1.handleMessage anyRtp peer (ofCall "ACK")
          (text "t")).1.calls[callId (ofCall "ACK")]? = some call ∧
        (call.gotAck && call.triggeredConnected) = true :=
      (Option.any_eq_true _ _).mp (by decide +kernel)
    obtain ⟨call, hcall, hack⟩ := hacked
    rw [Bool.and_eq_true] at hack
    unfold Endpoint.Recognises
    rw [hcall]
    exact .inl ⟨by decide, hack⟩
  · intro r _
    trivial

/-- An INVITE that comes twice is answered with 488. -/
theorem invite_twice_refused :
    ¬ ∀ (ρ : Type) (rtp : Rtp ρ) (ep : Endpoint ρ) (events : List (Event ρ)),
      Retransmits events → Harmless rtp ep events := by
  intro h
  have hretransmits : Retransmits [arrives false "INVITE", arrives true "INVITE"] := by
    intro before con msg random after he
    match before, he with
    | [], he => simp [arrives] at he
    | [e], he =>
      simp only [arrives, List.cons_append, List.nil_append, List.cons.injEq,
        Event.deliver.injEq] at he
      obtain ⟨rfl, ⟨-, rfl, rfl, -⟩, -⟩ := he
      exact ⟨.inl (by decide), text "t", List.mem_singleton.mpr rfl⟩
    | _ :: _ :: _, he => simp at he
  have hharmless := congrArg (Option.map fun r => r.2.length)
    (h Unit anyRtp {} _ hretransmits)
  have htwice : ((run (step anyRtp) {} [arrives false "INVITE", arrives true "INVITE"]).map
      (seen Output.watched)).map (fun r => r.2.length) = some 2 := by
    decide +kernel
  have honce : ((run (step anyRtp) {} ([arrives false "INVITE", arrives true "INVITE"].filter
      fun e => !e.again)).map (seen Output.watched)).map (fun r => r.2.length) = some 1 := by
    decide +kernel
  exact absurd (htwice.symm.trans (hharmless.trans honce)) (by decide)

end CxxDeps.Voip
