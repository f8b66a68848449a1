import CxxDeps.Voip.Retransmission

/-! What hangs a call up. A response other than 100, 180 and 200 does, whatever its class
and whatever request it belongs to. -/

namespace CxxDeps.Voip

open Library Sys Hypertext Sip

/-! ### Causes -/

def Output.isHangup : Output → Bool
  | .hangup .. => true
  | _ => false

/-- A status of three digits that ends a transaction without success. -/
def failureStatus : Text → Bool
  | [a, b, c] => 0x33 ≤ a && a ≤ 0x36 && isDigit 10 b && isDigit 10 c
  | _ => false

/-- A final failure of an INVITE. -/
def InviteFailed (msg : Message) : Prop :=
  msg.matchMethod (text "SIP/2.0") = true ∧ failureStatus msg.filed2 = true ∧
    belongsTo msg (text "INVITE") = true

/-- The message may end the call: a BYE, or a final failure of an INVITE. -/
def EndsCall (msg : Message) : Prop := msg.matchMethod (text "BYE") = true ∨ InviteFailed msg

/-- An output with the event it comes from is a call hung up for a reason. What is no
message, such as an explicit hang-up, may hang up. -/
def Justified {ρ : Type} (o : Event ρ × Output) : Prop :=
  o.2.isHangup = true → match o.1 with
    | .deliver _ _ msg _ => EndsCall msg
    | .other _ => True

section

variable {ρ : Type} (rtp : Rtp ρ)

/-- A step, with each output beside the event it comes from. -/
def caused (ep : Endpoint ρ) (e : Event ρ) : Option (Endpoint ρ × List (Event ρ × Output)) :=
  (step rtp ep e).map fun q => (q.1, q.2.map fun o => (e, o))

/-- A response to a call is 100, 180 or 200, or a final failure of an INVITE. -/
def Event.Expected (ep : Endpoint ρ) : Event ρ → Prop
  | .deliver _ _ msg _ => msg.matchMethod (text "SIP/2.0") = true →
      ep.calls.contains (callId msg) = true →
        msg.filed2 = text "100" ∨ msg.filed2 = text "180" ∨ msg.filed2 = text "200" ∨
          InviteFailed msg
  | .other _ => True

end

/-! ### Messages that hang up nothing -/

/-- No output hangs up. -/
def Keeps (os : List Output) : Prop := ∀ o ∈ os, o.isHangup = false

section

variable {ρ : Type} {rtp : Rtp ρ} {ep : Endpoint ρ} {msg : Message} {call : SipCall ρ}

theorem Keeps.append {os os' : List Output} (h : Keeps os) (h' : Keeps os') :
    Keeps (os ++ os') := by
  intro o ho
  exact (List.mem_append.mp ho).elim (h o) (h' o)

theorem keeps_nil : Keeps [] := by simp [Keeps]

theorem keeps_singleton {o : Output} (h : o.isHangup = false) : Keeps [o] := by
  simpa [Keeps] using h

theorem keeps_respond (rsp : Con → Response) : Keeps (call.respond rsp) := by
  unfold SipCall.respond
  split
  · exact keeps_nil
  · exact keeps_singleton rfl

theorem keeps_invokeConnected : Keeps call.invokeConnected.2 := by
  unfold SipCall.invokeConnected
  split
  · exact keeps_nil
  · exact keeps_singleton rfl

theorem keeps_ack (branch : Text) : Keeps (call.ack msg branch).2 := by
  unfold SipCall.ack
  split
  · exact keeps_nil
  · exact keeps_invokeConnected.append (keeps_singleton rfl)

theorem keeps_start {con : Con} {audio video : Bool} {tag : Text} {q : SipCall ρ × List Output}
    (h : call.start rtp con audio video tag = some q) : Keeps q.2 := by
  obtain ⟨channels, -, rfl⟩ := Option.map_eq_some_iff.mp h
  intro o ho
  simp only [List.mem_cons, List.not_mem_nil, or_false] at ho
  rcases ho with rfl | rfl | rfl <;> rfl

theorem keeps_onInvite (con : Con) (tag : Text) : Keeps (ep.onInvite rtp con msg tag).2 := by
  unfold Endpoint.onInvite
  split_ifs
  · exact keeps_singleton rfl
  · dsimp only
    split
    · split_ifs
      · exact keeps_nil
      · exact keeps_singleton rfl
    · next call os h => exact keeps_start h

theorem keeps_withCall {handler : SipCall ρ → SipCall ρ × List Output}
    (h : ∀ call, Keeps (handler call).2) : Keeps (ep.withCall msg handler).2 := by
  unfold Endpoint.withCall
  split
  · exact keeps_nil
  · exact h _

theorem keeps_onResponse (h : msg.filed2 = text "200") (branch : Text) :
    Keeps (call.onResponse rtp msg branch).2 := by
  unfold SipCall.onResponse
  rw [if_neg (not_not_intro h)]
  split_ifs
  · refine Keeps.append ?_ (keeps_ack branch)
    intro o ho
    obtain ⟨m, -, rfl⟩ := List.mem_map.mp ho
    rfl
  · exact keeps_nil
  · exact keeps_nil

/-- A message that is neither a BYE nor a response hangs up nothing. -/
theorem keeps_handleMessage (hbye : ¬ msg.matchMethod (text "BYE") = true)
    (hrsp : ¬ msg.matchMethod (text "SIP/2.0") = true) (con : Con) (random : Text) :
    Keeps (ep.handleMessage rtp con msg random).2 := by
  unfold Endpoint.handleMessage
  rw [if_neg hbye, if_neg hrsp]
  split_ifs
  · exact keeps_onInvite con random
  · exact keeps_singleton rfl
  · exact keeps_withCall fun call => keeps_invokeConnected
  · exact keeps_withCall fun call => keeps_respond _
  · exact keeps_withCall fun call => keeps_respond _
  · exact keeps_nil

/-- A response to a call hangs it up exactly if it is not 100, 180 or 200. -/
theorem keeps_handleResponse_iff (hrsp : msg.matchMethod (text "SIP/2.0") = true) (con : Con)
    (random : Text) :
    Keeps (ep.handleMessage rtp con msg random).2 ↔
      (ep.calls.contains (callId msg) = true →
        msg.filed2 = text "100" ∨ msg.filed2 = text "180" ∨ msg.filed2 = text "200") := by
  rw [handleMessage_response hrsp, Std.ExtTreeMap.contains_eq_isSome_getElem?,
    Endpoint.onResponse, Endpoint.withCall]
  cases ep.calls[callId msg]? with
  | none => simp [keeps_nil]
  | some call =>
    simp only [Option.isSome_some, true_implies]
    by_cases h100 : msg.filed2 = text "100"
    · simp [h100, keeps_nil]
    rw [if_neg h100]
    by_cases h180 : msg.filed2 = text "180"
    · simp only [h180, if_true, true_or, or_true, iff_true]
      exact keeps_singleton rfl
    rw [if_neg h180]
    by_cases h200 : msg.filed2 = text "200"
    · have h603 : ¬ msg.filed2 = text "603" := by rw [h200]; decide
      rw [if_neg h603]
      simp only [h200, or_true, iff_true]
      exact keeps_onResponse h200 random
    simp only [h100, h180, h200, or_self, iff_false]
    intro hkeeps
    by_cases h603 : msg.filed2 = text "603"
    · rw [if_pos h603] at hkeeps
      have hbusy := hkeeps (.hangup _ .busy) (List.mem_append_right _ (List.mem_singleton.mpr rfl))
      cases hbusy
    · rw [if_neg h603, SipCall.onResponse, if_pos h200] at hkeeps
      cases hkeeps _ (List.mem_singleton.mpr rfl)

/-- One event: every hang-up is justified exactly if it is an expected response, or no
response. -/
theorem caused_justified_iff {ep' : Endpoint ρ} {e : Event ρ} {o : List (Event ρ × Output)}
    (h : caused rtp ep e = some (ep', o)) : e.Expected ep ↔ ∀ q ∈ o, Justified q := by
  obtain ⟨⟨ep₁, os⟩, hstep, heq⟩ := Option.map_eq_some_iff.mp h
  obtain ⟨rfl, rfl⟩ := Prod.mk.inj heq
  rw [List.forall_mem_map]
  cases e with
  | other f => simp [Event.Expected, Justified]
  | deliver again con msg random =>
    have hos : os = (ep.handleMessage rtp con msg random).2 :=
      congrArg Prod.snd (Option.some.inj hstep).symm
    subst hos
    by_cases hends : EndsCall msg
    · refine iff_of_true (fun hrsp _ => ?_) fun o _ _ => hends
      rcases hends with hbye | hfailed
      · rw [matchMethod_eq hbye] at hrsp
        exact absurd hrsp (by decide)
      · exact .inr (.inr (.inr hfailed))
    have hjustified : (∀ o ∈ (ep.handleMessage rtp con msg random).2,
        Justified (Event.deliver (ρ := ρ) again con msg random, o)) ↔
          Keeps (ep.handleMessage rtp con msg random).2 := by
      refine forall₂_congr fun o _ => ?_
      simp only [Justified, hends, imp_false, Bool.not_eq_true]
    rw [hjustified]
    by_cases hrsp : msg.matchMethod (text "SIP/2.0") = true
    · rw [keeps_handleResponse_iff hrsp]
      have hno : ¬ InviteFailed msg := fun h => hends (.inr h)
      simp only [Event.Expected, hrsp, hno, or_false, true_implies]
    · have hbye : ¬ msg.matchMethod (text "BYE") = true := fun h => hends (.inl h)
      exact iff_of_true (fun h => absurd h hrsp) (keeps_handleMessage hbye hrsp con random)

end

/-- In a run every call that is hung up is hung up for a reason exactly if every response
to a call is 100, 180, 200 or a final failure of an INVITE. -/
theorem hangups_justified_iff {ρ : Type} (rtp : Rtp ρ) (ep : Endpoint ρ)
    (events : List (Event ρ)) :
    ∃ t os, run (caused rtp) ep events = some (t, os) ∧
      (RunOk (caused rtp) Event.Expected ep events ↔ ∀ q ∈ os, Justified q) := by
  have htotal : ∃ r, run (caused rtp) ep events = some r := by
    induction events generalizing ep with
    | nil => exact ⟨_, rfl⟩
    | cons e events ih =>
      obtain ⟨⟨ep', o⟩, hstep⟩ : ∃ r, caused rtp ep e = some r := by
        cases e <;> exact ⟨_, rfl⟩
      obtain ⟨⟨t, os⟩, hrun⟩ := ih ep'
      exact ⟨_, run_cons_eq_some.mpr ⟨ep', o, os, hstep, hrun, rfl⟩⟩
  obtain ⟨⟨t, os⟩, hrun⟩ := htotal
  refine ⟨t, os, hrun, ?_⟩
  refine runOk_iff_outputs (fun _ _ => True) (fun out => ∀ q ∈ out, Justified q)
    (fun _ _ h q hq => h q (List.mem_append_left _ hq)) (fun _ _ _ _ _ _ _ => trivial) ?_ []
    trivial (by simp) hrun
  intro s out e s' o _ hout hstep
  rw [caused_justified_iff hstep, List.forall_mem_append]
  exact (and_iff_right hout).symm

/-- A session progress and a failed OPTIONS hang up a call. -/
theorem progress_hangs_up :
    let rtp : Rtp Unit := ⟨(), fun _ => (true, []), fun _ _ => some, fun r _ => r, id⟩
    let call : SipCall Unit := {
      callId := text "c", outgoing := true, con := none, localAlias := [], natAddress := []
      localPort := 5060, rtp := () }
    let ep : Endpoint Unit := { calls := Std.ExtTreeMap.ofList [(text "c", call)] }
    let con : Con := ⟨text "udp$h:5060", false, 5060⟩
    let rsp (status cseq : String) : Message := {
      filed1 := text "SIP/2.0"
      filed2 := text status
      headers := [⟨text "Call-ID", text "c"⟩, ⟨text "CSeq", text cseq⟩] }
    ((ep.handleMessage rtp con (rsp "183" "1 INVITE") []).2 = [.hangup (text "c") .error]) ∧
      ((ep.handleMessage rtp con (rsp "481" "2 OPTIONS") []).2 = [.hangup (text "c") .error]) ∧
      ¬ EndsCall (rsp "183" "1 INVITE") ∧ ¬ EndsCall (rsp "481" "2 OPTIONS") := by
  unfold EndsCall InviteFailed
  refine ⟨?_, ?_, ?_, ?_⟩ <;> decide +kernel

end CxxDeps.Voip
