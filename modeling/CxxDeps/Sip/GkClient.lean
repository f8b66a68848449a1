import CxxDeps.Library.Run
import CxxDeps.Sip.Challenge

/-! `gk_client`: a client that registers, and answers the challenges it gets with its next
request. A challenge to a client that is registered is answered with nothing: the end of
the registration throws away the credentials that were just made. -/

namespace CxxDeps.Sip

open Sys Library

/-- The fields that decide what a request carries. The connection is only whether there
is one. -/
structure GkClient where
  username : Text
  password : Text
  url : Text := []
  active : Bool := false
  con : Bool := false
  interval : ℤ := 10000
  timeToLive : ℤ := 60
  updatedAt : ℤ := 0
  isRegistered : Bool := false
  cred : Credentials := {}
  hasCred : Bool := false
  deriving DecidableEq, Repr

/-- A request `REGISTER` with its `Authorization` and `Expires`. -/
structure Register where
  credentials : Option Credentials
  expires : ℤ
  deriving DecidableEq, Repr

/-- What the network says when the timer fires: the connection has timed out, a new one
can be made, and the connection has a local address. -/
structure Network where
  timedOut : Bool
  created : Bool
  localAddress : Bool
  deriving DecidableEq, Repr

namespace GkClient

def setStatus (c : GkClient) (status : Bool) : GkClient :=
  if c.isRegistered ≠ status then
    if status then { c with isRegistered := status, interval := c.timeToLive * 1000 }
    else { c with isRegistered := status, interval := 10000, hasCred := false }
  else c

def setCredentials (c : GkClient) (cred : Credentials) : GkClient :=
  { c with cred, hasCred := true }

def getCredentials (c : GkClient) : Option Credentials := if c.hasCred then some c.cred else none

/-- `start`, behind its test of `active_`; the timer is set to fire at once. -/
def start (c : GkClient) (url : Text) (interval : ℤ) : GkClient :=
  if c.active then c else { c with active := true, timeToLive := interval, url }

/-- `stop` with `send_unregister`. -/
def stop (c : GkClient) (localAddress : Bool) : GkClient × List Register :=
  ({ c with active := false, con := false },
    if c.con && localAddress then [⟨c.getCredentials, 0⟩] else [])

/-- The test for an answer that is overdue. -/
def expire (c : GkClient) (now : ℤ) : GkClient :=
  if now - c.updatedAt ≥ c.timeToLive + 10 then c.setStatus false else c

/-- `handle_timer` with `send_register`. -/
def handleTimer (c : GkClient) (now : ℤ) (net : Network) : GkClient × List Register :=
  if !c.active then (c, [])
  else
    let c := c.expire now
    let usable := (c.con && !net.timedOut) || net.created
    ({ c with con := c.con || net.created },
      if usable && net.localAddress then [⟨c.getCredentials, c.timeToLive⟩] else [])

section

variable (hash : Algorithm → Text → Text)

/-- The credentials for a challenge. -/
def answer (c : GkClient) (chal : ReceivedChallenge) : Credentials :=
  let cred : Credentials := {
    algorithm := chal.algorithm
    nonce := chal.nonce
    realm := chal.realm
    username := c.username
    uri := c.url }
  { cred with
    response := (cred.digest hash (text "REGISTER") c.password none [] []).2 }

/-- `on_register_rsp`; `none` where the challenge is read with undefined behaviour. -/
def onRegisterRsp (c : GkClient) (status auth : Text) (now : ℤ) : Option GkClient :=
  if status = text "401" then
    match ReceivedChallenge.parse auth with
    | .ok chal => some ((c.setCredentials (c.answer hash chal)).setStatus false)
    | .error .malformed => some (c.setStatus false)
    | .error .undefined => none
  else if status = text "200" then some (setStatus { c with updatedAt := now } true)
  else some (c.setStatus false)

/-- What happens to a client. -/
inductive Event
  | start (url : Text) (interval : ℤ)
  | stop (localAddress : Bool)
  | timer (now : ℤ) (net : Network)
  | response (status auth : Text) (now : ℤ)

def step (c : GkClient) : Event → Option (GkClient × List Register)
  | .start url interval => some (c.start url interval, [])
  | .stop localAddress => some (c.stop localAddress)
  | .timer now net => some (c.handleTimer now net)
  | .response status auth now => (c.onRegisterRsp hash status auth now).map (·, [])

/-! ### Challenges and their answers -/

/-- The text of a challenge that `parse` accepts. -/
def Event.challenge : Event → Option Text
  | .response status auth _ =>
    if status = text "401" ∧ (ReceivedChallenge.parse auth).isOk then some auth else none
  | _ => none

/-- The realm and the nonce of a challenge, which follow the scheme. -/
def challengeRealm (auth : Text) : Text := listField (text "realm") (auth.drop 7)

def challengeNonce (auth : Text) : Text := listField (text "nonce") (auth.drop 7)

/-- The credentials are for this challenge, and their response is the digest of the
password. -/
structure CredFor (password auth : Text) (cred : Credentials) : Prop where
  realm : cred.realm = challengeRealm auth
  nonce : cred.nonce = challengeNonce auth
  response : cred.Answers hash (text "REGISTER") password

/-- A request answers a challenge. -/
def Answers (password auth : Text) (r : Register) : Prop :=
  ∃ cred, r.credentials = some cred ∧ CredFor hash password auth cred

/-- The first seven characters give the same realm and nonce as the rest of the text. -/
def ReadsRight (auth : Text) : Prop :=
  listField (text "realm") (auth.take 7) = challengeRealm auth ∧
    listField (text "nonce") (auth.take 7) = challengeNonce auth

theorem answer_answers (c : GkClient) {auth : Text} {chal : ReceivedChallenge}
    (h : ReceivedChallenge.parse auth = .ok chal) :
    (c.answer hash chal).Answers hash (text "REGISTER") c.password := by
  have halgorithm := (ReceivedChallenge.parse_eq_ok h).2.2
  refine ⟨.md5, ?_, ?_⟩
  · rw [answer, halgorithm]
    rfl
  · simp only [answer, Credentials.digest, halgorithm, Algorithm.ofName]
    rfl

theorem credFor_answer_iff (c : GkClient) {auth : Text} {chal : ReceivedChallenge}
    (h : ReceivedChallenge.parse auth = .ok chal) :
    CredFor hash c.password auth (c.answer hash chal) ↔ ReadsRight auth := by
  obtain ⟨hr, hn, -⟩ := ReceivedChallenge.parse_eq_ok h
  constructor
  · intro hc
    exact ⟨hr.symm.trans hc.realm, hn.symm.trans hc.nonce⟩
  · intro hc
    exact ⟨hr.trans hc.1, hn.trans hc.2, answer_answers hash c h⟩

end

/-! ### What the operations do to the credentials -/

@[simp] theorem setStatus_password (c : GkClient) (b : Bool) :
    (c.setStatus b).password = c.password := by
  unfold setStatus; split_ifs <;> rfl

@[simp] theorem setStatus_cred (c : GkClient) (b : Bool) : (c.setStatus b).cred = c.cred := by
  unfold setStatus; split_ifs <;> rfl

@[simp] theorem setStatus_active (c : GkClient) (b : Bool) : (c.setStatus b).active = c.active := by
  unfold setStatus; split_ifs <;> rfl

@[simp] theorem setStatus_isRegistered (c : GkClient) (b : Bool) :
    (c.setStatus b).isRegistered = b := by
  unfold setStatus; split_ifs <;> simp_all

/-- Credentials are lost when a registration ends, and only then. -/
theorem setStatus_hasCred (c : GkClient) (b : Bool) :
    (c.setStatus b).hasCred = (c.hasCred && (b || !c.isRegistered)) := by
  unfold setStatus
  cases c.isRegistered <;> cases b <;> simp

theorem getCredentials_setStatus_false (c : GkClient) :
    (c.setStatus false).getCredentials = if c.isRegistered then none else c.getCredentials := by
  unfold getCredentials
  rw [setStatus_hasCred, setStatus_cred]
  cases c.isRegistered <;> simp

@[simp] theorem expire_password (c : GkClient) (now : ℤ) :
    (c.expire now).password = c.password := by
  unfold expire; split_ifs <;> simp

@[simp] theorem expire_active (c : GkClient) (now : ℤ) : (c.expire now).active = c.active := by
  unfold expire; split_ifs <;> simp

section

variable {hash : Algorithm → Text → Text} {c c' : GkClient} {regs : List Register} {e : Event}

/-- The event ends the registration of the client. -/
def Event.endsRegistration (c : GkClient) : Event → Bool
  | .response status _ _ => c.isRegistered && !(status == text "200")
  | .timer now _ => c.active && c.isRegistered && decide (now - c.updatedAt ≥ c.timeToLive + 10)
  | _ => false

theorem getCredentials_expire {now : ℤ}
    (h : (c.isRegistered && decide (now - c.updatedAt ≥ c.timeToLive + 10)) = false) :
    (c.expire now).getCredentials = c.getCredentials := by
  unfold expire
  split_ifs with hlate
  · have hr : c.isRegistered = false := by simpa [hlate] using h
    rw [getCredentials_setStatus_false, hr]
    rfl
  · rfl

/-- An event that is no challenge and ends no registration leaves the credentials alone,
and what is sent carries them. -/
theorem step_getCredentials (h : step hash c e = some (c', regs)) (hc : e.challenge = none)
    (hend : e.endsRegistration c = false) :
    c'.getCredentials = c.getCredentials ∧ ∀ r ∈ regs, r.credentials = c.getCredentials := by
  cases e with
  | start url interval =>
    cases h
    unfold start
    split_ifs <;> exact ⟨rfl, by simp⟩
  | stop localAddress =>
    cases h
    refine ⟨rfl, fun r hr => ?_⟩
    split_ifs at hr
    · rw [List.mem_singleton.mp hr]
    · cases hr
  | timer now net =>
    simp only [step, Option.some.injEq] at h
    unfold handleTimer at h
    cases hactive : c.active with
    | false =>
      rw [hactive] at h
      cases h
      exact ⟨rfl, by simp⟩
    | true =>
      rw [hactive] at h
      cases h
      have hcred := @getCredentials_expire c now (by
        simpa [Event.endsRegistration, hactive] using hend)
      refine ⟨hcred, fun r hr => ?_⟩
      split_ifs at hr
      · rw [List.mem_singleton.mp hr]
        exact hcred
      · cases hr
  | response status auth now =>
    obtain ⟨c₁, hrsp, heq⟩ := Option.map_eq_some_iff.mp h
    cases heq
    refine ⟨?_, by simp⟩
    have hfalse (hne : status ≠ text "200") : (c.setStatus false).getCredentials =
        c.getCredentials := by
      have hr : c.isRegistered = false := by simpa [Event.endsRegistration, hne] using hend
      rw [getCredentials_setStatus_false, hr]
      rfl
    unfold onRegisterRsp at hrsp
    by_cases h401 : status = text "401"
    · rw [if_pos h401] at hrsp
      have hne : status ≠ text "200" := by rw [h401]; decide
      cases hparse : ReceivedChallenge.parse auth with
      | ok chal =>
        simp [Event.challenge, h401, hparse, Except.isOk, Except.toBool] at hc
      | error r =>
        rw [hparse] at hrsp
        cases r with
        | malformed => cases hrsp; exact hfalse hne
        | undefined => cases hrsp
    · rw [if_neg h401] at hrsp
      by_cases h200 : status = text "200"
      · rw [if_pos h200] at hrsp
        cases hrsp
        unfold getCredentials
        rw [setStatus_hasCred, setStatus_cred]
        simp
      · rw [if_neg h200] at hrsp
        cases hrsp
        exact hfalse h200

/-- The credentials behind a challenge. -/
theorem onRegisterRsp_challenge {auth : Text} {now : ℤ} {chal : ReceivedChallenge}
    (hparse : ReceivedChallenge.parse auth = .ok chal) :
    ∃ c', c.onRegisterRsp hash (text "401") auth now = some c' ∧ c'.password = c.password ∧
      c'.isRegistered = false ∧
      c'.getCredentials = if c.isRegistered then none else some (c.answer hash chal) := by
  refine ⟨_, by rw [onRegisterRsp, if_pos rfl, hparse], ?_, ?_, ?_⟩
  · rw [setStatus_password]; rfl
  · rw [setStatus_isRegistered]
  · rw [getCredentials_setStatus_false]
    rfl

theorem step_password (h : step hash c e = some (c', regs)) : c'.password = c.password := by
  cases e with
  | start url interval =>
    cases h
    unfold start
    split_ifs <;> rfl
  | stop localAddress => cases h; rfl
  | timer now net =>
    simp only [step, Option.some.injEq] at h
    unfold handleTimer at h
    split_ifs at h <;> cases h
    · rfl
    · exact expire_password c now
  | response status auth now =>
    obtain ⟨c₁, hrsp, heq⟩ := Option.map_eq_some_iff.mp h
    cases heq
    unfold onRegisterRsp at hrsp
    split_ifs at hrsp
    · split at hrsp <;> cases hrsp <;> simp [setCredentials]
    · cases hrsp; simp
    · cases hrsp; simp

/-! ### The next request -/

/-- An event that is no response. -/
def Event.quiet : Event → Prop
  | .response _ _ _ => False
  | _ => True

variable (hash c) in
/-- The next request that is sent answers the challenge, whatever timers and other calls
come before it. -/
def NextAnswers (auth : Text) : Prop :=
  ∀ es, (∀ e ∈ es, e.quiet) → ∀ t os, run (step hash) c es = some (t, os) →
    ∀ r ∈ os.head?, Answers hash c.password auth r

/-- Until the next response, an unregistered client sends the credentials it has. -/
theorem run_quiet (hr : c.isRegistered = false) {es : List Event} (hq : ∀ e ∈ es, e.quiet)
    {t : GkClient} {os : List Register} (h : run (step hash) c es = some (t, os)) :
    ∀ r ∈ os, r.credentials = c.getCredentials := by
  have hok : RunOk (step hash) (fun _ e => e.quiet ∧ True) c es :=
    (RunOk.of_forall (fun _ _ => trivial) c es).restrict hq
  refine (hok.invariant (fun s out => s.isRegistered = false ∧
    s.getCredentials = c.getCredentials ∧ ∀ r ∈ out, r.credentials = c.getCredentials) ?_ []
    ⟨hr, rfl, by simp⟩ h).2.2
  rintro s out e s' o ⟨hs, hcred, hout⟩ ⟨hquiet, -⟩ hstep
  have hch : e.challenge = none := by
    cases e <;> first | rfl | exact hquiet.elim
  have hend : e.endsRegistration s = false := by
    cases e <;> simp_all [Event.endsRegistration, Event.quiet]
  obtain ⟨hcred', ho⟩ := step_getCredentials hstep hch hend
  have hs' : s'.isRegistered = false := by
    cases e with
    | start url interval => cases hstep; unfold start; split_ifs <;> exact hs
    | stop localAddress => cases hstep; exact hs
    | timer now net =>
      simp only [step, Option.some.injEq] at hstep
      unfold handleTimer expire at hstep
      split_ifs at hstep <;> cases hstep <;> simp [hs]
    | response status auth now => exact hquiet.elim
  refine ⟨hs', hcred'.trans hcred, fun r hmem => ?_⟩
  rcases List.mem_append.mp hmem with hmem | hmem
  · exact hout r hmem
  · exact (ho r hmem).trans hcred

/-- A client that is started sends a request when the timer fires. -/
theorem run_start_timer (hr : c.isRegistered = false) :
    ∃ t expires, run (step hash) c [.start [] 60, .timer 0 ⟨true, true, true⟩] =
      some (t, [⟨c.getCredentials, expires⟩]) := by
  obtain ⟨hactive, hreg, hcred⟩ : (c.start [] 60).active = true ∧
      (c.start [] 60).isRegistered = false ∧
      (c.start [] 60).getCredentials = c.getCredentials := by
    unfold start
    split_ifs with h
    · exact ⟨h, hr, rfl⟩
    · exact ⟨rfl, hr, rfl⟩
  have hexpire : ((c.start [] 60).expire 0).getCredentials = c.getCredentials :=
    (getCredentials_expire (by rw [hreg]; rfl)).trans hcred
  have htimer : (c.start [] 60).handleTimer 0 ⟨true, true, true⟩ =
      ({ (c.start [] 60).expire 0 with con := ((c.start [] 60).expire 0).con || true },
        [⟨c.getCredentials, ((c.start [] 60).expire 0).timeToLive⟩]) := by
    unfold handleTimer
    rw [hactive]
    simp [hexpire]
  exact ⟨_, _, run_cons_eq_some.mpr ⟨_, [], _, rfl,
    run_cons_eq_some.mpr ⟨_, _, [], congrArg some htimer, rfl, rfl⟩, rfl⟩⟩

theorem nextAnswers_iff (hr : c.isRegistered = false) (auth : Text) :
    NextAnswers hash c auth ↔
      ∃ cred, c.getCredentials = some cred ∧ CredFor hash c.password auth cred := by
  constructor
  · intro h
    obtain ⟨t, expires, hrun⟩ := @run_start_timer hash c hr
    exact h _ (by simp [Event.quiet]) _ _ hrun _ rfl
  · rintro ⟨cred, hcred, hfor⟩ es hq t os h r hhead
    have hmem := List.mem_of_mem_head? hhead
    exact ⟨cred, (run_quiet hr hq h r hmem).trans hcred, hfor⟩

/-! ### Runs -/

end

section

variable (hash : Algorithm → Text → Text)

/-- A client with the challenge that no request has answered yet. -/
structure Watched where
  client : GkClient
  pending : Option Text := none

/-- A step, with the challenge that each request should answer. A new challenge takes the
place of the one before. -/
def watch (w : Watched) (e : Event) : Option (Watched × List (Register × Option Text)) :=
  (step hash w.client e).map fun q =>
    let pending := e.challenge <|> w.pending
    (⟨q.1, if q.2.isEmpty then pending else none⟩, q.2.map fun r => (r, pending))

/-- A challenge is read as it was written, and no registration ends by it or before it is
answered. -/
def Kept (w : Watched) (e : Event) : Prop :=
  (∀ auth ∈ e.challenge, ReadsRight auth) ∧
    (e.challenge ≠ none ∨ w.pending ≠ none → e.endsRegistration w.client = false)

/-- The credentials at hand are for the challenge that waits. -/
def Ready (password : Text) (w : Watched) : Prop :=
  w.client.password = password ∧ ∀ auth ∈ w.pending,
    ∃ cred, w.client.getCredentials = some cred ∧ CredFor hash password auth cred

variable {hash}

theorem challenge_eq_some {e : Event} {auth : Text} (h : e.challenge = some auth) :
    ∃ now chal, e = .response (text "401") auth now ∧ ReceivedChallenge.parse auth = .ok chal := by
  cases e with
  | response status auth' now =>
    simp only [Event.challenge] at h
    split_ifs at h with hcond
    cases h
    obtain ⟨rfl, hok⟩ := hcond
    cases hparse : ReceivedChallenge.parse auth with
    | ok chal => exact ⟨now, chal, rfl, rfl⟩
    | error r => rw [hparse] at hok; cases hok
  | start url interval => cases h
  | stop localAddress => cases h
  | timer now net => cases h

/-- One event: what is sent answers what waited, and what waits then is ready. -/
theorem ready_watch {password : Text} {w w' : Watched} {e : Event}
    {o : List (Register × Option Text)} (hw : Ready hash password w) (hk : Kept w e)
    (h : watch hash w e = some (w', o)) :
    Ready hash password w' ∧ ∀ q ∈ o, ∀ auth ∈ q.2, Answers hash password auth q.1 := by
  obtain ⟨⟨c', regs⟩, hstep, heq⟩ := Option.map_eq_some_iff.mp h
  obtain ⟨rfl, rfl⟩ := Prod.mk.inj heq
  have hpassword : c'.password = password := (step_password hstep).trans hw.1
  cases hch : e.challenge with
  | some auth =>
    obtain ⟨now, chal, rfl, hparse⟩ := challenge_eq_some hch
    have hreads := hk.1 auth hch
    have hend := hk.2 (.inl (by rw [hch]; simp))
    have hunreg : w.client.isRegistered = false := by
      have hne : (text "401" == text "200") = false := by decide
      simpa [Event.endsRegistration, hne] using hend
    obtain ⟨c₁, hrsp, -, -, hcred⟩ := @onRegisterRsp_challenge hash w.client auth now chal hparse
    rw [step, hrsp] at hstep
    cases hstep
    rw [hunreg] at hcred
    have hfor := (credFor_answer_iff hash w.client hparse).mpr hreads
    rw [hw.1] at hfor
    refine ⟨⟨hpassword, fun auth' hmem => ?_⟩, by simp⟩
    rw [show auth' = auth from (Option.some.inj hmem).symm]
    exact ⟨_, hcred, hfor⟩
  | none =>
    cases hpending : w.pending with
    | none =>
      refine ⟨⟨hpassword, fun auth hmem => ?_⟩, fun q hq auth hmem => ?_⟩
      · dsimp only [HOrElse.hOrElse, OrElse.orElse, Option.orElse] at hmem
        split_ifs at hmem <;> cases hmem
      · obtain ⟨r, -, rfl⟩ := List.mem_map.mp hq
        cases hmem
    | some auth =>
      obtain ⟨cred, hcred, hfor⟩ := hw.2 auth hpending
      have hend := hk.2 (.inr (by rw [hpending]; simp))
      obtain ⟨hcred', ho⟩ := step_getCredentials hstep hch hend
      refine ⟨⟨hpassword, fun auth' hmem => ?_⟩, fun q hq auth' hmem => ?_⟩
      · dsimp only [HOrElse.hOrElse, OrElse.orElse, Option.orElse] at hmem
        split_ifs at hmem
        · cases hmem
          exact ⟨cred, hcred'.trans hcred, hfor⟩
        · cases hmem
      · obtain ⟨r, hr, rfl⟩ := List.mem_map.mp hq
        cases hmem
        exact ⟨cred, (ho r hr).trans hcred, hfor⟩

end

/-- The next request answers a challenge exactly if the client was not registered and the
realm and the nonce are found in the first seven characters. In a run whose challenges are
of that kind, and in which no registration ends before a challenge is answered, every
request answers the challenge that waits. -/
theorem challenge_answered_iff (hash : Algorithm → Text → Text) (c : GkClient) :
    (∀ auth now chal, ReceivedChallenge.parse auth = .ok chal →
      ∃ c', c.onRegisterRsp hash (text "401") auth now = some c' ∧
        (NextAnswers hash c' auth ↔ c.isRegistered = false ∧ ReadsRight auth)) ∧
      ∀ es t os, RunOk (watch hash) Kept ⟨c, none⟩ es →
        run (watch hash) ⟨c, none⟩ es = some (t, os) →
          ∀ q ∈ os, ∀ auth ∈ q.2, Answers hash c.password auth q.1 := by
  constructor
  · intro auth now chal hparse
    obtain ⟨c', hrsp, hpassword, hunreg, hcred⟩ :=
      @onRegisterRsp_challenge hash c auth now chal hparse
    refine ⟨c', hrsp, ?_⟩
    rw [nextAnswers_iff hunreg, hcred, hpassword, ← credFor_answer_iff hash c hparse]
    cases c.isRegistered <;> simp
  · intro es t os hok hr
    exact (hok.invariant (fun w out => Ready hash c.password w ∧
        ∀ q ∈ out, ∀ auth ∈ q.2, Answers hash c.password auth q.1)
      (fun w out e w' o hw hk hs => by
        obtain ⟨hready, ho⟩ := ready_watch hw.1 hk hs
        exact ⟨hready, fun q hq => (List.mem_append.mp hq).elim (hw.2 q) (ho q)⟩)
      [] ⟨⟨rfl, fun auth h => by cases h⟩, by simp⟩ hr).2

private def bareChallenge : Text := text "Digest algorithm=MD5"

private def newClient : GkClient :=
  { username := text "u", password := text "p", active := true, con := true, updatedAt := 1 }

instance (auth : Text) : Decidable (ReadsRight auth) := inferInstanceAs (Decidable (_ ∧ _))

instance (w : Watched) (e : Event) : Decidable (Kept w e) := inferInstanceAs (Decidable (_ ∧ _))

/-- A challenge without a realm and a nonce, to a client that is not registered: it is answered by
the next request, which is the one that the timer sends a second later. -/
theorem challenge_answered_empty :
    (∃ c', newClient.onRegisterRsp (fun _ s => s) (text "401") bareChallenge 5 = some c' ∧
      NextAnswers (fun _ s => s) c' bareChallenge) ∧
    ∃ t r, run (watch fun _ s => s) ⟨newClient, none⟩
        [.response (text "401") bareChallenge 5, .timer 6 ⟨false, false, true⟩] =
          some (t, [(r, some bareChallenge)]) ∧
      Answers (fun _ s => s) (text "p") bareChallenge r := by
  obtain ⟨hnext, hruns⟩ := challenge_answered_iff (fun _ s => s) newClient
  constructor
  · obtain ⟨c', hrsp, hiff⟩ := hnext bareChallenge 5 {} (by decide +kernel)
    exact ⟨c', hrsp, hiff.mpr ⟨rfl, by decide +kernel⟩⟩
  · obtain ⟨⟨t, os⟩, hrun⟩ : ∃ q, run (watch fun _ s => s) ⟨newClient, none⟩
        [.response (text "401") bareChallenge 5, .timer 6 ⟨false, false, true⟩] = some q :=
      Option.isSome_iff_exists.mp (by decide +kernel)
    have hsent : (run (watch fun _ s => s) ⟨newClient, none⟩
        [.response (text "401") bareChallenge 5, .timer 6 ⟨false, false, true⟩]).map
          (fun q => q.2.map Prod.snd) = some [some bareChallenge] := by
      decide +kernel
    rw [hrun, Option.map_some, Option.some.injEq] at hsent
    obtain ⟨⟨r, auth⟩, rfl, rfl⟩ := List.map_eq_singleton_iff.mp hsent
    refine ⟨t, r, hrun, hruns _ t _ (by decide +kernel) hrun _ (List.mem_singleton_self _) _ rfl⟩

/-- A usual challenge: a registered client answers it without credentials, and one that is
not registered with an empty nonce. -/
theorem challenge_unanswered :
    let auth := text "Digest realm=\"r\", nonce=\"n\""
    let c : GkClient := {
      username := text "u", password := text "p", active := true, con := true, updatedAt := 1 }
    let es : List Event := [.response (text "401") auth 5, .timer 6 ⟨false, false, true⟩]
    challengeNonce auth = text "n" ∧
      ((run (step fun _ s => s) { c with isRegistered := true } es).map (·.2) =
        some [⟨none, 60⟩]) ∧
      ((run (step fun _ s => s) c es).map fun q =>
        q.2.map fun r => r.credentials.map Credentials.nonce) = some [some []] := by
  decide +kernel

end GkClient

end CxxDeps.Sip
