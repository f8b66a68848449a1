import CxxDeps.Library.Run
import CxxDeps.Sip.Address
import CxxDeps.Sip.Credentials
import Std.Data.ExtTreeMap

/-! The registrar of `voip::sip::endpoint`. The events are the calls it makes, in
order; a `stored` and an `erased` record a write to `reg_endpoints_`. The clock, in
seconds, and the random nonce are arguments. A result `none` is undefined behaviour.

An alias is registered without the check of its password when `Expires` is 0, when
the algorithm is unknown, and with a nonce that was never issued. -/

namespace CxxDeps.Sip

open Library Sys Hypertext

/-- `reg_endpoint`, with the number of the connection. -/
structure RegEndpoint where
  alias' : Text := []
  contact : SipAddress := {}
  con : ℕ := 0
  updatedAt : ℤ
  password : Text := []
  deriving DecidableEq, Repr

/-- `challenge`, the fields that are set. -/
structure Challenge where
  realm : Text
  nonce : Text
  algorithm : Text
  deriving DecidableEq, Repr

/-- A response, without the headers that are copied from the request. -/
structure Response where
  status : Text := text "200"
  msg : Text := text "OK"
  wwwAuthenticate : Option Challenge := none
  expires : Option ℤ := none
  deriving DecidableEq, Repr

inductive Event
  | sendMessage (con : ℕ) (rsp : Response)
  | stop (con : ℕ)
  | regEndpoint (ep : RegEndpoint)
  | regEndpointFailed (alias' : Text)
  | unregEndpoint (ep : RegEndpoint)
  | stored (alias' : Text)
  | erased (alias' : Text)
  deriving DecidableEq, Repr

abbrev RegEndpoints := Std.ExtTreeMap Text RegEndpoint compare

/-- `endpoint`. The handler `on_require_password` says whether an alias may register,
and its password. -/
structure Endpoint where
  realm : Text := []
  requirePassword : Option (Text → Bool × Text) := none
  regEndpoints : RegEndpoints := ∅
  events : List Event := []

namespace Endpoint

def say (es : List Event) (s : Endpoint) : Endpoint := { s with events := s.events ++ es }

def setRegEndpoint (now : ℤ) (ep : RegEndpoint) (s : Endpoint) : Endpoint :=
  let entry := match s.regEndpoints[ep.alias']? with
    | some old => { old with updatedAt := now, con := ep.con, contact := ep.contact }
    | none => ep
  say [.stored ep.alias'] { s with regEndpoints := s.regEndpoints.insert ep.alias' entry }

def removeRegEndpoint (name : Text) (s : Endpoint) : Endpoint :=
  match s.regEndpoints[name]? with
  | none => s
  | some ep =>
    say [.stop ep.con, .erased name] { s with regEndpoints := s.regEndpoints.erase name }

/-- Whether the alias may register, and its password. -/
def passwordOf (name : Text) (s : Endpoint) : Bool × Text :=
  match s.requirePassword with
  | none => (true, [])
  | some f => f name

/-- The entry of the alias, or a new one if it may register. -/
def getOrRequire (now : ℤ) (name : Text) (s : Endpoint) : Option RegEndpoint :=
  match s.regEndpoints[name]? with
  | some ep => some ep
  | none =>
    let r := s.passwordOf name
    if r.1 then some { updatedAt := now, password := r.2 } else none

/-- The address in `From`, or else in `Contact`. -/
def sender (message : Message) : Option SipAddress := (from' message).or (contact message)

def unauthorized : Response := { status := text "401", msg := text "Unauthorized" }

/-- The entry is removed and the request answered. -/
def offline (con : ℕ) (name : Text) (s : Endpoint) : Endpoint :=
  let told := match s.regEndpoints[name]? with
    | some ep => s.say [.unregEndpoint ep]
    | none => s
  say [.sendMessage con {}] (told.removeRegEndpoint name)

/-- A refusal that the application is told of. -/
def fail (con : ℕ) (name : Text) (s : Endpoint) : Endpoint :=
  s.say [.regEndpointFailed name, .sendMessage con unauthorized]

def online (now : ℤ) (con : ℕ) (addr : SipAddress) (expires : ℤ) (ep : RegEndpoint)
    (s : Endpoint) : Endpoint :=
  let ep := { ep with alias' := addr.url.username, contact := addr, con, updatedAt := now }
  say [.regEndpoint ep, .sendMessage con { expires := some expires }] (s.setRegEndpoint now ep)

section

variable (hash : Algorithm → Text → Text)

def onRegister (now : ℤ) (con : ℕ) (nonce : Text) (message : Message) (s : Endpoint) :
    Option Endpoint :=
  match sender message with
  | none => some (s.say [.sendMessage con { status := text "400", msg := text "BadRequest" }])
  | some addr =>
    let name := addr.url.username
    if expires message = some 0 then some (s.offline con name)
    else if (authenticate message).isEmpty then
      some (s.say [.sendMessage con
        { status := text "401"
          msg := text "Unauthorised"
          wwwAuthenticate := some ⟨s.realm, nonce, text "MD5"⟩ }])
    else
      match Credentials.parse (authenticate message) with
      | .error .undefined => none
      | .error .malformed => some (s.fail con name)
      | .ok cred =>
        match s.getOrRequire now name with
        | none => some (s.say [.sendMessage con unauthorized])
        | some ep =>
          if ep.password ≠ [] ∧
              cred.response ≠ (cred.digest hash (text "REGISTER") ep.password none [] []).2 then
            some (s.fail con name)
          else some (s.online now con addr ((expires message).getD 0) ep)

/-- The other methods leave the registrations alone. -/
def handleMessage (now : ℤ) (con : ℕ) (nonce : Text) (message : Message) (s : Endpoint) :
    Option Endpoint :=
  if message.matchMethod (text "REGISTER") then s.onRegister hash now con nonce message
  else some s

end

/-- An entry that was not refreshed for 90 seconds is removed. -/
def handleTimer (now : ℤ) (s : Endpoint) : Endpoint :=
  (s.regEndpoints.toList.map Prod.snd).foldl
    (fun s ep => if 90 ≤ now - ep.updatedAt then s.removeRegEndpoint ep.alias' else s) s

/-! ### Runs -/

/-- The nonces sent in challenges. -/
def issued (s : Endpoint) : List Text :=
  s.events.filterMap fun
    | .sendMessage _ rsp => rsp.wwwAuthenticate.map Challenge.nonce
    | _ => none

/-- The password of an alias that may register with one. -/
def configured (name : Text) (s : Endpoint) : Option Text :=
  if (s.passwordOf name).1 ∧ (s.passwordOf name).2 ≠ [] then some (s.passwordOf name).2 else none

/-- The aliases whose entries are written, with the events of a step. -/
def written (es : List Event) : List Text :=
  es.filterMap fun
    | .stored name => some name
    | .erased name => some name
    | _ => none

end Endpoint

/-- What reaches an endpoint. -/
inductive Input
  | message (now : ℤ) (con : ℕ) (nonce : Text) (message : Message)
  | timer (now : ℤ)

/-- A write to `reg_endpoints_` made for a message. -/
structure Change where
  before : Endpoint
  message : Message
  alias' : Text

namespace Endpoint

section

variable (hash : Algorithm → Text → Text)

/-- A step, with the writes of `on_register`. -/
def step (s : Endpoint) : Input → Option (Endpoint × List Change)
  | .message now con nonce message =>
    (s.handleMessage hash now con nonce message).map fun s' =>
      (s', (written (s'.events.drop s.events.length)).map (⟨s, message, ·⟩))
  | .timer now => some (s.handleTimer now, [])

/-- The message is a REGISTER that answers a challenge of the endpoint with this
password. -/
def Proves (s : Endpoint) (message : Message) (password : Text) : Prop :=
  message.matchMethod (text "REGISTER") ∧ ∃ cred,
    Credentials.parse (authenticate message) = .ok cred ∧
      cred.Answers hash (text "REGISTER") password ∧ cred.nonce ∈ s.issued

/-- What a REGISTER for an alias with a password must be like. One that takes the alias
off proves the password all the same; any other does not leave the response empty
under an unknown algorithm, and answers no nonce that was not issued. -/
def InOrder (s : Endpoint) : Input → Prop
  | .timer _ => True
  | .message _ _ _ message =>
    message.matchMethod (text "REGISTER") → ∀ addr ∈ sender message,
      ∀ password ∈ s.configured addr.url.username,
        if expires message = some 0 then
          addr.url.username ∈ s.regEndpoints → s.Proves hash message password
        else ∀ cred, Credentials.parse (authenticate message) = .ok cred →
          (Algorithm.ofName cred.algorithm = none → cred.response ≠ []) ∧
            (cred.Answers hash (text "REGISTER") password → cred.nonce ∈ s.issued)

end

end Endpoint

/-- An alias with a password is written for a message that proves it. -/
def Change.Authentic (hash : Algorithm → Text → Text) (c : Change) : Prop :=
  ∀ password, c.before.configured c.alias' = some password →
    c.before.Proves hash c.message password

namespace Endpoint

variable {hash : Algorithm → Text → Text} {s s' : Endpoint}

/-! ### The table -/

/-- Every entry has the password of its alias, which may register. -/
def Kept (s : Endpoint) : Prop :=
  ∀ (name : Text) (ep : RegEndpoint), s.regEndpoints[name]? = some ep →
    s.passwordOf name = (true, ep.password)

theorem Kept.removeRegEndpoint (h : s.Kept) (name : Text) : (s.removeRegEndpoint name).Kept := by
  rw [Endpoint.removeRegEndpoint]
  split
  · exact h
  · intro k ep hk
    simp only [say, Std.ExtTreeMap.getElem?_erase] at hk
    split at hk
    · cases hk
    · exact h k ep hk

theorem Kept.setRegEndpoint (h : s.Kept) (now : ℤ) {ep : RegEndpoint}
    (hep : s.passwordOf ep.alias' = (true, ep.password)) : (s.setRegEndpoint now ep).Kept := by
  intro k e hk
  simp only [Endpoint.setRegEndpoint, say, Std.ExtTreeMap.getElem?_insert] at hk
  split at hk
  · next heq =>
    obtain rfl := Std.LawfulEqCmp.compare_eq_iff_eq.mp heq
    obtain rfl := Option.some.inj hk
    split
    · next old hold => exact h _ old hold
    · exact hep
  · exact h k e hk

/-- An entry that is found or made has the password of the alias. -/
theorem Kept.getOrRequire (h : s.Kept) {now : ℤ} {name : Text} {ep : RegEndpoint}
    (hep : s.getOrRequire now name = some ep) : s.passwordOf name = (true, ep.password) := by
  rw [Endpoint.getOrRequire] at hep
  cases hs : s.regEndpoints[name]? with
  | some old =>
    rw [hs] at hep
    exact Option.some.inj hep ▸ h name old hs
  | none =>
    rw [hs] at hep
    dsimp only at hep
    split at hep
    · next hok =>
      obtain rfl := Option.some.inj hep
      exact Prod.ext hok rfl
    · cases hep

theorem Kept.handleTimer (h : s.Kept) (now : ℤ) : (s.handleTimer now).Kept := by
  have hfold (eps : List RegEndpoint) (t : Endpoint) (ht : t.Kept) :
      (eps.foldl (fun s ep =>
        if 90 ≤ now - ep.updatedAt then s.removeRegEndpoint ep.alias' else s) t).Kept := by
    induction eps generalizing t with
    | nil => exact ht
    | cons ep eps ih =>
      apply ih
      dsimp only
      split
      · exact ht.removeRegEndpoint ep.alias'
      · exact ht
  exact hfold _ s h

theorem Kept.offline (h : s.Kept) (con : ℕ) (name : Text) : (s.offline con name).Kept := by
  rw [Endpoint.offline]
  split
  · exact Kept.removeRegEndpoint (s := s.say _) h name
  · exact h.removeRegEndpoint name

theorem Kept.online (h : s.Kept) {ep : RegEndpoint} {addr : SipAddress}
    (hep : s.passwordOf addr.url.username = (true, ep.password)) (now : ℤ) (con : ℕ)
    (expires : ℤ) : (s.online now con addr expires ep).Kept := by
  set ep' := { ep with alias' := addr.url.username, contact := addr, con, updatedAt := now }
  have hset : (s.setRegEndpoint now ep').Kept := h.setRegEndpoint now hep
  exact hset

theorem Kept.handleMessage (h : s.Kept) {now : ℤ} {con : ℕ} {nonce : Text} {message : Message}
    (hs : s.handleMessage hash now con nonce message = some s') : s'.Kept := by
  rw [Endpoint.handleMessage] at hs
  split at hs
  · rw [onRegister] at hs
    split at hs
    · exact Option.some.inj hs ▸ h
    · next addr _ =>
      dsimp only at hs
      split at hs
      · exact Option.some.inj hs ▸ h.offline con addr.url.username
      · split at hs
        · exact Option.some.inj hs ▸ h
        · split at hs
          · cases hs
          · exact Option.some.inj hs ▸ h
          · split at hs
            · exact Option.some.inj hs ▸ h
            · next ep hep =>
              split at hs
              · exact Option.some.inj hs ▸ h
              · exact Option.some.inj hs ▸ h.online (h.getOrRequire hep) now con _
  · exact Option.some.inj hs ▸ h

/-! ### The condition -/

theorem written_drop {es : List Event} (h : s'.events = s.events ++ es) :
    written (s'.events.drop s.events.length) = written es := by
  rw [h, List.drop_left]

theorem configured_eq {name password : Text} (h : s.passwordOf name = (true, password)) :
    s.configured name = if password ≠ [] then some password else none := by
  simp [configured, h]

theorem configured_of_refused {now : ℤ} {name : Text} (h : s.getOrRequire now name = none) :
    s.configured name = none := by
  rw [getOrRequire] at h
  cases hs : s.regEndpoints[name]? with
  | some ep => simp [hs] at h
  | none =>
    have hno : ¬ (s.passwordOf name).1 = true := by
      intro hyes
      simp [hs, hyes] at h
    rw [configured, if_neg fun hc => hno hc.1]

theorem online_events (now : ℤ) (con : ℕ) (addr : SipAddress) (expires : ℤ) (ep : RegEndpoint) :
    ∃ ep', (s.online now con addr expires ep).events = s.events ++
      [.stored addr.url.username, .regEndpoint ep',
        .sendMessage con { expires := some expires }] :=
  ⟨_, List.append_assoc _ _ _⟩

/-- Nothing is written, or the entry of the alias. -/
theorem offline_iff {message : Message} {name : Text} (con : ℕ) :
    (∀ password ∈ s.configured name, name ∈ s.regEndpoints → s.Proves hash message password) ↔
      ∀ k ∈ written ((s.offline con name).events.drop s.events.length),
        Change.Authentic hash ⟨s, message, k⟩ := by
  cases hs : s.regEndpoints[name]? with
  | none =>
    have hmem : name ∉ s.regEndpoints := by
      rw [← Std.ExtTreeMap.isSome_getElem?_iff_mem, hs]
      exact nofun
    have hevents : (s.offline con name).events = s.events ++ [.sendMessage con {}] := by
      simp [offline, removeRegEndpoint, hs, say]
    rw [written_drop hevents]
    simp [written, hmem]
  | some ep =>
    have hmem : name ∈ s.regEndpoints :=
      Std.ExtTreeMap.isSome_getElem?_iff_mem.mp (by rw [hs]; rfl)
    have hevents : (s.offline con name).events =
        s.events ++ [.unregEndpoint ep, .stop ep.con, .erased name, .sendMessage con {}] := by
      simp [offline, removeRegEndpoint, hs, say]
    rw [written_drop hevents]
    simp [written, hmem, Change.Authentic]

/-- The alias is put on, or the request is refused. -/
theorem credentials_iff (hk : s.Kept) {now expires : ℤ} {con : ℕ} {message : Message}
    {addr : SipAddress} {cred : Credentials} (hm : message.matchMethod (text "REGISTER"))
    (hparse : Credentials.parse (authenticate message) = .ok cred)
    (h : (match s.getOrRequire now addr.url.username with
      | none => some (s.say [.sendMessage con unauthorized])
      | some ep =>
        if ep.password ≠ [] ∧
            cred.response ≠ (cred.digest hash (text "REGISTER") ep.password none [] []).2 then
          some (s.fail con addr.url.username)
        else some (s.online now con addr expires ep)) = some s') :
    (∀ password ∈ s.configured addr.url.username,
        (Algorithm.ofName cred.algorithm = none → cred.response ≠ []) ∧
          (cred.Answers hash (text "REGISTER") password → cred.nonce ∈ s.issued)) ↔
      ∀ k ∈ written (s'.events.drop s.events.length), Change.Authentic hash ⟨s, message, k⟩ := by
  cases hep : s.getOrRequire now addr.url.username with
  | none =>
    -- the alias may not register
    rw [hep] at h
    obtain rfl := Option.some.inj h
    have hnone : s.configured addr.url.username = none := configured_of_refused hep
    rw [written_drop rfl, hnone]
    simp [written]
  | some ep =>
    rw [hep] at h
    dsimp only at h
    have hconf := configured_eq (hk.getOrRequire hep)
    have hdigest : cred.response =
        (cred.digest hash (text "REGISTER") ep.password none [] []).2 ↔ _ :=
      Credentials.digest_eq_response_iff (Credentials.parse_userhash hparse)
    split at h
    · next hwrong =>
      obtain rfl := Option.some.inj h
      rw [written_drop rfl, hconf, if_pos hwrong.1]
      have hno := mt hdigest.mpr hwrong.2
      rw [not_or, not_and] at hno
      simp only [Option.mem_def, Option.some.injEq, forall_eq']
      exact ⟨fun _ => nofun, fun _ => ⟨hno.2, fun hans => absurd hans hno.1⟩⟩
    · next hright =>
      obtain rfl := Option.some.inj h
      have hevents : written ((s.online now con addr expires ep).events.drop s.events.length) =
          [addr.url.username] := by
        obtain ⟨ep', hep'⟩ := online_events (s := s) now con addr expires ep
        rw [written_drop hep']
        rfl
      rw [hevents]
      simp only [List.mem_singleton, forall_eq, Change.Authentic, Option.mem_def]
      rw [hconf]
      split
      · next hne =>
        have hdig := hdigest.mp (not_not.mp fun hw => hright ⟨hne, hw⟩)
        simp only [Option.some.injEq, forall_eq']
        constructor
        · rintro ⟨hknown, hissued⟩
          have hans := hdig.resolve_right fun hu => hknown hu.1 hu.2
          exact ⟨hm, cred, hparse, hans, hissued hans⟩
        · rintro ⟨-, cred', hparse', hans, hissued⟩
          obtain rfl := Except.ok.inj (hparse.symm.trans hparse')
          refine ⟨fun hu => ?_, fun _ => hissued⟩
          obtain ⟨md, hmd, -⟩ := hans
          rw [hu] at hmd
          cases hmd
      · simp

/-- A message is in order exactly if every write made for it is authentic. -/
theorem inOrder_iff (hk : s.Kept) {now : ℤ} {con : ℕ} {nonce : Text} {message : Message}
    (h : s.handleMessage hash now con nonce message = some s') :
    InOrder hash s (.message now con nonce message) ↔
      ∀ name ∈ written (s'.events.drop s.events.length),
        Change.Authentic hash ⟨s, message, name⟩ := by
  by_cases hm : message.matchMethod (text "REGISTER")
  · rw [handleMessage, if_pos hm, onRegister] at h
    cases hsender : sender message with
    | none =>
      rw [hsender] at h
      obtain rfl := Option.some.inj h
      rw [written_drop rfl]
      simp [InOrder, hsender, written]
    | some addr =>
      rw [hsender] at h
      dsimp only at h
      set name := addr.url.username with hname
      have hiff : InOrder hash s (.message now con nonce message) ↔
          ∀ password ∈ s.configured name,
            if expires message = some 0 then name ∈ s.regEndpoints → s.Proves hash message password
            else ∀ cred, Credentials.parse (authenticate message) = .ok cred →
              (Algorithm.ofName cred.algorithm = none → cred.response ≠ []) ∧
                (cred.Answers hash (text "REGISTER") password → cred.nonce ∈ s.issued) := by
        simp [InOrder, hm, hsender, hname]
      rw [hiff]
      by_cases hexp : expires message = some 0
      · -- the alias is taken off
        simp only [if_pos hexp] at h ⊢
        obtain rfl := Option.some.inj h
        exact offline_iff con
      · simp only [if_neg hexp] at h ⊢
        split at h
        · next hempty =>
          -- a challenge
          obtain rfl := Option.some.inj h
          rw [written_drop rfl, List.isEmpty_iff.mp hempty]
          simp [written, Credentials.parse]
        · split at h
          · cases h
          · next hparse =>
            obtain rfl := Option.some.inj h
            rw [written_drop rfl, hparse]
            simp [written]
          · next cred hparse =>
            rw [hparse]
            simp only [Except.ok.injEq, forall_eq']
            exact credentials_iff hk hm hparse h
  · rw [handleMessage, if_neg hm] at h
    obtain rfl := Option.some.inj h
    simp [InOrder, hm, written]

end Endpoint

/-- An alias with a password is added, overwritten and removed only for messages that
prove the password, exactly in the runs whose messages are in order. -/
theorem registrar_authentic_iff (hash : Algorithm → Text → Text) {s₀ s : Endpoint}
    (h₀ : s₀.regEndpoints = ∅) {inputs : List Input} {changes : List Change}
    (hrun : run (Endpoint.step hash) s₀ inputs = some (s, changes)) :
    RunOk (Endpoint.step hash) (Endpoint.InOrder hash) s₀ inputs ↔
      ∀ c ∈ changes, c.Authentic hash := by
  have hkept : s₀.Kept := fun name ep hep => by simp [h₀] at hep
  refine runOk_iff_outputs (fun s _ => s.Kept) (fun cs => ∀ c ∈ cs, c.Authentic hash)
    (fun os os' hP c hc => hP c (List.mem_append_left os' hc)) ?_ ?_ [] hkept nofun hrun
  · rintro s out (⟨now, con, nonce, message⟩ | now) s' o hk hs
    · obtain ⟨t, ht, heq⟩ := Option.map_eq_some_iff.mp hs
      exact (Prod.mk.inj heq).1 ▸ hk.handleMessage ht
    · exact (Prod.mk.inj (Option.some.inj hs)).1 ▸ hk.handleTimer now
  · rintro s out (⟨now, con, nonce, message⟩ | now) s' o hk hP hs
    · obtain ⟨t, ht, heq⟩ := Option.map_eq_some_iff.mp hs
      obtain ⟨rfl, rfl⟩ := Prod.mk.inj heq
      rw [Endpoint.inOrder_iff hk ht]
      simp only [List.forall_mem_append, List.forall_mem_map]
      exact ⟨fun h => ⟨hP, h⟩, fun h => h.2⟩
    · obtain ⟨rfl, rfl⟩ := Prod.mk.inj (Option.some.inj hs)
      simpa [Endpoint.InOrder] using hP

/-- An endpoint where `bob` has a password. -/
private def guarded : Endpoint where
  realm := text "voip"
  requirePassword := some fun _ => (true, text "pw")

private def request (auth : String) : Message where
  filed1 := text "REGISTER"
  filed2 := text "sip:voip"
  filed3 := text "SIP/2.0"
  headers := [⟨text "From", text "<sip:bob@voip>"⟩, ⟨text "Authorization", text auth⟩]

theorem registrar_authentic_iff_challenge :
    ∃ s changes, run (Endpoint.step fun _ => id) guarded
        [.message 0 1 (text "n") (request ""),
          .message 1 1 (text "m") (request "Digest username=bob,nonce=n,response=0")] =
            some (s, changes) ∧
      (RunOk (Endpoint.step fun _ => id) (Endpoint.InOrder fun _ => id) guarded
        [.message 0 1 (text "n") (request ""),
          .message 1 1 (text "m") (request "Digest username=bob,nonce=n,response=0")] ↔
            ∀ c ∈ changes, c.Authentic fun _ => id) := by
  have hrun := Eq.symm (Option.some_get (show (run (Endpoint.step fun _ => id) guarded
    [.message 0 1 (text "n") (request ""),
      .message 1 1 (text "m") (request "Digest username=bob,nonce=n,response=0")]).isSome by
    decide +kernel))
  exact ⟨_, _, hrun, registrar_authentic_iff (fun _ => id) rfl hrun⟩

/-- An unknown algorithm and no response register `bob`. -/
theorem unknown_algorithm_registers :
    ¬ ∀ (hash : Algorithm → Text → Text), (∀ md, Function.Injective (hash md)) →
      ∀ (s₀ s : Endpoint) (inputs : List Input) (changes : List Change),
      s₀.regEndpoints = ∅ → run (Endpoint.step hash) s₀ inputs = some (s, changes) →
      ∀ c ∈ changes, c.Authentic hash := by
  intro h
  have hall : (run (Endpoint.step fun _ => id) guarded
      [.message 0 1 (text "n") (request "Digest algorithm=MD4")]).map (fun r =>
        r.2.any fun c => c.before.configured c.alias' = some (text "pw") &&
          (Credentials.parse (authenticate c.message)).toOption.any fun cred =>
            Algorithm.ofName cred.algorithm = none) = some true := by
    decide +kernel
  obtain ⟨⟨s, changes⟩, hrun, hany⟩ := Option.map_eq_some_iff.mp hall
  simp only [List.any_eq_true, Bool.and_eq_true, decide_eq_true_eq, Option.any_eq_true] at hany
  obtain ⟨c, hc, hconf, cred, hcred, hunknown⟩ := hany
  have hauth := h (fun _ => id) (fun _ => Function.injective_id) _ s _ changes rfl hrun c hc
  obtain ⟨-, cred', hparse, ⟨md, hmd, -⟩, -⟩ := hauth _ hconf
  rw [hparse] at hcred
  obtain rfl := Option.some.inj hcred
  rw [hunknown] at hmd
  cases hmd

end CxxDeps.Sip
