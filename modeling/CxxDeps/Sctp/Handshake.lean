import CxxDeps.Library.Run
import CxxDeps.Sctp.Handlers

/-! The handshake. `on_cookie_ack` connects in every state and `on_cookie_echo`
connects again each time, so an association completes its handshake, and once,
exactly in the runs whose COOKIE chunks come when the handshake expects them. -/

namespace CxxDeps.Sctp

open Library

namespace Association

/-- A packet that begins with a chunk of this type was handed to the socket. -/
def sent (type : ChunkType) (s : Association) : Bool :=
  s.events.any fun
    | .sendData data => data[12]? == some type.toByte
    | _ => false

/-- How often `on_connected_` was called. -/
def fired (s : Association) : ℕ := s.events.count .connected

/-- The step from `s` to `s'` connects the association or says so. -/
def connects (s s' : Association) : Bool :=
  s.fired < s'.fired || (s.state ≠ .connected && s'.state = .connected)

end Association

/-- A step that connects: the association before it, and the chunk it handles. -/
structure Firing where
  before : Association
  chunk : Option Chunk

/-- A COOKIE_ECHO brings back the cookie that was issued, or a COOKIE_ACK answers
the COOKIE_ECHO that was sent. -/
def Firing.Authentic (f : Firing) : Prop :=
  ∃ chunk, f.chunk = some chunk ∧
    (chunk.type = .cookieEcho ∧ f.before.echoes chunk ∧ f.before.sent .initAck ∨
      chunk.type = .cookieAck ∧ f.before.state = .connecting ∧ f.before.sent .cookieEcho)

/-- The association is connected at most once, and by completing the handshake. -/
def Authentic (fs : List Firing) : Prop := (∀ f ∈ fs, f.Authentic) ∧ fs.length ≤ 1

/-- A COOKIE_ACK comes while connecting and after the COOKIE_ECHO; a COOKIE_ECHO with
the right cookie comes after the INIT_ACK and before the association was ever
connected. -/
def CookiesInPlace (s : Association) (chunk : Chunk) : Prop :=
  (chunk.type = .cookieAck → s.state = .connecting ∧ s.sent .cookieEcho) ∧
    (chunk.type = .cookieEcho → s.echoes chunk → s.sent .initAck ∧ .connected ∉ s.events)

/-- The calls made on an association. -/
inductive Call
  | connInput (now : ℤ) (data : List UInt8)
  | act (a : Act)

namespace Association

def call (s : Association) : Call → Option Association
  | .connInput now data => s.connInput now data
  | .act a => s.act a

def firing (s s' : Association) (chunk : Option Chunk) : List Firing :=
  if s.connects s' then [⟨s, chunk⟩] else []

/-- One chunk of a packet, with the firing it causes. -/
def chunkStep (now : ℤ) (header : Header) (s : Association) (chunk : Chunk) :
    Option (Association × List Firing) :=
  (s.onChunk now header chunk).map fun s' => (s', s.firing s' (some chunk))

/-- A call, with the firings it causes. -/
def step (s : Association) : Call → Option (Association × List Firing)
  | .connInput now data =>
    match Packet.deserialize data with
    | .error .rejected => some (s, [])
    | .error .undefined => none
    | .ok pkt =>
      if accepts data pkt then run (chunkStep now pkt.header) s pkt.chunks else some (s, [])
  | .act a => (s.act a).map fun s' => (s', s.firing s' none)

/-- Every chunk of a packet that is accepted is in place when it is handled. -/
def CallInPlace (s : Association) : Call → Prop
  | .connInput now data =>
    ∀ pkt, Packet.deserialize data = .ok pkt → accepts data pkt →
      RunOk (chunkStep now pkt.header) CookiesInPlace s pkt.chunks
  | .act _ => True

theorem run_chunkStep (now : ℤ) (header : Header) (s : Association) (chunks : List Chunk) :
    (run (chunkStep now header) s chunks).map Prod.fst = chunks.foldlM (onChunk now header) s := by
  induction chunks generalizing s with
  | nil => rfl
  | cons chunk chunks ih =>
    rw [run_cons, List.foldlM_cons, chunkStep]
    cases s.onChunk now header chunk with
    | none => rfl
    | some s' => simpa [Function.comp_def] using ih s'

/-- The firings are an account of the calls, which they do not change. -/
theorem step_fst (s : Association) (c : Call) : (s.step c).map Prod.fst = s.call c := by
  cases c with
  | connInput now data =>
    cases hd : Packet.deserialize data with
    | error f => cases f <;> simp [step, call, connInput, hd]
    | ok pkt =>
      simp only [step, call, connInput, hd]
      split
      · exact run_chunkStep now pkt.header s pkt.chunks
      · rfl
  | act a => simp [step, call, Function.comp_def]

/-! ### Calls that leave the handshake alone -/

/-- Nothing was connected between `s` and `s'`, though it may have been closed. -/
structure Calm (s s' : Association) : Prop where
  fired : s'.fired = s.fired
  state : s'.state = s.state ∨ s'.state = .closed

theorem Calm.refl (s : Association) : Calm s s := ⟨rfl, .inl rfl⟩

theorem Calm.trans {s s' s'' : Association} (h : Calm s s') (h' : Calm s' s'') : Calm s s'' := by
  refine ⟨h'.fired.trans h.fired, ?_⟩
  rcases h'.state with h₁ | h₁
  · rw [h₁]
    exact h.state
  · exact .inr h₁

/-- Whatever is done without connecting is calm. -/
theorem calm_respects (cause : Option ChunkType) (msgs : List Message) :
    Respects cause msgs Calm where
  refl := Calm.refl
  trans := Calm.trans
  quiet hevents hstate := ⟨by rw [fired, fired, hevents], .inl hstate⟩
  say {chunk es} s _ hsaid := by
    refine ⟨?_, .inl rfl⟩
    have hnone : es.count .connected = 0 :=
      List.count_eq_zero.mpr fun hmem => (hsaid _ hmem).ne_connected rfl
    simp [fired, hnone]
  tell {e} s _ he := by
    refine ⟨?_, .inl rfl⟩
    have hnone : [e].count .connected = 0 := by simpa [List.count_singleton] using he
    rw [emit_eq_say, fired, fired, say_events, List.count_append, hnone, Nat.add_zero]
  close _ _ _ _ := ⟨rfl, .inr rfl⟩

/-! ### Chunks -/

/-- Every other chunk leaves the handshake alone. -/
theorem calm_onChunk {now : ℤ} {header : Header} {chunk : Chunk} {s s' : Association}
    (hc : ¬ s.Connecting chunk) (h : s.onChunk now header chunk = some s') : Calm s s' :=
  onChunk_respects (calm_respects _ _) (fun hconnecting => absurd hconnecting hc) h

/-- A connecting chunk fires `on_connected_` once. -/
theorem onChunk_of_connecting {now : ℤ} {header : Header} {chunk : Chunk} {s s' : Association}
    (hc : s.Connecting chunk) (h : s.onChunk now header chunk = some s') :
    s'.fired = s.fired + 1 ∧ s'.state = .connected := by
  have hfired (s : Association) : (s.emit .connected).fired = s.fired + 1 := by
    simp [fired, emit]
  rcases hc with ht | ⟨ht, hecho⟩
  · rw [onChunk, ht] at h
    obtain rfl := Option.some.inj h
    exact ⟨hfired _, rfl⟩
  · have hcookie : CookieEchoChunk.deserialize chunk.payload chunk.payloadLength =
        .ok ⟨s.localCookie⟩ := hecho
    rw [onChunk, ht] at h
    simp only [onCookieEcho, reading, hcookie, ne_eq, not_true_eq_false, if_false] at h
    obtain rfl := Option.some.inj h
    have hack : Calm s (s.send .cookieAck flagsNone []) :=
      (calm_respects (some .cookieEcho) []).send s rfl
    exact ⟨(hfired _).trans (congrArg (· + 1) hack.fired), rfl⟩

/-! ### Runs -/

theorem fired_eq_zero {s : Association} : s.fired = 0 ↔ .connected ∉ s.events :=
  List.count_eq_zero

/-- The firings so far are counted by the events, and the association does not
return to the states before the handshake. -/
structure Tracked (s : Association) (fs : List Firing) : Prop where
  fired : s.fired = fs.length
  connected : s.state = .connected → 0 < s.fired
  ended : 0 < s.fired → s.state = .connected ∨ s.state = .closed

theorem firing_of_calm {s s' : Association} (h : Calm s s') (chunk : Option Chunk) :
    s.firing s' chunk = [] := by
  rw [firing, if_neg]
  rcases h.state with hs | hs <;> simp [connects, h.fired, hs]

theorem Tracked.of_calm {s s' : Association} {fs : List Firing} (ht : Tracked s fs)
    (h : Calm s s') : Tracked s' fs where
  fired := h.fired.trans ht.fired
  connected hc := by
    rw [h.fired]
    rcases h.state with hs | hs
    · exact ht.connected (hs ▸ hc)
    · rw [hs] at hc
      cases hc
  ended hf := by
    rw [h.fired] at hf
    rcases h.state with hs | hs
    · rw [hs]
      exact ht.ended hf
    · exact .inr hs

theorem authentic_of_append {fs fs' : List Firing} (h : Authentic (fs ++ fs')) : Authentic fs := by
  refine ⟨fun f hf => h.1 f (List.mem_append_left fs' hf), ?_⟩
  have := h.2
  rw [List.length_append] at this
  omega

theorem authentic_append_single {fs : List Firing} {f : Firing} (h : Authentic fs) :
    Authentic (fs ++ [f]) ↔ f.Authentic ∧ fs = [] := by
  constructor
  · rintro ⟨hall, hlen⟩
    refine ⟨hall f (by simp), List.eq_nil_of_length_eq_zero ?_⟩
    simp only [List.length_append, List.length_singleton] at hlen
    omega
  · rintro ⟨hf, rfl⟩
    exact ⟨by simpa using hf, by simp⟩

/-- A connecting chunk is in place exactly if the firing it causes is authentic and
the first. -/
theorem cookiesInPlace_iff {s : Association} {chunk : Chunk} {fs : List Firing}
    (ht : Tracked s fs) (hc : s.Connecting chunk) :
    CookiesInPlace s chunk ↔ Firing.Authentic ⟨s, some chunk⟩ ∧ fs = [] := by
  rw [← List.length_eq_zero_iff, ← ht.fired]
  rcases hc with hack | ⟨hecho, hcookie⟩
  · have hstate : s.state = .connecting → s.fired = 0 := by
      intro hs
      by_contra hne
      rcases ht.ended (by omega) with h | h <;> rw [hs] at h <;> cases h
    have hne : chunk.type ≠ .cookieEcho := by
      rw [hack]
      simp
    constructor
    · intro h
      obtain ⟨hs, hsent⟩ := h.1 hack
      exact ⟨⟨chunk, rfl, .inr ⟨hack, hs, hsent⟩⟩, hstate hs⟩
    · rintro ⟨⟨_, hchunk, h⟩, -⟩
      obtain rfl := Option.some.inj hchunk
      refine ⟨fun _ => ?_, fun hecho => (hne hecho).elim⟩
      rcases h with ⟨hecho, -⟩ | ⟨-, h⟩
      · exact (hne hecho).elim
      · exact h
  · have hne : chunk.type ≠ .cookieAck := by
      rw [hecho]
      simp
    constructor
    · intro h
      obtain ⟨hsent, hfresh⟩ := h.2 hecho hcookie
      exact ⟨⟨chunk, rfl, .inl ⟨hecho, hcookie, hsent⟩⟩, fired_eq_zero.mpr hfresh⟩
    · rintro ⟨⟨_, hchunk, h⟩, hfired⟩
      obtain rfl := Option.some.inj hchunk
      refine ⟨fun hack => (hne hack).elim, fun _ _ => ⟨?_, fired_eq_zero.mp hfired⟩⟩
      rcases h with ⟨-, -, h⟩ | ⟨hack, -⟩
      · exact h
      · exact (hne hack).elim

theorem firing_of_connecting {now : ℤ} {header : Header} {chunk : Chunk} {s s' : Association}
    (hc : s.Connecting chunk) (h : s.onChunk now header chunk = some s') :
    s.firing s' (some chunk) = [⟨s, some chunk⟩] := by
  have hf := (onChunk_of_connecting hc h).1
  rw [firing, if_pos (by simp [connects, hf])]

/-- One chunk: what it fires is tracked, and is authentic exactly if the chunk is in
place. -/
theorem chunkStep_spec {now : ℤ} {header : Header} {s s' : Association} {chunk : Chunk}
    {fs o : List Firing} (ht : Tracked s fs) (h : chunkStep now header s chunk = some (s', o)) :
    Tracked s' (fs ++ o) ∧ (Authentic fs → (CookiesInPlace s chunk ↔ Authentic (fs ++ o))) := by
  obtain ⟨s₁, hs, heq⟩ := Option.map_eq_some_iff.mp h
  obtain ⟨rfl, rfl⟩ := Prod.mk.inj heq
  by_cases hc : s.Connecting chunk
  · rw [firing_of_connecting hc hs]
    obtain ⟨hf, hstate⟩ := onChunk_of_connecting hc hs
    refine ⟨⟨by simp [hf, ht.fired], fun _ => by omega, fun _ => .inl hstate⟩, fun ha => ?_⟩
    rw [cookiesInPlace_iff ht hc, authentic_append_single ha]
  · have hcalm := calm_onChunk hc hs
    rw [firing_of_calm hcalm, List.append_nil]
    refine ⟨ht.of_calm hcalm, fun ha => ⟨fun _ => ha, fun _ => ?_⟩⟩
    exact ⟨fun hack => absurd (.inl hack) hc,
      fun hecho hcookie => absurd (.inr ⟨hecho, hcookie⟩) hc⟩

/-- Nothing was connected between `s` and `s'`, though the handshake may have begun. -/
def Quiet (s s' : Association) : Prop :=
  Calm s s' ∨ s'.fired = s.fired ∧ s.state = .none ∧ s'.state = .connecting

theorem Quiet.trans {s s' s'' : Association} (h : Quiet s s') (h' : Quiet s' s'') :
    Quiet s s'' := by
  rcases h with h | ⟨hfired, hnone, hconnecting⟩
  · rcases h' with h' | ⟨hfired', hnone', hconnecting'⟩
    · exact .inl (h.trans h')
    · refine .inr ⟨hfired'.trans h.fired, ?_, hconnecting'⟩
      rcases h.state with hs | hs
      · exact hs.symm.trans hnone'
      · rw [hs] at hnone'
        cases hnone'
  · rcases h' with h' | ⟨-, hnone', -⟩
    · rcases h'.state with hs | hs
      · exact .inr ⟨h'.fired.trans hfired, hnone, hs.trans hconnecting⟩
      · exact .inl ⟨h'.fired.trans hfired, .inr hs⟩
    · rw [hconnecting] at hnone'
      cases hnone'

theorem quiet_respects (cause : Option ChunkType) (msgs : List Message) :
    Respects cause msgs Quiet where
  refl s := .inl (Calm.refl s)
  trans := Quiet.trans
  quiet hevents hstate := .inl ((calm_respects cause msgs).quiet hevents hstate)
  say s ha hsaid := .inl ((calm_respects cause msgs).say s ha hsaid)
  tell s hpacket he := .inl ((calm_respects cause msgs).tell s hpacket he)
  close hcause hends now s := .inl ((calm_respects cause msgs).close hcause hends now s)

/-- The application and the timers connect nothing. -/
theorem act_quiet {s s' : Association} {fs : List Firing} {a : Act} (ht : Tracked s fs)
    (h : s.act a = some s') : Tracked s' fs ∧ s.firing s' none = [] := by
  have hquiet : Quiet s s' :=
    act_respects (quiet_respects none _) (fun _ _ _ hnone => .inr ⟨rfl, hnone, rfl⟩) h
  rcases hquiet with hcalm | ⟨hfired, hnone, hconnecting⟩
  · exact ⟨ht.of_calm hcalm, firing_of_calm hcalm none⟩
  · -- the state was `none`, so nothing was fired yet
    have hzero : s.fired = 0 := by
      by_contra hne
      rcases ht.ended (by omega) with hs | hs <;> rw [hnone] at hs <;> cases hs
    refine ⟨⟨hfired.trans ht.fired, fun hs => ?_, fun hpos => ?_⟩, ?_⟩
    · rw [hconnecting] at hs
      cases hs
    · omega
    · rw [firing, if_neg]
      simp [connects, hfired, hconnecting]

/-- One call. -/
theorem step_spec {s s' : Association} {c : Call} {fs o : List Firing} (ht : Tracked s fs)
    (h : s.step c = some (s', o)) :
    Tracked s' (fs ++ o) ∧ (Authentic fs → (s.CallInPlace c ↔ Authentic (fs ++ o))) := by
  cases c with
  | act a =>
    obtain ⟨s₁, hs, heq⟩ := Option.map_eq_some_iff.mp h
    obtain ⟨rfl, rfl⟩ := Prod.mk.inj heq
    obtain ⟨ht', hnil⟩ := act_quiet ht hs
    rw [hnil, List.append_nil]
    exact ⟨ht', fun ha => ⟨fun _ => ha, fun _ => trivial⟩⟩
  | connInput now data =>
    simp only [step, CallInPlace] at h ⊢
    cases hd : Packet.deserialize data with
    | error f =>
      rw [hd] at h
      cases f with
      | rejected =>
        obtain ⟨rfl, rfl⟩ := Prod.mk.inj (Option.some.inj h)
        simp [ht]
      | undefined => cases h
    | ok pkt =>
      simp only [hd] at h
      by_cases ha : accepts data pkt
      · rw [if_pos ha] at h
        -- the chunks of the packet are a run of their own
        refine ⟨run_relation Tracked (fun _ _ _ _ _ ht h => (chunkStep_spec ht h).1) fs ht h,
          fun hauth => ?_⟩
        rw [← runOk_iff_outputs Tracked Authentic (fun _ _ => authentic_of_append)
          (fun _ _ _ _ _ ht h => (chunkStep_spec ht h).1)
          (fun _ _ _ _ _ ht ha h => (chunkStep_spec ht h).2 ha) fs ht hauth h]
        simp [ha]
      · rw [if_neg ha] at h
        obtain ⟨rfl, rfl⟩ := Prod.mk.inj (Option.some.inj h)
        simp [ht, ha]

end Association

/-- An association is connected by a completed handshake and at most once, exactly if
every COOKIE chunk is in place. -/
theorem handshake_authentic_iff (sid localPort : UInt16) (uuid : List UInt8) (tag tsn : UInt32)
    {calls : List Call} {t : Association} {fs : List Firing}
    (h : run Association.step (opened sid localPort uuid tag tsn) calls = some (t, fs)) :
    Authentic fs ↔
      RunOk Association.step Association.CallInPlace (opened sid localPort uuid tag tsn) calls := by
  have ht : (opened sid localPort uuid tag tsn).Tracked [] := ⟨rfl, nofun, nofun⟩
  have hnil : Authentic [] := ⟨List.forall_mem_nil _, Nat.zero_le 1⟩
  exact (runOk_iff_outputs Association.Tracked Authentic
    (fun _ _ => Association.authentic_of_append)
    (fun _ _ _ _ _ ht h => (Association.step_spec ht h).1)
    (fun _ _ _ _ _ ht ha h => (Association.step_spec ht h).2 ha) [] ht hnil h).symm

/-- The packet of a chunk with no checksum, which is not checked. -/
private def unsigned (chunk : Chunk) : Call :=
  .connInput 0 (Packet.serialize ⟨⟨5000, 5000, 0, 0⟩, [chunk]⟩)

private def cookieAck : Call := unsigned { type := .cookieAck, flags := 0, payload := [] }

/-- The calls of an initiator whose handshake goes through. -/
private def initiator : List Call :=
  [.act (.connect 0 5000),
    unsigned
      { type := .initAck
        flags := 0
        payload := InitChunk.serialize ⟨1, 0, 16, 16, 9, [⟨stateCookie, [1, 2, 3, 4]⟩]⟩ },
    cookieAck]

theorem handshake_authentic_initiator :
    ∃ t fs, run Association.step (opened 0 5000 [7, 7] 1 100) initiator = some (t, fs) ∧
      fs.length = 1 ∧ (Authentic fs ↔ RunOk Association.step Association.CallInPlace
        (opened 0 5000 [7, 7] 1 100) initiator) := by
  have hlen : (run Association.step (opened 0 5000 [7, 7] 1 100) initiator).map
      (fun r => r.2.length) = some 1 := by decide +kernel
  obtain ⟨⟨t, fs⟩, hrun, hfs⟩ := Option.map_eq_some_iff.mp hlen
  exact ⟨t, fs, hrun, hfs, handshake_authentic_iff 0 5000 [7, 7] 1 100 hrun⟩

/-- A COOKIE_ACK that nobody waits for connects a fresh association. -/
theorem unsolicited_cookie_ack_connects :
    ¬ ∀ (sid localPort : UInt16) (uuid : List UInt8) (tag tsn : UInt32) (calls : List Call)
      (t : Association) (fs : List Firing),
      run Association.step (opened sid localPort uuid tag tsn) calls = some (t, fs) →
        Authentic fs := by
  intro h
  have hsees : (run Association.step (opened 0 5000 [7, 7] 1 100) [cookieAck]).map
      (fun r => r.2.map fun f => (f.before.state, f.chunk.map Chunk.type)) =
        some [(.none, some .cookieAck)] := by decide +kernel
  obtain ⟨⟨t, fs⟩, hrun, hfs⟩ := Option.map_eq_some_iff.mp hsees
  obtain ⟨f, rfl, hf⟩ := List.map_eq_singleton_iff.mp hfs
  obtain ⟨hstate, htype⟩ := Prod.mk.inj hf
  obtain ⟨chunk, hchunk, hauth⟩ :=
    (h 0 5000 [7, 7] 1 100 [cookieAck] t [f] hrun).1 f (List.mem_singleton_self f)
  rw [hchunk] at htype
  rcases hauth with ⟨hecho, -⟩ | ⟨-, hconnecting, -⟩
  · rw [Option.map_some, hecho] at htype
    cases htype
  · rw [hstate] at hconnecting
    cases hconnecting

end CxxDeps.Sctp
