import CxxDeps.Sctp.Handlers
import CxxDeps.Sctp.Network

/-! Closing. `close` sends the payload of a SHUTDOWN in a chunk of type INIT, so it does
not get to the handlers of the shutdown: the peer refuses it as an INIT and reports a
protocol error. Nothing else that follows a close ends the association of the peer. -/

namespace CxxDeps.Sctp

open Library

/-- The packet that arrives was sent since `net`. -/
def Move.Since (net : Net) : Move → Prop
  | .deliver side _ i => (net side.peer).flight.length ≤ i
  | .act _ _ => False

/-- Every packet that was sent since `net` has arrived. -/
def Net.Delivered (net : Net) (ms : List Move) (net' : Net) : Prop :=
  ∀ (side : Side) (i : ℕ), (net side.peer).flight.length ≤ i →
    i < (net' side.peer).flight.length → ∃ now, .deliver side now i ∈ ms

/-- A side has sent a chunk of this type since `net`. -/
def Net.Sends (net net' : Net) (side : Side) (type : ChunkType) : Prop :=
  ∃ data ∈ (net' side).flight.drop (net side).flight.length,
    (carried data).map Chunk.type = some type

/-- The peer of the side that closed is closed as well and has no streams, and neither
side has reported an error or has answered with an INIT_ACK. -/
structure Net.ClosedCleanly (net net' : Net) (side : Side) : Prop where
  closed : (net' side.peer).state = .closed
  streams : (net' side.peer).streams.isEmpty
  errors : ∀ x, ¬ net.Sends net' x .operationalError
  initAcks : ∀ x, ¬ net.Sends net' x .initAck

/-- The chunks of the exchange that follows a close. -/
def ChunkType.FollowsClose : ChunkType → Prop
  | .init => True
  | .initAck => True
  | .cookieEcho => True
  | .cookieAck => True
  | .data => True
  | .sack => True
  | .operationalError => True
  | _ => False

theorem ChunkType.FollowsClose.named {t : ChunkType} (h : t.FollowsClose) : t.Named := by
  cases t <;> first | exact h | trivial

/-- A shutdown is never acknowledged, because none is sent. -/
theorem Answers.followsClose {t : ChunkType} {msgs : List Message} {chunk : Chunk}
    (ht : t.FollowsClose) (h : Answers (some t) msgs chunk) : chunk.type.FollowsClose := by
  unfold Answers at h
  split at h <;> simp_all [ChunkType.FollowsClose]

theorem ChunkType.FollowsClose.eq_of_ends {t : ChunkType} (h : t.FollowsClose) (he : t.Ends) :
    t = .operationalError := by
  cases t <;> first | exact he.elim | exact h.elim | rfl

/-- Since `s` only such chunks were said, and if the association was closed, then by one
that ends it. -/
structure Winds (t : ChunkType) (s s' : Association) : Prop where
  said : ∃ es, s'.events = s.events ++ es ∧ ∀ data, .sendData data ∈ es →
    ∃ chunk : Chunk, chunk.type.FollowsClose ∧ Says chunk (.sendData data)
  state : s'.state = .closed → s.state = .closed ∨ t.Ends

theorem winds_respects {t : ChunkType} (ht : t.FollowsClose) (msgs : List Message) :
    Respects (some t) msgs (Winds t) where
  refl s := ⟨⟨[], by simp, by simp⟩, .inl⟩
  trans := by
    rintro s s' s'' ⟨⟨es, hes, hsaid⟩, hstate⟩ ⟨⟨es', hes', hsaid'⟩, hstate'⟩
    refine ⟨⟨es ++ es', by rw [hes', hes, List.append_assoc], fun data hdata => ?_⟩, fun h => ?_⟩
    · rcases List.mem_append.mp hdata with hdata | hdata
      · exact hsaid data hdata
      · exact hsaid' data hdata
    · rcases hstate' h with h | h
      · exact hstate h
      · exact .inr h
  quiet hevents hstate := ⟨⟨[], by simp [hevents], by simp⟩, fun h => .inl (hstate ▸ h)⟩
  say {chunk es} s ha hsaid :=
    ⟨⟨es, rfl, fun _ hdata => ⟨chunk, ha.followsClose ht, hsaid _ hdata⟩⟩, .inl⟩
  tell {e} s he _ :=
    ⟨⟨[e], rfl, fun data hdata => absurd (List.mem_singleton.mp hdata).symm (he data)⟩, .inl⟩
  close hcause hends now s := by
    obtain rfl := Option.some.inj hcause
    exact ⟨⟨[], by simp, by simp⟩, fun _ => .inr hends⟩

/-- The exchange that follows a close: what was said since `net`, and if the peer is
closed, the closing side has reported an error. -/
structure Winding (net : Net) (side : Side) (net' : Net) : Prop where
  said : ∀ x, ∃ es, (net' x).events = (net x).events ++ es ∧ ∀ data, .sendData data ∈ es →
    ∃ chunk : Chunk, chunk.type.FollowsClose ∧ Says chunk (.sendData data)
  closed : (net' side.peer).state = .closed → net.Sends net' side .operationalError

theorem flight_append {s s' : Association} {es : List Event}
    (h : s'.events = s.events ++ es) :
    s'.flight = s.flight ++ es.filterMap fun
      | .sendData data => some data
      | _ => none := by
  rw [Association.flight, h, List.filterMap_append]
  rfl

theorem Net.Sends.mono {net net' net'' : Net} {side : Side} {type : ChunkType} {es : List Event}
    (h : net.Sends net' side type) (hes : (net'' side).events = (net' side).events ++ es) :
    net.Sends net'' side type := by
  obtain ⟨data, hdata, htype⟩ := h
  refine ⟨data, ?_, htype⟩
  rw [flight_append hes]
  by_cases hle : (net side).flight.length ≤ (net' side).flight.length
  · rw [List.drop_append_of_le_length hle]
    exact List.mem_append_left _ hdata
  · rw [List.drop_eq_nil_of_le (by omega)] at hdata
    cases hdata

/-- The packet that arrives was said in the exchange. -/
theorem Winding.arriving {net net' : Net} {side x : Side} (h : Winding net side net')
    {i : ℕ} (hi : (net x.peer).flight.length ≤ i) {data : List UInt8}
    (hdata : net'.arriving x i = some data) :
    data ∈ (net' x.peer).flight.drop (net x.peer).flight.length ∧
      ∃ chunk : Chunk, chunk.type.FollowsClose ∧ Says chunk (.sendData data) := by
  obtain ⟨es, hes, hsaid⟩ := h.said x.peer
  rw [Net.arriving] at hdata
  have hmem : data ∈ (net' x.peer).flight.drop (net x.peer).flight.length := by
    refine List.mem_of_getElem? (i := i - (net x.peer).flight.length) ?_
    rw [List.getElem?_drop, Nat.add_sub_cancel' hi]
    exact hdata
  refine ⟨hmem, hsaid data ?_⟩
  rw [flight_append hes, List.drop_left] at hmem
  obtain ⟨e, he, heq⟩ := List.mem_filterMap.mp hmem
  cases e <;> cases heq
  exact he

/-- One packet of the exchange. -/
theorem Winding.step {net net' net'' : Net} {side : Side} (h : Winding net side net') {m : Move}
    (hm : m.Since net) {os : List Empty} (hs : net'.step m = some (net'', os)) :
    Winding net side net'' := by
  cases m with
  | act x a => exact hm.elim
  | deliver x now i =>
    rw [Net.step] at hs
    cases hdata : net'.arriving x i with
    | none =>
      rw [hdata] at hs
      obtain ⟨rfl, -⟩ := Prod.mk.inj (Option.some.inj hs)
      exact h
    | some data =>
      rw [hdata] at hs
      obtain ⟨s', hs', heq⟩ := Option.map_eq_some_iff.mp hs
      obtain ⟨rfl, -⟩ := Prod.mk.inj heq
      obtain ⟨hmem, chunk, hfollows, hsaid⟩ := h.arriving hm hdata
      rcases connInput_says hfollows.named hsaid with ⟨-, hsame⟩ | ⟨-, hcarried, header, hchunk⟩
      · -- the packet is not read
        rw [hsame] at hs'
        obtain rfl := Option.some.inj hs'
        have hnet : net'.set x (net' x) = net' := by
          funext y
          rw [Net.set]
          split
          · next hy => rw [hy]
          · rfl
        rw [hnet]
        exact h
      · rw [hchunk] at hs'
        have hsized : chunk.sized.type.FollowsClose := hfollows
        have hwinds : Winds chunk.sized.type (net' x) s' := by
          refine Association.onChunk_respects (winds_respects hsized _) (fun _ s₁ => ?_) hs'
          exact ⟨⟨[.connected], rfl, by simp⟩, fun h => by cases h⟩
        obtain ⟨es, hes, hnew⟩ := hwinds.said
        refine ⟨fun y => ?_, fun hclosed => ?_⟩
        · by_cases hy : y = x
          · subst hy
            obtain ⟨es₀, hes₀, hold⟩ := h.said y
            rw [Net.set_self]
            refine ⟨es₀ ++ es, by rw [hes, hes₀, List.append_assoc], fun data hdata => ?_⟩
            rcases List.mem_append.mp hdata with hdata | hdata
            · exact hold data hdata
            · exact hnew data hdata
          · rw [Net.set_of_ne _ _ hy]
            exact h.said y
        · by_cases hx : side = x
          · -- the closing side only says more
            subst hx
            rw [Net.set_peer] at hclosed
            exact (h.closed hclosed).mono ((congrArg _ (Net.set_self _ _ _)).trans hes)
          · obtain rfl := Side.eq_peer_of_ne (Ne.symm hx)
            rw [Net.set_self] at hclosed
            have hside : (net'.set side.peer s' side).events = (net' side).events ++ [] := by
              rw [Net.set_of_ne _ _ hx, List.append_nil]
            rcases hwinds.state hclosed with hclosed | hends
            · exact (h.closed hclosed).mono hside
            · rw [Side.peer_peer] at hmem
              have hreport : net.Sends net' side .operationalError := by
                refine ⟨data, hmem, ?_⟩
                rw [hcarried, Option.map_some, hsized.eq_of_ends hends]
              exact hreport.mono hside

theorem winding_close {net : Net} {side : Side} (h : (net side.peer).state = .connected) :
    Winding net side (net.set side (net side).close) := by
  refine ⟨fun x => ?_, fun hclosed => ?_⟩
  · by_cases hx : x = side
    · subst hx
      rw [Net.set_self, Association.close]
      obtain ⟨es, hes, hsaid⟩ := Association.send_spec .init flagsNone
        (ShutdownChunk.serialize ⟨(net x).localTsn⟩)
        { net x with state := .none, stateUpdatedAt := 0, active := false }
      obtain ⟨tsn, es', hes', hcloses⟩ := Association.closeStreams_spec false
        ({ net x with state := .none, stateUpdatedAt := 0, active := false }.say es)
      rw [hes, hes']
      refine ⟨es ++ es', by simp [Association.setStreams, Association.setTsn],
        fun data hdata => ?_⟩
      rcases List.mem_append.mp hdata with hdata | hdata
      · have hinit : ChunkType.init.FollowsClose := trivial
        exact ⟨{ type := .init, flags := flagsNone, payload := _ }, hinit, hsaid _ hdata⟩
      · rcases hcloses _ hdata with ⟨_, heq⟩ | ⟨_, _, f, -, hf⟩
        · cases heq
        · exact ⟨dataChunk f, trivial, hf⟩
    · rw [Net.set_of_ne _ _ hx]
      exact ⟨[], by simp, by simp⟩
  · rw [Net.set_peer, h] at hclosed
    cases hclosed

/-- After `close`, whichever packets of the exchange arrive, in whatever order: the peer is
never closed without an error having been reported. -/
theorem never_closed_cleanly {net : Net} (h : ∀ side, (net side).state = .connected)
    {side : Side} {ms : List Move} (hms : ∀ m ∈ ms, m.Since net) {net' : Net} {os : List Empty}
    (hrun : run Net.step (net.set side (net side).close) ms = some (net', os)) :
    ¬ net.ClosedCleanly net' side := by
  have hwinding : Winding net side net' := by
    have hok : RunOk Net.step (fun _ m => m.Since net ∧ True)
        (net.set side (net side).close) ms :=
      (RunOk.of_forall (fun _ _ => True.intro) _ _).restrict hms
    exact hok.invariant (fun net' _ => Winding net side net')
      (fun _ _ _ _ _ hi hm hs => hi.step hm.1 hs) [] (winding_close (h side.peer)) hrun
  intro hclean
  exact hclean.errors side (hwinding.closed hclean.closed)

/-- The packets that follow when the client closes after the handshake: the malformed INIT
and the error that answers it. -/
private def farewell : List Move := [.deliver .server 0 2, .deliver .client 0 2]

private theorem farewell_spec :
    ∃ net os net' os', run Net.step pair handshake = some (net, os) ∧
      run Net.step (net.set .client (net .client).close) farewell = some (net', os') ∧
      (∀ side, (net side).state = .connected) ∧ (∀ side, (net side).flight.length = 2) ∧
      (∀ side, (net' side).flight.length = 3) ∧ (net' .server).state = .connected := by
  have heval : ((run Net.step pair handshake).bind fun r =>
      (run Net.step (r.1.set .client (r.1 .client).close) farewell).map fun q =>
        [Side.client, .server].map fun side => ((r.1 side).state, (r.1 side).flight.length,
          (q.1 side).flight.length, (q.1 side).state)) =
      some [(.connected, 2, 3, .closed), (.connected, 2, 3, .connected)] := by decide +kernel
  obtain ⟨⟨net, os⟩, hrun, heval⟩ := Option.bind_eq_some_iff.mp heval
  obtain ⟨⟨net', os'⟩, hrun', heval⟩ := Option.map_eq_some_iff.mp heval
  simp only [List.map_cons, List.map_nil, List.cons.injEq, Prod.mk.injEq] at heval
  obtain ⟨⟨hc, hc₂, hc₃, -⟩, ⟨hs, hs₂, hs₃, hstate⟩, -⟩ := heval
  refine ⟨net, os, net', os', hrun, hrun', ?_, ?_, ?_, hstate⟩
  · rintro (_ | _) <;> assumption
  · rintro (_ | _) <;> assumption
  · rintro (_ | _) <;> assumption

theorem never_closed_cleanly_farewell :
    ∃ net os net' os', run Net.step pair handshake = some (net, os) ∧
      run Net.step (net.set .client (net .client).close) farewell = some (net', os') ∧
      ¬ net.ClosedCleanly net' .client := by
  obtain ⟨net, os, net', os', hrun, hrun', hconnected, hlength, -, -⟩ := farewell_spec
  refine ⟨net, os, net', os', hrun, hrun', never_closed_cleanly hconnected ?_ hrun'⟩
  intro m hm
  rcases List.mem_pair.mp hm with rfl | rfl <;> exact (hlength _).le

/-- The peer of an endpoint that closed stays connected when everything has arrived. -/
theorem peer_of_closed_stays_connected :
    ¬ ∀ net : Net, (∀ side, (net side).state = .connected) → ∀ (side : Side) (ms : List Move),
      (∀ m ∈ ms, m.Since net) → ∀ net' os,
      run Net.step (net.set side (net side).close) ms = some (net', os) →
        net.Delivered ms net' → net.ClosedCleanly net' side := by
  intro h
  obtain ⟨net, -, net', os', -, hrun', hconnected, hlength, hlength', hstate⟩ := farewell_spec
  have hsince : ∀ m ∈ farewell, m.Since net := by
    intro m hm
    rcases List.mem_pair.mp hm with rfl | rfl <;> exact (hlength _).le
  have hdelivered : net.Delivered farewell net' := by
    intro side i hle hlt
    rw [hlength] at hle
    rw [hlength'] at hlt
    obtain rfl : i = 2 := by omega
    refine ⟨0, List.mem_pair.mpr ?_⟩
    cases side
    · exact .inr rfl
    · exact .inl rfl
  have hclosed := (h net hconnected .client farewell hsince net' os' hrun' hdelivered).closed
  rw [show Side.client.peer = .server from rfl, hstate] at hclosed
  cases hclosed

end CxxDeps.Sctp
