import Mathlib.Data.List.Nodup
import CxxDeps.Library.Run
import CxxDeps.Session.RtpSession

/-! The transports of a session while media streams are created and removed
(rtpx/rtp_session.cpp). A transport that has been opened is never closed again: the socket of
an UDP transport refers to it, and a stream that is removed is still referred to when its
transports are looked at. What a session has open is what its streams use only as long as
every creation that opens a transport succeeds and no removed stream was the last user. -/

namespace CxxDeps.Session

open Sys Sdp Library

namespace RtpSession

variable (env : Env) (s : RtpSession)

/-! ### Creation with a sender of the caller -/

/-- `create_transport` for a `custom_transport`, whose `open` never fails. -/
def createCustomTransport (port : UInt16) (security : Bool) : RtpSession :=
  if s.transports.any (·.localPort = port) then s
  else
    let tp : Transport := enableDtls env security { localPort := port, isUdp := false }
    { s with transports := s.transports ++ [tp] }

/-- `create_transport_pair` with a sender: the first round of a loop is its last one, and
rtcp-mux is not looked at. -/
def createCustomPair (security : Bool) : RtpSession × Option (UInt16 × UInt16) :=
  if s.isPortMux then
    if s.muxPort > 0 then
      (createCustomTransport env s s.muxPort security, some (s.muxPort, s.muxPort))
    else
      match s.ports.count with
      | 0 => (s, none)
      | _ + 1 =>
        let (port, ports) := s.ports.getNextPort
        ({ createCustomTransport env { s with ports } port security with muxPort := port },
          some (port, port))
  else
    match s.ports.count with
    | 0 => (s, none)
    | _ + 1 =>
      let (port, ports) := s.ports.getNextEvenPort
      let s := createCustomTransport env { s with ports } port security
      (createCustomTransport env s (port + 1) security, some (port, port + 1))

/-! ### Creation and removal -/

/-- What `create_media_stream` is given, but for the sender. -/
structure Request where
  mt : MediaType
  mid : Text
  security : Bool
  sid : Text
  tid : Text
  transMode : TransMode
  rtcpMux : Bool

/-- `create_media_stream` with its transports. -/
def addMediaStream (r : Request) : RtpSession × Option (UInt16 × UInt16) → RtpSession × Bool
  | (s, none) => (s, false)
  | (s, some (rtp, rtcp)) =>
    if s.mediaStreams.any (·.mid = r.mid) then (s, false)
    else
      let setIce (tp : Transport) : Transport :=
        { tp with localIceUfrag := s.iceUfrag, localIcePwd := s.icePwd }
      let ms := { MediaStream.create r.mt r.transMode rtp rtcp (env.random s.drawn)
        (env.random (s.drawn + 1)) with
        mid := r.mid
        security := r.security
        msidSid := r.sid
        msidTid := r.tid
        localIceUfrag := s.iceUfrag
        localIcePwd := s.icePwd
        localIceOptions := s.iceOptions
        cname := s.cname }
      let s := (s.updateTransport rtp setIce).updateTransport rtcp setIce
      ({ s with drawn := s.drawn + 2, mediaStreams := s.mediaStreams ++ [ms] }, true)

/-- `try_remove_transport` while the caller holds on to a stream. -/
def tryRemoveTransportOf (ms : MediaStream) (port : UInt16) : RtpSession :=
  { tryRemoveTransport { s with mediaStreams := ms :: s.mediaStreams } port with
    mediaStreams := s.mediaStreams }

/-- `remove_media_stream_by_mid`; `none` is the use of the null pointer of a stream that was
not found. -/
def removeMediaStreamByMid (mid : Text) : Option RtpSession :=
  match s.mediaStreams.find? (·.mid = mid) with
  | none => none
  | some ms =>
    let s := { s with mediaStreams := s.mediaStreams.eraseP (·.mid = mid) }
    let s := s.tryRemoveTransportOf ms ms.rtpTransport
    some (if ms.rtpTransport = ms.rtcpTransport then s
      else s.tryRemoveTransportOf ms ms.rtcpTransport)

inductive Op
  | create (r : Request)
  | createCustom (r : Request)
  | remove (mid : Text)

/-- A call and what it returns. -/
def step (s : RtpSession) : Op → Option (RtpSession × List Bool)
  | .create r =>
    let (s, ok) := addMediaStream env r (createTransportPair env s r.security r.rtcpMux)
    some (s, [ok])
  | .createCustom r =>
    let (s, ok) := addMediaStream env r (createCustomPair env s r.security)
    some (s, [ok])
  | .remove mid => (s.removeMediaStreamByMid mid).map fun s => (s, [true])

/-- `create_media_stream` of an offer, which the caller adds to the session. -/
theorem createMediaStream_eq (r : Request) {s' : RtpSession} {ms : MediaStream}
    (h : createMediaStream env s r.mt r.mid r.security r.sid r.tid r.transMode r.rtcpMux =
      some (s', ms)) :
    addMediaStream env r (createTransportPair env s r.security r.rtcpMux) =
      ({ s' with mediaStreams := s'.mediaStreams ++ [ms] }, true) := by
  unfold createMediaStream at h
  obtain ⟨⟨t, pair⟩, ht⟩ : ∃ x, x = createTransportPair env s r.security r.rtcpMux := ⟨_, rfl⟩
  rw [← ht] at h ⊢
  rcases pair with _ | ⟨rtp, rtcp⟩
  · cases h
  · dsimp only at h
    unfold addMediaStream
    dsimp only
    split_ifs at h ⊢ with hmid
    cases h
    rfl

/-! ### What a session has open -/

def portList : List UInt16 := s.transports.map Transport.localPort

def portsOf (ms : MediaStream) : List UInt16 :=
  [ms.rtpTransport, ms.rtcpTransport]

/-- Each port once, the ports of the live streams and no others, and without port
multiplexing none for two streams. -/
structure Sound : Prop where
  nodup : s.portList.Nodup
  exact : ∀ port, port ∈ s.portList ↔ ∃ ms ∈ s.mediaStreams, port ∈ portsOf ms
  apart : s.isPortMux = false →
    s.mediaStreams.Pairwise fun a b => ∀ port ∈ portsOf a, port ∉ portsOf b

/-! ### When an operation keeps the ports in order -/

/-- The first port on offer that has a transport or can be opened: if it has one, `reuse`, and
else `fresh`. The arguments are the rounds, the sockets asked for and the allocator. -/
def singleOrderly (opens : ℕ → UInt16 → Bool) (held : List UInt16) (reuse fresh : Bool) :
    ℕ → ℕ → PortRange → Bool
  | 0, _, _ => true
  | n + 1, k, ports =>
    let (port, ports) := ports.getNextPort
    if held.contains port then reuse
    else if opens k port then fresh
    else singleOrderly opens held reuse fresh n (k + 1) ports

/-- For pairs, the second port can also be opened where the first one can, and has a transport
where the first one has one that is taken. -/
def pairOrderly (opens : ℕ → UInt16 → Bool) (held : List UInt16) (reuse fresh : Bool) :
    ℕ → ℕ → PortRange → Bool
  | 0, _, _ => true
  | n + 1, k, ports =>
    let (port, ports) := ports.getNextEvenPort
    if held.contains port then
      if held.contains (port + 1) then reuse
      else !opens k (port + 1) && pairOrderly opens held reuse fresh n (k + 1) ports
    else if opens k port then
      !held.contains (port + 1) && opens (k + 1) (port + 1) && fresh
    else pairOrderly opens held reuse fresh n (k + 1) ports

/-- A creation opens transports only if its `mid` is not in use, and takes over transports
that are there only if it is, or with port multiplexing. -/
def orderlyCreate (opens : ℕ → UInt16 → Bool) (rtcpMux : Bool) (mid : Text) : Bool :=
  let inUse := s.mediaStreams.any (·.mid = mid)
  if s.isPortMux then
    s.muxPort > 0 || singleOrderly opens s.portList true (!inUse) s.ports.count s.opened s.ports
  else if rtcpMux then
    singleOrderly opens s.portList inUse (!inUse) s.ports.count s.opened s.ports
  else pairOrderly opens s.portList inUse (!inUse) s.ports.count s.opened s.ports

/-- The stream with this `mid` is there, and other streams use its transports. -/
def orderlyRemove (mid : Text) : Bool :=
  match s.mediaStreams.find? (·.mid = mid) with
  | none => false
  | some ms =>
    let others := s.mediaStreams.eraseP (·.mid = mid)
    (portsOf ms).all fun port => others.any fun other => (portsOf other).contains port

def Orderly (s : RtpSession) : Op → Bool
  | .create r => s.orderlyCreate env.opens r.rtcpMux r.mid
  | .createCustom r => s.orderlyCreate (fun _ _ => true) false r.mid
  | .remove mid => s.orderlyRemove mid

/-- What the first of some rounds for one port asks for. -/
theorem singleOrderly_succ {opens : ℕ → UInt16 → Bool} {held : List UInt16} {reuse fresh : Bool}
    {n k : ℕ} {ports rest : PortRange} {port : UInt16} (hnext : ports.getNextPort = (port, rest))
    (h : singleOrderly opens held reuse fresh (n + 1) k ports = true) :
    (held.contains port = true → reuse = true) ∧
      (held.contains port = false → opens k port = true → fresh = true) ∧
      (held.contains port = false → opens k port = false →
        singleOrderly opens held reuse fresh n (k + 1) rest = true) := by
  unfold singleOrderly at h
  rw [hnext] at h
  cases hheld : held.contains port <;> cases hopens : opens k port <;> simp_all

/-- What the first of some rounds for two ports asks for. -/
theorem pairOrderly_succ {opens : ℕ → UInt16 → Bool} {held : List UInt16} {reuse fresh : Bool}
    {n k : ℕ} {ports rest : PortRange} {port : UInt16}
    (hnext : ports.getNextEvenPort = (port, rest))
    (h : pairOrderly opens held reuse fresh (n + 1) k ports = true) :
    (held.contains port = true → held.contains (port + 1) = true → reuse = true) ∧
      (held.contains port = true → held.contains (port + 1) = false →
        opens k (port + 1) = false ∧ pairOrderly opens held reuse fresh n (k + 1) rest = true) ∧
      (held.contains port = false → opens k port = true → held.contains (port + 1) = false ∧
        opens (k + 1) (port + 1) = true ∧ fresh = true) ∧
      (held.contains port = false → opens k port = false →
        pairOrderly opens held reuse fresh n (k + 1) rest = true) := by
  unfold pairOrderly at h
  rw [hnext] at h
  cases hheld : held.contains port <;> cases hnextHeld : held.contains (port + 1) <;>
    cases hopens : opens k port <;> simp_all

/-- The rounds of an orderly creation, with and without port multiplexing. -/
theorem orderlyCreate_rounds {s : RtpSession} {opens : ℕ → UInt16 → Bool} {rtcpMux : Bool}
    {mid : Text} (h : s.orderlyCreate opens rtcpMux mid = true) {reuse fresh : Bool}
    (hreuse : reuse = (s.isPortMux || s.mediaStreams.any (·.mid = mid)))
    (hfresh : fresh = !s.mediaStreams.any (·.mid = mid)) :
    (s.isPortMux = true → ¬s.muxPort > 0 →
        singleOrderly opens s.portList reuse fresh s.ports.count s.opened s.ports = true) ∧
      (s.isPortMux = false → rtcpMux = true →
        singleOrderly opens s.portList reuse fresh s.ports.count s.opened s.ports = true) ∧
      (s.isPortMux = false → rtcpMux = false →
        pairOrderly opens s.portList reuse fresh s.ports.count s.opened s.ports = true) := by
  unfold orderlyCreate at h
  dsimp only at h
  rw [← hfresh] at h
  refine ⟨fun hmux hport => ?_, fun hmux hrtcp => ?_, fun hmux hrtcp => ?_⟩
  · rw [if_pos hmux, decide_eq_false hport, Bool.false_or] at h
    rwa [hreuse, hmux, Bool.true_or]
  · rw [hmux, if_neg Bool.false_ne_true, if_pos hrtcp] at h
    rwa [hreuse, hmux, Bool.false_or]
  · rw [hmux, if_neg Bool.false_ne_true, hrtcp, if_neg Bool.false_ne_true] at h
    rwa [hreuse, hmux, Bool.false_or]

/-! ### The transports of one creation -/

/-- The transports of the ports `new` have come behind the others, and nothing else has
changed that matters. -/
structure Grown (s s' : RtpSession) (new : List UInt16) : Prop where
  streams : s'.mediaStreams = s.mediaStreams
  mux : s'.isPortMux = s.isPortMux
  muxPort : s'.muxPort = s.muxPort
  ports : s'.portList = s.portList ++ new

theorem Grown.refl (s : RtpSession) : Grown s s [] :=
  ⟨rfl, rfl, rfl, (List.append_nil _).symm⟩

theorem Grown.trans {s t u : RtpSession} {new : List UInt16} (h : Grown s t [])
    (h' : Grown t u new) : Grown s u new :=
  ⟨h'.streams.trans h.streams, h'.mux.trans h.mux, h'.muxPort.trans h.muxPort, by
    rw [h'.ports, h.ports, List.append_nil]⟩

theorem Grown.append {s t u : RtpSession} {p q : UInt16} (h : Grown s t [p])
    (h' : Grown t u [q]) : Grown s u [p, q] :=
  ⟨h'.streams.trans h.streams, h'.mux.trans h.mux, h'.muxPort.trans h.muxPort, by
    rw [h'.ports, h.ports, List.append_assoc]; rfl⟩

@[simp] theorem enableDtls_localPort (enabled : Bool) (tp : Transport) :
    (enableDtls env enabled tp).localPort = tp.localPort := rfl

theorem any_localPort (port : UInt16) :
    (s.transports.any (·.localPort = port)) = s.portList.contains port := by
  rw [Bool.eq_iff_iff, List.any_eq_true, List.contains_iff_mem, portList, List.mem_map]
  simp only [decide_eq_true_eq]

/-- What `create_transport` can do. -/
theorem createTransport_cases (port : UInt16) (security : Bool) :
    (s.portList.contains port = true ∧ createTransport env s port security = (s, true)) ∨
      (s.portList.contains port = false ∧ env.opens s.opened port = true ∧ ∃ s',
        createTransport env s port security = (s', true) ∧ Grown s s' [port] ∧
          s'.opened = s.opened + 1 ∧ s'.ports = s.ports) ∨
      (s.portList.contains port = false ∧ env.opens s.opened port = false ∧ ∃ s',
        createTransport env s port security = (s', false) ∧ Grown s s' [] ∧
          s'.opened = s.opened + 1 ∧ s'.ports = s.ports) := by
  unfold createTransport
  rw [any_localPort]
  cases hheld : s.portList.contains port with
  | true => exact .inl ⟨rfl, rfl⟩
  | false =>
    dsimp only
    cases hopens : env.opens s.opened port with
    | true =>
      refine .inr (.inl ⟨rfl, rfl, _, rfl, ⟨rfl, rfl, rfl, ?_⟩, rfl, rfl⟩)
      exact List.map_append
    | false =>
      refine .inr (.inr ⟨rfl, rfl, _, rfl, ⟨rfl, rfl, rfl, ?_⟩, rfl, rfl⟩)
      exact (List.append_nil _).symm

/-- The ports of a creation: those of transports that were there, or of new ones behind them. -/
def Allocated (reuse fresh : Bool) (s s' : RtpSession) (ports : List UInt16) : Prop :=
  (reuse = true ∧ Grown s s' [] ∧ ∀ port ∈ ports, port ∈ s.portList) ∨
    (fresh = true ∧ ∃ new, new.Nodup ∧ Grown s s' new ∧ (∀ port, port ∈ new ↔ port ∈ ports) ∧
      ∀ port ∈ new, port ∉ s.portList)

theorem Allocated.of_grown {reuse fresh : Bool} {s t u : RtpSession} {ports : List UInt16}
    (h : Grown s t []) (h' : Allocated reuse fresh t u ports) :
    Allocated reuse fresh s u ports := by
  have hports : t.portList = s.portList := by rw [h.ports, List.append_nil]
  rcases h' with ⟨hr, hg, hin⟩ | ⟨hf, new, hnd, hg, hmem, hout⟩
  · exact .inl ⟨hr, h.trans hg, by rw [← hports]; exact hin⟩
  · exact .inr ⟨hf, new, hnd, h.trans hg, hmem, by rw [← hports]; exact hout⟩

theorem Grown.setPorts (s : RtpSession) (ports : PortRange) : Grown s { s with ports } [] :=
  ⟨rfl, rfl, rfl, (List.append_nil _).symm⟩

theorem singleLoop_allocated {reuse fresh : Bool} (security : Bool) {n : ℕ} {s : RtpSession}
    (h : singleOrderly env.opens s.portList reuse fresh n s.opened s.ports = true) :
    ∃ s' port, singleLoop env security n s = (s', port) ∧
      match port with
      | none => Grown s s' []
      | some port => Allocated reuse fresh s s' [port, port] := by
  induction n generalizing s with
  | zero => exact ⟨s, none, rfl, Grown.refl s⟩
  | succ n ih =>
    unfold singleLoop
    obtain ⟨⟨port, ports⟩, hnext⟩ : ∃ x, x = s.ports.getNextPort := ⟨_, rfl⟩
    obtain ⟨hreuse, hfresh, hrest⟩ := singleOrderly_succ hnext.symm h
    rw [← hnext]
    dsimp only
    have hset := Grown.setPorts s ports
    rcases createTransport_cases env { s with ports } port security with
      ⟨hheld, hcreate⟩ | ⟨hheld, hopens, t, hcreate, hgrown, -, -⟩ |
        ⟨hheld, hopens, t, hcreate, hgrown, hopened, hports⟩
    · rw [hcreate]
      refine ⟨_, some port, rfl, .of_grown hset (.inl ⟨hreuse hheld, Grown.refl _, ?_⟩)⟩
      simpa using List.contains_iff_mem.mp hheld
    · rw [hcreate]
      refine ⟨t, some port, rfl, .of_grown hset (.inr ⟨hfresh hheld hopens, [port],
        List.nodup_singleton _, hgrown, by simp, ?_⟩)⟩
      simpa using hheld
    · rw [hcreate]
      have hgrown' := hset.trans hgrown
      have hlist : t.portList = s.portList := by rw [hgrown'.ports, List.append_nil]
      obtain ⟨s', port', hloop, hend⟩ := ih (s := t)
        (by rw [hlist, hopened, hports]; exact hrest hheld hopens)
      refine ⟨s', port', hloop, ?_⟩
      rcases port' with _ | port'
      · exact hgrown'.trans hend
      · exact Allocated.of_grown hgrown' hend

theorem not_mem_of_contains {held : List UInt16} {port : UInt16}
    (h : held.contains port = false) : port ∉ held := by simpa using h

theorem two_not_mem {held : List UInt16} {p q : UInt16} (hp : held.contains p = false)
    (hq : held.contains q = false) : ∀ port ∈ [p, q], port ∉ held :=
  List.forall_mem_cons.mpr
    ⟨not_mem_of_contains hp, List.forall_mem_singleton.mpr (not_mem_of_contains hq)⟩

theorem getNextEvenPort_ne (port : UInt16) : port + 1 ≠ port := by
  intro h
  have hnat := congrArg UInt16.toNat h
  rw [UInt16.toNat_add] at hnat
  have := port.toNat_lt
  simp only [UInt16.reduceToNat] at hnat
  omega

theorem contains_append_succ {held : List UInt16} {port : UInt16}
    (h : held.contains (port + 1) = false) : (held ++ [port]).contains (port + 1) = false := by
  rw [Bool.eq_false_iff, ne_eq, List.contains_iff_mem, List.mem_append, not_or,
    List.mem_singleton]
  exact ⟨not_mem_of_contains h, getNextEvenPort_ne port⟩

/-- A transport that a stream uses is not removed. -/
theorem tryRemoveTransport_used {s : RtpSession} {port : UInt16}
    (h : ∃ ms ∈ s.mediaStreams, port ∈ portsOf ms) : tryRemoveTransport s port = s := by
  unfold tryRemoveTransport
  split
  · rfl
  · rw [if_pos]
    obtain ⟨ms, hms, hport⟩ := h
    rw [Bool.or_eq_true, List.any_eq_true]
    refine .inr ⟨ms, hms, ?_⟩
    simp only [portsOf, List.mem_cons, List.not_mem_nil, or_false] at hport
    rcases hport with rfl | rfl <;> simp

theorem pairLoop_allocated {reuse fresh : Bool} (security : Bool) {n : ℕ} {s : RtpSession}
    (hused : ∀ port ∈ s.portList, ∃ ms ∈ s.mediaStreams, port ∈ portsOf ms)
    (h : pairOrderly env.opens s.portList reuse fresh n s.opened s.ports = true) :
    ∃ s' pair, pairLoop env security n s = (s', pair) ∧
      match pair with
      | none => Grown s s' []
      | some (rtp, rtcp) => Allocated reuse fresh s s' [rtp, rtcp] := by
  induction n generalizing s with
  | zero => exact ⟨s, none, rfl, Grown.refl s⟩
  | succ n ih =>
    unfold pairLoop
    obtain ⟨⟨port, ports⟩, hnext⟩ : ∃ x, x = s.ports.getNextEvenPort := ⟨_, rfl⟩
    obtain ⟨hreuse, hagainHeld, hfresh, hagainFree⟩ := pairOrderly_succ hnext.symm h
    rw [← hnext]
    dsimp only
    have hset := Grown.setPorts s ports
    -- the rounds behind one that brings nothing
    have hagain : ∀ t : RtpSession, Grown s t [] → t.opened = s.opened + 1 → t.ports = ports →
        pairOrderly env.opens s.portList reuse fresh n (s.opened + 1) ports = true →
        ∃ s' pair, pairLoop env security n t = (s', pair) ∧
          match pair with
          | none => Grown s s' []
          | some (rtp, rtcp) => Allocated reuse fresh s s' [rtp, rtcp] := by
      intro t hgrown hopened hports hrest
      have hlist : t.portList = s.portList := by rw [hgrown.ports, List.append_nil]
      obtain ⟨s', pair, hloop, hend⟩ := ih (s := t)
        (by rw [hlist, hgrown.streams]; exact hused)
        (by rw [hlist, hopened, hports]; exact hrest)
      refine ⟨s', pair, hloop, ?_⟩
      rcases pair with _ | ⟨rtp, rtcp⟩
      · exact hgrown.trans hend
      · exact Allocated.of_grown hgrown hend
    rcases createTransport_cases env { s with ports } port security with
      ⟨hheld, hcreate⟩ | ⟨hheld, hopens, t, hcreate, hgrown, hopened, hports⟩ |
        ⟨hheld, hopens, t, hcreate, hgrown, hopened, hports⟩
    · -- the first port has a transport
      rw [hcreate]
      dsimp only
      rw [Bool.not_true, if_neg Bool.false_ne_true]
      rcases createTransport_cases env { s with ports } (port + 1) security with
        ⟨hheld₂, hcreate₂⟩ | ⟨hheld₂, hopens₂, u, hcreate₂, hgrown₂, -, -⟩ |
          ⟨hheld₂, -, u, hcreate₂, hgrown₂, hopened₂, hports₂⟩
      · rw [hcreate₂]
        refine ⟨_, some (port, port + 1), rfl,
          .of_grown hset (.inl ⟨hreuse hheld hheld₂, Grown.refl _, ?_⟩)⟩
        simpa using And.intro (List.contains_iff_mem.mp hheld) (List.contains_iff_mem.mp hheld₂)
      · exact absurd hopens₂ (Bool.eq_false_iff.mp (hagainHeld hheld hheld₂).1)
      · rw [hcreate₂]
        rw [Bool.not_false, if_pos rfl]
        have hgrown' := hset.trans hgrown₂
        rw [tryRemoveTransport_used (by
          rw [hgrown'.streams]; exact hused port (List.contains_iff_mem.mp hheld))]
        exact hagain u hgrown' hopened₂ hports₂ (hagainHeld hheld hheld₂).2
    · -- the first port is opened
      obtain ⟨hheld₂, hopens₂, hf⟩ := hfresh hheld hopens
      have hlist : t.portList = s.portList ++ [port] := hgrown.ports
      rw [hcreate]
      dsimp only
      rw [Bool.not_true, if_neg Bool.false_ne_true]
      rcases createTransport_cases env t (port + 1) security with
        ⟨hheld₃, -⟩ | ⟨-, -, u, hcreate₂, hgrown₂, -, -⟩ | ⟨-, hopens₃, -⟩
      · rw [hlist, contains_append_succ hheld₂] at hheld₃
        cases hheld₃
      · rw [hcreate₂]
        refine ⟨u, some (port, port + 1), rfl, .of_grown hset (.inr ⟨hf, [port, port + 1],
          ?_, hgrown.append hgrown₂, fun _ => Iff.rfl, ?_⟩)⟩
        · simp [(getNextEvenPort_ne port).symm]
        · exact two_not_mem hheld hheld₂
      · rw [hopened] at hopens₃
        exact absurd hopens₂ (Bool.eq_false_iff.mp hopens₃)
    · rw [hcreate]
      exact hagain t (hset.trans hgrown) hopened hports (hagainFree hheld hopens)

theorem createCustomTransport_cases (port : UInt16) (security : Bool) :
    (s.portList.contains port = true ∧ createCustomTransport env s port security = s) ∨
      (s.portList.contains port = false ∧
        Grown s (createCustomTransport env s port security) [port]) := by
  unfold createCustomTransport
  rw [any_localPort]
  cases hheld : s.portList.contains port with
  | true => exact .inl ⟨rfl, rfl⟩
  | false => exact .inr ⟨rfl, rfl, rfl, rfl, List.map_append⟩

/-- What `create_transport_pair` leaves behind. -/
def Paired (reuse fresh : Bool) (s s' : RtpSession) : Option (UInt16 × UInt16) → Prop
  | none => Grown s s' []
  | some (rtp, rtcp) => ∃ t, Allocated reuse fresh s t [rtp, rtcp] ∧
      (s' = t ∨ s' = { t with muxPort := rtp })

/-- The invariant: with a port for all streams, its transport is there. -/
structure Steady (s : RtpSession) : Prop extends Sound s where
  shared : s.isPortMux = true → s.muxPort > 0 → s.portList.contains s.muxPort = true

variable {env s}

theorem createTransportPair_paired (hs : Steady s) (security : Bool) {rtcpMux : Bool} {mid : Text}
    (h : s.orderlyCreate env.opens rtcpMux mid = true) :
    ∃ s' pair, createTransportPair env s security rtcpMux = (s', pair) ∧
      Paired (s.isPortMux || s.mediaStreams.any (·.mid = mid))
        (!s.mediaStreams.any (·.mid = mid)) s s' pair := by
  obtain ⟨hshared, hsingle, hpair⟩ := orderlyCreate_rounds h rfl rfl
  unfold createTransportPair
  by_cases hmux : s.isPortMux = true
  · rw [if_pos hmux]
    split_ifs with hport
    · rcases createTransport_cases env s s.muxPort security with ⟨hheld, hcreate⟩ | ⟨hheld, -⟩ |
        ⟨hheld, -⟩
      · rw [hcreate]
        refine ⟨s, some (s.muxPort, s.muxPort), rfl, s,
          .inl ⟨by rw [hmux, Bool.true_or], Grown.refl s, ?_⟩, .inl rfl⟩
        simpa using List.contains_iff_mem.mp hheld
      · rw [hs.shared hmux hport] at hheld
        cases hheld
      · rw [hs.shared hmux hport] at hheld
        cases hheld
    · obtain ⟨s', port, hloop, hend⟩ := singleLoop_allocated env security (hshared hmux hport)
      rw [hloop]
      rcases port with _ | port
      · exact ⟨s', none, rfl, hend⟩
      · exact ⟨_, some (port, port), rfl, s', hend, .inr rfl⟩
  · rw [if_neg hmux]
    rw [Bool.not_eq_true] at hmux
    by_cases hrtcp : rtcpMux = true
    · rw [if_pos hrtcp]
      obtain ⟨s', port, hloop, hend⟩ := singleLoop_allocated env security (hsingle hmux hrtcp)
      rw [hloop]
      rcases port with _ | port
      · exact ⟨s', none, rfl, hend⟩
      · exact ⟨s', some (port, port), rfl, s', hend, .inl rfl⟩
    · rw [if_neg hrtcp]
      obtain ⟨s', pair, hloop, hend⟩ := pairLoop_allocated env security
        (fun port hport => (hs.exact port).mp hport) (hpair hmux (Bool.not_eq_true _ ▸ hrtcp))
      rw [hloop]
      rcases pair with _ | ⟨rtp, rtcp⟩
      · exact ⟨s', none, rfl, hend⟩
      · exact ⟨s', some (rtp, rtcp), rfl, s', hend, .inl rfl⟩

theorem createCustomPair_paired (env : Env) (hs : Steady s) (security : Bool) {mid : Text}
    (h : s.orderlyCreate (fun _ _ => true) false mid = true) :
    ∃ s' pair, createCustomPair env s security = (s', pair) ∧
      Paired (s.isPortMux || s.mediaStreams.any (·.mid = mid))
        (!s.mediaStreams.any (·.mid = mid)) s s' pair := by
  obtain ⟨hshared, -, hpair⟩ := orderlyCreate_rounds h rfl rfl
  unfold createCustomPair
  by_cases hmux : s.isPortMux = true
  · rw [if_pos hmux]
    split_ifs with hport
    · rcases createCustomTransport_cases env s s.muxPort security with
        ⟨hheld, hcreate⟩ | ⟨hheld, -⟩
      · rw [hcreate]
        refine ⟨s, some (s.muxPort, s.muxPort), rfl, s,
          .inl ⟨by rw [hmux, Bool.true_or], Grown.refl s, ?_⟩, .inl rfl⟩
        simpa using List.contains_iff_mem.mp hheld
      · rw [hs.shared hmux hport] at hheld
        cases hheld
    · have hrounds := hshared hmux hport
      rcases hn : s.ports.count with _ | n
      · exact ⟨s, none, rfl, Grown.refl s⟩
      · rw [hn] at hrounds
        obtain ⟨⟨port, ports⟩, hnext⟩ : ∃ x, x = s.ports.getNextPort := ⟨_, rfl⟩
        obtain ⟨hreuse, hfresh, -⟩ := singleOrderly_succ hnext.symm hrounds
        rw [← hnext]
        refine ⟨_, _, rfl, createCustomTransport env { s with ports } port security,
          .of_grown (Grown.setPorts s ports) ?_, .inr rfl⟩
        rcases createCustomTransport_cases env { s with ports } port security with
          ⟨hheld, hcreate⟩ | ⟨hheld, hgrown⟩
        · rw [hcreate]
          refine .inl ⟨hreuse hheld, Grown.refl _, ?_⟩
          simpa using List.contains_iff_mem.mp hheld
        · refine .inr ⟨hfresh hheld rfl, [port], List.nodup_singleton _, hgrown, by simp, ?_⟩
          simpa using hheld
  · rw [if_neg hmux]
    have hrounds := hpair (Bool.not_eq_true _ ▸ hmux) rfl
    rcases hn : s.ports.count with _ | n
    · exact ⟨s, none, rfl, Grown.refl s⟩
    · rw [hn] at hrounds
      obtain ⟨⟨port, ports⟩, hnext⟩ : ∃ x, x = s.ports.getNextEvenPort := ⟨_, rfl⟩
      obtain ⟨hreuse, hagain, hfresh, -⟩ := pairOrderly_succ hnext.symm hrounds
      rw [← hnext]
      refine ⟨_, _, rfl, _, .of_grown (Grown.setPorts s ports) ?_, .inl rfl⟩
      rcases createCustomTransport_cases env { s with ports } port security with
        ⟨hheld, hcreate⟩ | ⟨hheld, hgrown⟩
      · rw [hcreate]
        rcases createCustomTransport_cases env { s with ports } (port + 1) security with
          ⟨hheld₂, hcreate₂⟩ | ⟨hheld₂, -⟩
        · rw [hcreate₂]
          exact .inl ⟨hreuse hheld hheld₂, Grown.refl _, List.forall_mem_cons.mpr
            ⟨List.contains_iff_mem.mp hheld,
              List.forall_mem_singleton.mpr (List.contains_iff_mem.mp hheld₂)⟩⟩
        · cases (hagain hheld hheld₂).1
      · obtain ⟨hheld₂, -, hf⟩ := hfresh hheld rfl
        have hlist : (createCustomTransport env { s with ports } port security).portList =
          s.portList ++ [port] := hgrown.ports
        rcases createCustomTransport_cases env
          (createCustomTransport env { s with ports } port security) (port + 1) security with
          ⟨hheld₃, -⟩ | ⟨-, hgrown₂⟩
        · rw [hlist, contains_append_succ hheld₂] at hheld₃
          cases hheld₃
        · refine .inr ⟨hf, [port, port + 1], ?_, hgrown.append hgrown₂, fun _ => Iff.rfl, ?_⟩
          · simp [(getNextEvenPort_ne port).symm]
          · exact two_not_mem hheld hheld₂

/-! ### One operation -/

theorem portList_updateTransport (port : UInt16) {f : Transport → Transport}
    (hf : ∀ tp, (f tp).localPort = tp.localPort) :
    (s.updateTransport port f).portList = s.portList := by
  rw [portList, updateTransport, List.map_map]
  refine List.map_congr_left fun tp _ => ?_
  rw [Function.comp_apply]
  split_ifs
  · exact hf tp
  · rfl

/-- What counts for the invariant is the same. -/
theorem Steady.congr {t : RtpSession} (hs : Steady s) (hstreams : t.mediaStreams = s.mediaStreams)
    (hmux : t.isPortMux = s.isPortMux) (hports : t.portList = s.portList)
    (hport : t.isPortMux = true → t.muxPort > 0 → s.portList.contains t.muxPort = true) :
    Steady t where
  nodup := by rw [hports]; exact hs.nodup
  exact := by rw [hports, hstreams]; exact hs.exact
  apart := by rw [hmux, hstreams]; exact hs.apart
  shared h h' := by rw [hports]; exact hport h h'

/-- A stream more, with the transports that were allocated for it. -/
theorem Steady.add {t : RtpSession} (hs : Steady s)
    {new : List UInt16} (hnd : new.Nodup) (hnew : ∀ port ∈ new, port ∉ s.portList)
    (hports : t.portList = s.portList ++ new) {ms : MediaStream}
    (hstreams : t.mediaStreams = s.mediaStreams ++ [ms]) (hmux : t.isPortMux = s.isPortMux)
    (hsub : ∀ port ∈ new, port ∈ portsOf ms)
    (hms : ∀ port ∈ portsOf ms, port ∈ s.portList ∨ port ∈ new)
    (hapart : s.isPortMux = false → ∀ port ∈ portsOf ms, port ∈ new)
    (hport : t.isPortMux = true → t.muxPort > 0 → t.portList.contains t.muxPort = true) :
    Steady t where
  nodup := by
    rw [hports]
    exact List.nodup_append.mpr ⟨hs.nodup, hnd, fun p hp q hq heq => hnew q hq (heq ▸ hp)⟩
  exact port := by
    rw [hports, hstreams, List.mem_append, hs.exact]
    constructor
    · rintro (⟨other, hother, hp⟩ | hp)
      · exact ⟨other, List.mem_append_left _ hother, hp⟩
      · exact ⟨ms, List.mem_append_right _ (List.mem_singleton.mpr rfl), hsub port hp⟩
    · rintro ⟨other, hother, hp⟩
      rcases List.mem_append.mp hother with hother | hother
      · exact .inl ⟨other, hother, hp⟩
      · obtain rfl := List.mem_singleton.mp hother
        exact (hms port hp).imp_left (hs.exact port).mp
  apart h := by
    rw [hmux] at h
    rw [hstreams]
    refine List.pairwise_append.mpr ⟨hs.apart h, List.pairwise_singleton _ _, ?_⟩
    rintro other hother _ hlast port hp hin
    obtain rfl := List.mem_singleton.mp hlast
    exact hnew port (hapart h port hin) ((hs.exact port).mpr ⟨other, hother, hp⟩)
  shared := hport

theorem addMediaStream_cases (env : Env) (r : Request) (s : RtpSession) (rtp rtcp : UInt16) :
    (s.mediaStreams.any (·.mid = r.mid) = true ∧
        addMediaStream env r (s, some (rtp, rtcp)) = (s, false)) ∨
      (s.mediaStreams.any (·.mid = r.mid) = false ∧ ∃ t ms,
        addMediaStream env r (s, some (rtp, rtcp)) = (t, true) ∧ portsOf ms = [rtp, rtcp] ∧
        t.mediaStreams = s.mediaStreams ++ [ms] ∧ t.isPortMux = s.isPortMux ∧
        t.muxPort = s.muxPort ∧ t.portList = s.portList) := by
  unfold addMediaStream
  dsimp only
  split_ifs with h
  · exact .inl ⟨h, rfl⟩
  · refine .inr ⟨Bool.not_eq_true _ ▸ h, _, _, rfl, rfl, rfl, rfl, rfl, ?_⟩
    have hset : ∀ tp : Transport, ({ tp with
      localIceUfrag := s.iceUfrag, localIcePwd := s.icePwd } : Transport).localPort =
        tp.localPort := fun _ => rfl
    exact (portList_updateTransport rtcp hset).trans (portList_updateTransport rtp hset)

theorem addMediaStream_steady (hs : Steady s) (r : Request) {s' : RtpSession}
    {pair : Option (UInt16 × UInt16)}
    (h : Paired (s.isPortMux || s.mediaStreams.any (·.mid = r.mid))
      (!s.mediaStreams.any (·.mid = r.mid)) s s' pair) :
    Steady (addMediaStream env r (s', pair)).1 := by
  rcases pair with _ | ⟨rtp, rtcp⟩
  · have hports : s'.portList = s.portList := by rw [h.ports, List.append_nil]
    refine hs.congr h.streams h.mux hports fun hmux hpos => ?_
    rw [addMediaStream, h.mux] at hmux
    rw [addMediaStream, h.muxPort] at hpos ⊢
    exact hs.shared hmux hpos
  obtain ⟨t, halloc, hs'⟩ := h
  obtain ⟨new, hnd, hgrown, hout, hsub, hmem, hkind⟩ : ∃ new, new.Nodup ∧ Grown s t new ∧
      (∀ port ∈ new, port ∉ s.portList) ∧ (∀ port ∈ new, port ∈ [rtp, rtcp]) ∧
      (∀ port ∈ [rtp, rtcp], port ∈ s.portList ∨ port ∈ new) ∧
      ((new = [] ∧ (s.isPortMux || s.mediaStreams.any (·.mid = r.mid)) = true) ∨
        ((!s.mediaStreams.any (·.mid = r.mid)) = true ∧ ∀ port ∈ [rtp, rtcp], port ∈ new)) := by
    rcases halloc with ⟨hreuse, hgrown, hin⟩ | ⟨hfresh, new, hnd, hgrown, hiff, hout⟩
    · exact ⟨[], List.nodup_nil, hgrown, List.forall_mem_nil _, List.forall_mem_nil _,
        fun port hp => .inl (hin port hp), .inl ⟨rfl, hreuse⟩⟩
    · exact ⟨new, hnd, hgrown, hout, fun port => (hiff port).mp,
        fun port hp => .inr ((hiff port).mpr hp), .inr ⟨hfresh, fun port => (hiff port).mpr⟩⟩
  obtain ⟨hstreams, hmux, hports, hport⟩ : s'.mediaStreams = s.mediaStreams ∧
      s'.isPortMux = s.isPortMux ∧ s'.portList = s.portList ++ new ∧
      (s'.muxPort = s.muxPort ∨ s'.muxPort = rtp) := by
    rcases hs' with rfl | rfl
    · exact ⟨hgrown.streams, hgrown.mux, hgrown.ports, .inl hgrown.muxPort⟩
    · exact ⟨hgrown.streams, hgrown.mux, hgrown.ports, .inr rfl⟩
  have hshared : s'.isPortMux = true → s'.muxPort > 0 →
      (s.portList ++ new).contains s'.muxPort = true := fun h h' => by
    rw [List.contains_iff_mem, List.mem_append]
    rcases hport with hp | hp
    · rw [hp] at h' ⊢
      exact .inl (List.contains_iff_mem.mp (hs.shared (hmux ▸ h) h'))
    · rw [hp]
      exact hmem rtp List.mem_cons_self
  rcases addMediaStream_cases env r s' rtp rtcp with ⟨hin, hadd⟩ |
    ⟨hin, u, ms, hadd, hms, hu, humux, huport, huports⟩
  · rw [hstreams] at hin
    rw [hin] at hkind
    obtain ⟨rfl, -⟩ := hkind.resolve_right fun h => Bool.false_ne_true h.1
    rw [hadd]
    rw [List.append_nil] at hports hshared
    exact hs.congr hstreams hmux hports hshared
  · rw [hstreams] at hin hu
    rw [hadd]
    refine hs.add hnd hout (huports.trans hports) hu (humux.trans hmux) ?_ ?_ (fun hno => ?_)
      (by rw [humux, huport, huports, hports]; exact hshared)
    · rw [hms]; exact hsub
    · rw [hms]; exact hmem
    · rw [hno, hin] at hkind
      rw [hms]
      exact (hkind.resolve_left fun h => Bool.false_ne_true h.2).2

/-- A removed stream still refers to its transports when they are looked at. -/
theorem tryRemoveTransportOf_eq {ms : MediaStream} {port : UInt16} (h : port ∈ portsOf ms) :
    s.tryRemoveTransportOf ms port = s := by
  rw [tryRemoveTransportOf, tryRemoveTransport_used ⟨ms, List.mem_cons_self, h⟩]

/-- The removal of a stream removes no transport. -/
theorem removeMediaStreamByMid_eq (s : RtpSession) (mid : Text) :
    s.removeMediaStreamByMid mid = (s.mediaStreams.find? (·.mid = mid)).map fun _ =>
      { s with mediaStreams := s.mediaStreams.eraseP (·.mid = mid) } := by
  unfold removeMediaStreamByMid
  obtain ⟨found, hfound⟩ : ∃ found, found = s.mediaStreams.find? (·.mid = mid) := ⟨_, rfl⟩
  rw [← hfound]
  rcases found with _ | ms
  · rfl
  · dsimp only
    rw [tryRemoveTransportOf_eq List.mem_cons_self,
      tryRemoveTransportOf_eq (List.mem_cons_of_mem _ List.mem_cons_self), ite_self]
    rfl

theorem eraseP_of_find? {α : Type*} {p : α → Bool} {l : List α} {a : α} (h : l.find? p = some a) :
    ∃ before behind, l = before ++ a :: behind ∧ l.eraseP p = before ++ behind := by
  obtain ⟨ha, before, behind, rfl, hfirst⟩ := List.find?_eq_some_iff_append.mp h
  refine ⟨before, behind, rfl, ?_⟩
  rw [List.eraseP_append_right _ (fun b hb => by simpa using hfirst b hb),
    List.eraseP_cons_of_pos ha]

theorem remove_steady (hs : Steady s) {mid : Text} (h : s.orderlyRemove mid = true) :
    ∃ s', s.removeMediaStreamByMid mid = some s' ∧ Steady s' := by
  rw [removeMediaStreamByMid_eq]
  unfold orderlyRemove at h
  obtain ⟨found, hfound⟩ : ∃ found, found = s.mediaStreams.find? (·.mid = mid) := ⟨_, rfl⟩
  rw [← hfound] at h ⊢
  rcases found with _ | ms
  · cases h
  obtain ⟨before, behind, hlist, herase⟩ := eraseP_of_find? hfound.symm
  dsimp only at h
  rw [herase] at h ⊢
  have hothers : ∀ other ∈ before ++ behind, other ∈ s.mediaStreams := fun other hother => by
    rw [hlist, List.mem_append, List.mem_cons]
    exact (List.mem_append.mp hother).imp_right .inr
  refine ⟨_, rfl, ⟨hs.nodup, fun port => (hs.exact port).trans ⟨fun ⟨other, hother, hp⟩ => ?_,
    fun ⟨other, hother, hp⟩ => ⟨other, hothers other hother, hp⟩⟩, fun hmux => ?_⟩, hs.shared⟩
  · rw [hlist, List.mem_append, List.mem_cons, or_left_comm, ← List.mem_append] at hother
    rcases hother with rfl | hother
    · obtain ⟨user, huser, hport⟩ := List.any_eq_true.mp (List.all_eq_true.mp h port hp)
      exact ⟨user, huser, List.contains_iff_mem.mp hport⟩
    · exact ⟨other, hother, hp⟩
  · have hpair := hs.apart hmux
    rw [hlist] at hpair
    exact hpair.sublist ((List.sublist_cons_self ms behind).append_left before)

/-- Every orderly operation goes through and keeps the invariant. -/
theorem step_steady (hs : Steady s) {op : Op} (h : Orderly env s op = true) :
    ∃ s' ok, step env s op = some (s', ok) ∧ Steady s' := by
  cases op with
  | create r =>
    obtain ⟨s', pair, hpair, hpaired⟩ := createTransportPair_paired hs r.security h
    refine ⟨_, _, rfl, ?_⟩
    rw [hpair]
    exact addMediaStream_steady hs r hpaired
  | createCustom r =>
    obtain ⟨s', pair, hpair, hpaired⟩ :=
      createCustomPair_paired env hs r.security h
    refine ⟨_, _, rfl, ?_⟩
    rw [hpair]
    exact addMediaStream_steady hs r hpaired
  | remove mid =>
    obtain ⟨s', hremove, hs'⟩ := remove_steady hs h
    exact ⟨s', [true], by rw [step, hremove]; rfl, hs'⟩

/-- Without port multiplexing every removal breaks the order. -/
theorem remove_not_sound (hs : Steady s) (hmux : s.isPortMux = false) {mid : Text}
    {s' : RtpSession} (h : s.removeMediaStreamByMid mid = some s') : ¬Sound s' := by
  rw [removeMediaStreamByMid_eq] at h
  obtain ⟨ms, hfound, rfl⟩ := Option.map_eq_some_iff.mp h
  obtain ⟨before, behind, hlist, herase⟩ := eraseP_of_find? hfound
  intro hsound
  have hport : ms.rtpTransport ∈ s.portList := (hs.exact _).mpr
    ⟨ms, by rw [hlist]; simp, List.mem_cons_self⟩
  obtain ⟨other, hother, hp⟩ := (hsound.exact ms.rtpTransport).mp hport
  rw [herase] at hother
  have hpair := hs.apart hmux
  rw [hlist, List.pairwise_append] at hpair
  rcases List.mem_append.mp hother with hother | hother
  · exact hpair.2.2 other hother ms List.mem_cons_self _ hp List.mem_cons_self
  · exact (List.pairwise_cons.mp hpair.2.1).1 other hother _ List.mem_cons_self hp

/-- A session before its first stream. -/
structure Fresh (s : RtpSession) : Prop where
  streams : s.mediaStreams = []
  transports : s.transports = []
  muxPort : s.muxPort = 0

theorem Fresh.steady (h : Fresh s) : Steady s where
  nodup := by rw [portList, h.transports]; exact List.nodup_nil
  exact port := by rw [portList, h.transports, h.streams]; simp
  apart _ := by rw [h.streams]; exact List.Pairwise.nil
  shared _ hpos := absurd hpos (by rw [h.muxPort]; decide)

/-- In a run of orderly operations no call goes wrong, and after each of them the session has
open what its streams use. -/
theorem transports_sound {s : RtpSession} (h : Fresh s) {ops : List Op}
    (hok : RunOk (step env) (fun s op => Orderly env s op = true) s ops) {done : List Op}
    (hdone : done <+: ops) : ∃ t out, run (step env) s done = some (t, out) ∧ Sound t := by
  obtain ⟨rest, rfl⟩ := hdone
  replace hok := hok.append_left
  suffices hrun : ∀ s : RtpSession, Steady s →
      RunOk (step env) (fun s op => Orderly env s op = true) s done →
      ∃ t out, run (step env) s done = some (t, out) ∧ Steady t by
    obtain ⟨t, out, hr, ht⟩ := hrun s h.steady hok
    exact ⟨t, out, hr, ht.toSound⟩
  clear hok h s
  induction done with
  | nil => exact fun s hs _ => ⟨s, [], rfl, hs⟩
  | cons op ops ih =>
    rintro s hs ⟨hop, hrest⟩
    obtain ⟨s', ok, hstep, hs'⟩ := step_steady hs hop
    obtain ⟨t, out, hr, ht⟩ := ih s' hs' (hrest _ hstep)
    exact ⟨t, _, run_cons_eq_some.mpr ⟨s', ok, out, hstep, hr, rfl⟩, ht⟩

private def allOpen : Env := ⟨fun _ _ => true, none, fun n => UInt32.ofNat n + 1⟩

private def noStreams : RtpSession :=
  { isPortMux := false, cname := text "c", iceUfrag := text "u", icePwd := text "p" }

private def audioOf (mid : String) (rtcpMux : Bool) : Request :=
  ⟨.audio, text mid, false, text "s", text "t", .sendrecv, rtcpMux⟩

theorem transports_sound_two :
    ∃ t out, run (step allOpen) noStreams
      [.create (audioOf "0" true), .create (audioOf "1" false)] = some (t, out) ∧ Sound t :=
  transports_sound (s := noStreams) ⟨rfl, rfl, rfl⟩ (by decide +kernel)
    (List.prefix_refl _)

/-- A transport is left behind, an unknown stream ends the program, and behind the end of the
port range a third stream gets the transport of the first one. -/
theorem transports_left_and_shared :
    (∃ t out, run (step allOpen) noStreams [.create (audioOf "0" true), .remove (text "0")] =
        some (t, out) ∧ t.mediaStreams = [] ∧ t.portList = [40000] ∧ ¬Sound t) ∧
      run (step allOpen) noStreams [.remove (text "0")] = none ∧
      ∃ t out, run (step allOpen) { noStreams with ports := ⟨40000, 40001, 40000⟩ }
        [.create (audioOf "0" true), .create (audioOf "1" true), .create (audioOf "2" true)] =
          some (t, out) ∧ t.isPortMux = false ∧
        t.mediaStreams.map portsOf = [[40000, 40000], [40001, 40001], [40000, 40000]] ∧
        ¬Sound t := by
  refine ⟨?_, rfl, ?_⟩
  · have h : (run (step allOpen) noStreams
        [.create (audioOf "0" true), .remove (text "0")]).map (fun x =>
          (x.1.mediaStreams.length, x.1.portList)) = some (0, [40000]) := by decide +kernel
    obtain ⟨⟨t, out⟩, hrun, ht⟩ := Option.map_eq_some_iff.mp h
    obtain ⟨hlen, hports⟩ := Prod.mk.inj ht
    have hnil := List.length_eq_zero_iff.mp hlen
    refine ⟨t, out, hrun, hnil, hports, fun hsound => ?_⟩
    obtain ⟨ms, hms, -⟩ := (hsound.exact 40000).mp (by rw [hports]; exact List.mem_cons_self)
    rw [hnil] at hms
    cases hms
  · have h : (run (step allOpen) { noStreams with ports := ⟨40000, 40001, 40000⟩ }
        [.create (audioOf "0" true), .create (audioOf "1" true), .create (audioOf "2" true)]).map
        (fun x => (x.1.isPortMux, x.1.mediaStreams.map portsOf)) =
          some (false, [[40000, 40000], [40001, 40001], [40000, 40000]]) := by decide +kernel
    obtain ⟨⟨t, out⟩, hrun, ht⟩ := Option.map_eq_some_iff.mp h
    obtain ⟨hmux, hports⟩ := Prod.mk.inj ht
    refine ⟨t, out, hrun, hmux, hports, fun hsound => ?_⟩
    have hpair : (t.mediaStreams.map portsOf).Pairwise fun a b => ∀ port ∈ a, port ∉ b :=
      List.pairwise_map.mpr (hsound.apart hmux)
    rw [hports] at hpair
    exact (List.pairwise_cons.mp hpair).1 [40000, 40000]
      (List.mem_cons_of_mem _ List.mem_cons_self) 40000 List.mem_cons_self List.mem_cons_self

end RtpSession

end CxxDeps.Session
