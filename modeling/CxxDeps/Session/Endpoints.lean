import CxxDeps.Sdp.Sections
import CxxDeps.Session.Negotiation

/-! The endpoints of the remote party (`media_stream::set_remote_sdp`, rtpx/media_stream.cpp).
Unless both kinds of packets share a port, the RTCP endpoint is taken to be the RTP endpoint of
the section: the address and port of an `a=rtcp` line are only tested. -/

namespace CxxDeps.Session

open Sys Sdp
open Stun (Address Endpoint)

/-- `asio::ip::udp::endpoint::endpoint`. -/
def anyEndpoint : Endpoint := ⟨.v4 #v[0, 0, 0, 0], 0⟩

/-- Where a stream sends its packets, and how good these places are. -/
structure Endpoints where
  rtpPriority : ℤ := -1
  rtp : Endpoint := anyEndpoint
  rtcpPriority : ℤ := -1
  rtcp : Endpoint := anyEndpoint

namespace Endpoints

/-- `remote_rtp_endpoint`. -/
def remoteRtpEndpoint (e : Endpoints) : Option Endpoint :=
  if e.rtpPriority < 0 then none else some e.rtp

/-- `remote_rtcp_endpoint`. -/
def remoteRtcpEndpoint (e : Endpoints) : Option Endpoint :=
  if e.rtcpPriority < 0 then none else some e.rtcp

/-- The end of `set_remote_sdp`; `fromString` is `asio::ip::address::from_string`, whose
address is `0.0.0.0` when it fails. -/
def setRemote (fromString : Text → Option Address) (e : Endpoints) (sdp : Media) : Endpoints :=
  let rtpAddress := fromString sdp.rtpAddress
  let ep : Endpoint := ⟨rtpAddress.getD anyEndpoint.address, UInt16.ofInt sdp.rtpPort⟩
  let e := if rtpAddress.isSome then { e with rtpPriority := 0, rtp := ep } else e
  if sdp.rtcpMux then { e with rtcpPriority := e.rtpPriority, rtcp := e.rtp }
  else if (fromString sdp.rtcpAddress).isSome then { e with rtcpPriority := 0, rtcp := ep }
  else e

end Endpoints

/-- `set_remote_sdp` for an answer. -/
def MediaStream.acceptAnswer (ms : MediaStream) (sdp : Media) : Option MediaStream :=
  if sdp.setup = .none then none
  else
    let ms := { ms with
      remoteIceUfrag := sdp.iceUfrag
      remoteIcePwd := sdp.icePwd
      remoteIceOptions := sdp.iceOptions
      remoteRtpSsrc := (sdp.ssrcs[0]?.map Ssrc.ssrc).getD ms.remoteRtpSsrc
      remoteRtxSsrc := (sdp.ssrcs[1]?.map Ssrc.ssrc).getD ms.remoteRtxSsrc
      remoteSetup := sdp.setup }
    (ms.negotiate sdp).map fun ms => { ms with
      remoteCandidates := if sdp.candidates ≠ [] then sdp.candidates else ms.remoteCandidates }

/-- `set_remote_sdp` with the endpoints; `none` is its `false`. -/
def setRemoteSection (fromString : Text → Option Address) (type : SdpType)
    (st : MediaStream × Endpoints) (sdp : Media) : Option (MediaStream × Endpoints) :=
  let ms :=
    match type with
    | .offer => st.1.setRemoteSdp sdp
    | .answer => st.1.acceptAnswer sdp
    | .unknown => none
  ms.map fun ms => (ms, if sdp.candidates = [] then st.2.setRemote fromString sdp else st.2)

/-! ### Where the peer is -/

/-- The RTP endpoint is the address with the port of the `m=` line, and the RTCP endpoint the
one of the lines of the section. -/
def Reaches (fromString : Text → Option Address) (sec : Section) (address : Text)
    (e : Endpoints) : Prop :=
  ∃ a, fromString address = some a ∧
    e.remoteRtpEndpoint = some ⟨a, UInt16.ofInt (headerPort sec.header)⟩ ∧
    if muxed sec.fields then e.remoteRtcpEndpoint = e.remoteRtpEndpoint
    else
      match rtcpLine sec.fields with
      | some (port, host) =>
        ∃ b, fromString host = some b ∧ e.remoteRtcpEndpoint = some ⟨b, UInt16.ofInt port⟩
      | none => e.remoteRtcpEndpoint = some ⟨a, UInt16.ofInt (headerPort sec.header + 1)⟩

/-- The address can be read, and both kinds of packets go to one place; or no address is read
for RTCP and its endpoint is the next port already. `sessionAddress` is the one of the session. -/
def OnePlace (fromString : Text → Option Address) (sec : Section) (address sessionAddress : Text)
    (e : Endpoints) : Prop :=
  ∃ a, fromString address = some a ∧
    (muxed sec.fields = true ∨
      match rtcpLine sec.fields with
      | some (port, host) =>
        fromString host = some a ∧ UInt16.ofInt port = UInt16.ofInt (headerPort sec.header)
      | none => fromString sessionAddress = none ∧
        e.remoteRtcpEndpoint = some ⟨a, UInt16.ofInt (headerPort sec.header + 1)⟩)

variable {fromString : Text → Option Address}

theorem setRemoteSection_endpoints {type : SdpType} {st t : MediaStream × Endpoints} {sdp : Media}
    (hc : sdp.candidates = []) (h : setRemoteSection fromString type st sdp = some t) :
    t.2 = st.2.setRemote fromString sdp := by
  obtain ⟨ms, -, rfl⟩ := Option.map_eq_some_iff.mp h
  exact if_pos hc

theorem ofInt_succ_ne (n : ℤ) : UInt16.ofInt (n + 1) ≠ UInt16.ofInt n := by
  rw [UInt16.ofInt_add]
  simp

section Set

variable {sdp : Media} {a : Address} (e : Endpoints)

theorem setRemote_rtp (ha : fromString sdp.rtpAddress = some a) :
    (e.setRemote fromString sdp).remoteRtpEndpoint = some ⟨a, UInt16.ofInt sdp.rtpPort⟩ := by
  unfold Endpoints.setRemote
  dsimp only
  rw [ha, if_pos (show (some a).isSome = true from rfl)]
  split_ifs <;> rfl

theorem setRemote_rtpPriority (ha : fromString sdp.rtpAddress = some a) :
    (e.setRemote fromString sdp).rtpPriority = 0 := by
  unfold Endpoints.setRemote
  dsimp only
  rw [ha, if_pos (show (some a).isSome = true from rfl)]
  split_ifs <;> rfl

theorem setRemote_rtcp_mux (hmux : sdp.rtcpMux = true) :
    (e.setRemote fromString sdp).remoteRtcpEndpoint =
      (e.setRemote fromString sdp).remoteRtpEndpoint := by
  unfold Endpoints.setRemote
  dsimp only
  rw [if_pos hmux]
  rfl

/-- The address of RTCP is read, and the endpoint of RTP is set. -/
theorem setRemote_rtcp_plain (hmux : sdp.rtcpMux = false)
    (ha : fromString sdp.rtpAddress = some a) :
    (e.setRemote fromString sdp).remoteRtcpEndpoint =
      (fromString sdp.rtcpAddress).elim e.remoteRtcpEndpoint
        fun _ => some ⟨a, UInt16.ofInt sdp.rtpPort⟩ := by
  unfold Endpoints.setRemote
  dsimp only
  rw [hmux, ha]
  rcases fromString sdp.rtcpAddress with _ | b <;> rfl

end Set

/-- The endpoints of a section that was read and taken over. -/
theorem reaches_taken_iff {x y : Sdp} {s : Text} {i : ℕ} {sec : Section} {m : Media}
    {address : Text} (hy : parse x s = some y) (hsec : (sections (fieldsOf s))[i]? = some sec)
    (hm : y.medias[i]? = some m)
    (haddress : (connection sec.fields).or (connection (upToMedia (fieldsOf s))) = some address)
    (hc : m.candidates = []) {type : SdpType} {st t : MediaStream × Endpoints}
    (h : setRemoteSection fromString type st m = some t) :
    Reaches fromString sec address t.2 ↔ OnePlace fromString sec address
      ((connection (upToMedia (fieldsOf s))).getD x.address) st.2 := by
  obtain ⟨hport, hrtp, hrtcp, hmux⟩ := (parse_medias hy).2 i sec m hsec hm
  have hread : m.rtpAddress = address := by
    rw [hrtp]
    rcases hsection : connection sec.fields with _ | b
    · rw [hsection, Option.none_or] at haddress
      rw [haddress]
      rfl
    · rw [hsection] at haddress
      exact Option.some.inj haddress
  rw [setRemoteSection_endpoints hc h]
  unfold Reaches OnePlace
  refine exists_congr fun a => and_congr_right fun ha => ?_
  rw [← hread] at ha
  have hset := setRemote_rtp st.2 ha
  rw [hport] at hset
  rw [and_iff_right hset]
  by_cases hmuxed : muxed sec.fields = true
  · rw [if_pos hmuxed]
    exact iff_of_true (setRemote_rtcp_mux st.2 (hmux.trans hmuxed)) (.inl hmuxed)
  have hplain := setRemote_rtcp_plain st.2 (hmux.trans (Bool.eq_false_iff.mpr hmuxed)) ha
  rw [hport, hrtcp] at hplain
  rw [if_neg hmuxed, or_iff_right hmuxed, hplain]
  rcases rtcpLine sec.fields with _ | ⟨port, host⟩
  · dsimp only [Option.map_none, Option.getD_none]
    rcases fromString ((connection (upToMedia (fieldsOf s))).getD x.address) with _ | b
    · exact (and_iff_right rfl).symm
    · refine iff_of_false (fun heq => ?_) fun hn => Option.some_ne_none b hn.1
      exact ofInt_succ_ne _ (congrArg Endpoint.port (Option.some.inj heq)).symm
  · dsimp only [Option.map_some, Option.getD_some]
    rcases fromString host with _ | b
    · exact iff_of_false (fun ⟨b, hb, _⟩ => absurd hb (by simp)) fun hn => absurd hn.1 (by simp)
    · constructor
      · rintro ⟨c, hb, heq⟩
        obtain ⟨rfl, hp⟩ := Endpoint.mk.inj (Option.some.inj heq)
        exact ⟨hb, hp.symm⟩
      · rintro ⟨hb, hp⟩
        exact ⟨a, hb, by rw [hp]; rfl⟩

/-- After `parse` and a `set_remote_sdp` that succeeds, both endpoints are those of the lines of
the section exactly when each line of a source names one, so that `parse` is defined, and the
section gives one place for both. -/
theorem reaches_iff (x : Sdp) (s : Text) {i : ℕ} {sec : Section} {address : Text}
    (hsec : (sections (fieldsOf s))[i]? = some sec)
    (haddress : (connection sec.fields).or (connection (upToMedia (fieldsOf s))) = some address)
    {type : SdpType} {st : MediaStream × Endpoints}
    (hok : ∀ y m, parse x s = some y → y.medias[i]? = some m →
      m.candidates = [] ∧ (setRemoteSection fromString type st m).isSome) :
    (∃ y m t, parse x s = some y ∧ y.medias[i]? = some m ∧
      setRemoteSection fromString type st m = some t ∧ Reaches fromString sec address t.2) ↔
    Sourced s ∧ OnePlace fromString sec address
      ((connection (upToMedia (fieldsOf s))).getD x.address) st.2 := by
  rw [← parse_isSome x]
  constructor
  · rintro ⟨y, m, t, hy, hm, ht, hreaches⟩
    have hc := (hok y m hy hm).1
    exact ⟨Option.isSome_iff_exists.mpr ⟨y, hy⟩,
      (reaches_taken_iff hy hsec hm haddress hc ht).mp hreaches⟩
  · rintro ⟨hsome, hplace⟩
    obtain ⟨y, hy⟩ := Option.isSome_iff_exists.mp hsome
    have hi : i < y.medias.length := by
      rw [(parse_medias hy).1]
      exact (List.getElem?_eq_some_iff.mp hsec).1
    have hm : y.medias[i]? = some y.medias[i] := List.getElem?_eq_getElem hi
    obtain ⟨hc, htaken⟩ := hok y _ hy hm
    obtain ⟨t, ht⟩ := Option.isSome_iff_exists.mp htaken
    exact ⟨y, _, t, hy, hm, ht, (reaches_taken_iff hy hsec hm haddress hc ht).mpr hplace⟩

/-- A peer at `10.0.0.7`, as it names itself in an offer. -/
private def phone (lines : String) : Text :=
  text ("v=0\nc=IN IP4 10.0.0.7\nm=audio 5004 RTP/AVP 0\na=setup:active\n" ++ lines)

private def phoneSection (lines : List String) : Section where
  header := text "audio 5004 RTP/AVP 0"
  fields := (text "a", text "setup:active") :: lines.map fun l => (text "a", text l)

private def phoneAddress (s : Text) : Option Address :=
  if s = text "10.0.0.7" then some (.v4 #v[10, 0, 0, 7]) else none

/-- What a new stream makes of a section. -/
private def taken (m : Media) : Option (MediaStream × Endpoints) :=
  setRemoteSection phoneAddress .offer (.create .audio .sendrecv 40000 40001 1 2, {}) m

private theorem phone_taken {lines : String}
    (h : ((parse {} (phone lines)).bind fun y => y.medias[0]?.map fun m =>
      m.candidates.isEmpty && (taken m).isSome) = some true) :
    ∀ y m, parse {} (phone lines) = some y → y.medias[0]? = some m →
      m.candidates = [] ∧ (taken m).isSome := by
  intro y m hy hm
  rw [hy, Option.bind_some, hm, Option.map_some] at h
  obtain ⟨hc, hsome⟩ := Bool.and_eq_true_iff.mp (Option.some.inj h)
  exact ⟨List.isEmpty_iff.mp hc, hsome⟩

/-- The endpoints of a phone with `a=rtcp-mux`. -/
theorem reaches_iff_muxed : ∃ y m t, parse {} (phone "a=rtcp-mux\n") = some y ∧
    y.medias[0]? = some m ∧ taken m = some t ∧
      Reaches phoneAddress (phoneSection ["rtcp-mux"]) (text "10.0.0.7") t.2 := by
  have hsec : (sections (fieldsOf (phone "a=rtcp-mux\n")))[0]? =
      some (phoneSection ["rtcp-mux"]) := by
    decide +kernel
  have haddress : (connection (phoneSection ["rtcp-mux"]).fields).or
      (connection (upToMedia (fieldsOf (phone "a=rtcp-mux\n")))) = some (text "10.0.0.7") := by
    decide +kernel
  have hsourced : Sourced (phone "a=rtcp-mux\n") := by decide +kernel
  have hmuxed : muxed (phoneSection ["rtcp-mux"]).fields = true := by decide +kernel
  exact (reaches_iff {} (phone "a=rtcp-mux\n") hsec haddress
    (phone_taken (by decide +kernel))).mpr ⟨hsourced, _, rfl, .inl hmuxed⟩

/-- Without `a=rtcp-mux` and `a=rtcp`, RTCP is sent to the port of RTP instead of the next. -/
theorem rtcp_sent_to_rtp_port : ∃ y m t, parse {} (phone "") = some y ∧ y.medias[0]? = some m ∧
    taken m = some t ∧ t.2.remoteRtcpEndpoint = some ⟨.v4 #v[10, 0, 0, 7], 5004⟩ ∧
      ¬Reaches phoneAddress (phoneSection []) (text "10.0.0.7") t.2 := by
  have h : ((parse {} (phone "")).bind fun y => y.medias[0]?.bind fun m =>
      (taken m).map fun t => t.2.remoteRtcpEndpoint) =
        some (some ⟨.v4 #v[10, 0, 0, 7], 5004⟩) := by
    decide +kernel
  obtain ⟨y, hy, h⟩ := Option.bind_eq_some_iff.mp h
  obtain ⟨m, hm, h⟩ := Option.bind_eq_some_iff.mp h
  obtain ⟨t, ht, hrtcp⟩ := Option.map_eq_some_iff.mp h
  have hmux : ¬muxed (phoneSection []).fields = true := by decide +kernel
  have hline : rtcpLine (phoneSection []).fields = none := by decide +kernel
  have hport : (5004 : UInt16) ≠ UInt16.ofInt (headerPort (phoneSection []).header + 1) := by
    decide +kernel
  refine ⟨y, m, t, hy, hm, ht, hrtcp, fun ⟨a, _, _, hlines⟩ => ?_⟩
  rw [hrtcp, if_neg hmux, hline] at hlines
  exact hport (congrArg Endpoint.port (Option.some.inj hlines))

end CxxDeps.Session
