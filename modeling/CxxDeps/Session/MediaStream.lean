import CxxDeps.Sdp.Media
import CxxDeps.Stun.Transport

/-! `rtpx::media_stream` as far as an offer and its answer go: what is taken over from a
section of the offer and the section that is made of it. The endpoints that a section
names are left to the STUN side. -/

namespace CxxDeps.Session

open Sys Sdp

/-- `sdp_type_t`. -/
inductive SdpType
  | unknown | offer | answer
  deriving DecidableEq, Repr

/-- `rtpx::media_stream`; a transport is named by its port. -/
structure MediaStream where
  mediaType : MediaType
  transMode : TransMode
  rtpTransport : UInt16
  rtcpTransport : UInt16
  isRtcpMux : Bool
  localRtpSsrc : UInt32
  localRtxSsrc : UInt32 := 0
  sdpRole : SdpType := .unknown
  localSetup : Setup := .none
  remoteSetup : Setup := .none
  security : Bool := false
  cname : Text := []
  mid : Text := []
  msidSid : Text := []
  msidTid : Text := []
  localIceUfrag : Text := []
  localIcePwd : Text := []
  localIceOptions : Text := []
  remoteIceUfrag : Text := []
  remoteIcePwd : Text := []
  remoteIceOptions : Text := []
  remoteRtpSsrc : UInt32 := 0
  remoteRtxSsrc : UInt32 := 0
  localFormats : Std.ExtTreeMap UInt8 Format compare := ∅
  remoteFormats : Std.ExtTreeMap UInt8 Format compare := ∅
  localCandidates : List Candidate := []
  remoteCandidates : List Candidate := []
  appProto : Text := []
  sctpPort : UInt16 := 0
  hasSctpStreamId : Bool := false
  sctpStreamId : UInt16 := 0

/-- The local setup for the setup of an offer. -/
def answerSetup (localSetup : Setup) : Setup → Setup
  | .actpass => .active
  | .active => .passive
  | .passive => .active
  | .none => localSetup

/-- The direction for the direction of an offer. -/
def reverseMode : TransMode → TransMode
  | .sendrecv => .sendrecv
  | .sendonly => .recvonly
  | .recvonly => .sendonly
  | .inactive => .inactive

namespace MediaStream

/-- `media_stream::media_stream`; the transports are the same exactly when their ports
are. -/
def create (mediaType : MediaType) (transMode : TransMode) (rtp rtcp : UInt16)
    (rtpSsrc rtxSsrc : UInt32) : MediaStream :=
  { mediaType, transMode
    rtpTransport := rtp
    rtcpTransport := rtcp
    isRtcpMux := rtp = rtcp
    localRtpSsrc := rtpSsrc
    localRtxSsrc := if mediaType = .video ∨ mediaType = .audio then rtxSsrc else 0 }

/-- What `set_remote_sdp` takes over from a section of an offer. -/
def takeOver (ms : MediaStream) (sdp : Media) : MediaStream :=
  { ms with
    sdpRole := .answer
    remoteIceUfrag := sdp.iceUfrag
    remoteIcePwd := sdp.icePwd
    remoteIceOptions := sdp.iceOptions
    remoteRtpSsrc := (sdp.ssrcs[0]?.map Ssrc.ssrc).getD ms.remoteRtpSsrc
    remoteRtxSsrc := (sdp.ssrcs[1]?.map Ssrc.ssrc).getD ms.remoteRtxSsrc
    remoteSetup := sdp.setup
    mid := sdp.mid
    msidSid := sdp.msidSid
    msidTid := sdp.msidTid
    appProto := sdp.appDataType
    sctpPort := UInt16.ofInt (strtol 10 (getAttribute sdp.attrs (text "sctp-port") (text "0")))
    localSetup := answerSetup ms.localSetup sdp.setup
    transMode := reverseMode sdp.transMode
    remoteFormats := sdp.rtpmap
    localFormats := sdp.rtpmap
    security := sdp.isSecurity
    remoteCandidates := if sdp.candidates ≠ [] then sdp.candidates else ms.remoteCandidates }

/-- `set_remote_sdp` for an offer; `none` is its `false`. -/
def setRemoteSdp (ms : MediaStream) (sdp : Media) : Option MediaStream :=
  if sdp.setup = .none ∨ sdp.transMode = .inactive then none else some (ms.takeOver sdp)

/-- `set_sctp_stream_id`. -/
def setSctpStreamId (ms : MediaStream) (sid : UInt16) : MediaStream :=
  if ms.hasSctpStreamId then ms else { ms with sctpStreamId := sid, hasSctpStreamId := true }

/-- The protocols of `to_local_sdp`. -/
def localProtos (ms : MediaStream) : List Text :=
  if ms.mediaType = .application then
    [text "UDP"] ++ (if ms.security then [text "DTLS"] else []) ++ [text "SCTP"]
  else if ms.security then [text "UDP", text "RTP", text "TLS", text "SAVPF"]
  else [text "UDP", text "RTP", text "AVP", text "AVPF"]

/-- The sources of `to_local_sdp`, with their group. -/
def localSsrcs (ms : MediaStream) : List Ssrc × Text :=
  if ms.mediaType ≠ .application ∧ (ms.transMode = .sendonly ∨ ms.transMode = .sendrecv) then
    let st : Ssrc := ⟨ms.localRtpSsrc, ms.cname, ms.msidSid, ms.msidTid⟩
    if ms.localRtxSsrc > 0 then ([st, { st with ssrc := ms.localRtxSsrc }], text "FID")
    else ([st], [])
  else ([], [])

/-- The section of a stream, with the fingerprint of its RTP transport. -/
def localSection (ms : MediaStream) (fingerprint : Text) : Media :=
  let isApp : Bool := ms.mediaType = .application
  { mid := ms.mid
    protos := .ofList ms.localProtos compare
    mediaType := ms.mediaType
    appDataType := ms.appProto
    hasRtpAddress := true
    hasRtcp := true
    rtcpMux := ms.isRtcpMux
    attrs :=
      if isApp then
        [⟨text "sctp-port", text (toString ms.sctpPort)⟩,
          ⟨text "max-message-size", text "1073741823"⟩]
      else []
    msidSid := if isApp then [] else ms.msidSid
    msidTid := if isApp then [] else ms.msidTid
    rtcpRsize := !isApp
    fingerprint
    iceUfrag := ms.localIceUfrag
    icePwd := ms.localIcePwd
    iceOptions := ms.localIceOptions
    transMode := ms.transMode
    setup := ms.localSetup
    rtpmap := ms.localFormats
    ssrcs := ms.localSsrcs.1
    ssrcGroup := ms.localSsrcs.2
    candidates := ms.localCandidates }

/-- `to_local_sdp`; an application other than a data channel has no section. -/
def toLocalSdp (ms : MediaStream) (fingerprint : Text) : Option Media :=
  if ms.mediaType = .application ∧ ms.appProto ≠ text "webrtc-datachannel" then none
  else some (ms.localSection fingerprint)

/-- `create_answer`. -/
def createAnswer (ms : MediaStream) (fingerprint : Text) : Option Media :=
  if ms.sdpRole ≠ .answer then none else ms.toLocalSdp fingerprint

end MediaStream

end CxxDeps.Session
