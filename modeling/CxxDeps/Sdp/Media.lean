import CxxDeps.Sys.StringUtil
import Std.Data.ExtTreeMap
import Std.Data.ExtTreeSet

/-! Session descriptions as the library keeps them (rtpx/sdp): the session, its media
sections and what these consist of. -/

namespace CxxDeps.Sdp

open Sys

/-- `media_type_t`. -/
inductive MediaType
  | unknown | audio | video | application
  deriving DecidableEq, Repr

/-- `codec_type_t`. -/
inductive CodecType
  | unknown | pcma | pcmu | g722 | opus | mpeg4Generic | mp4aLatm | telephoneEvent | cn | mp2p
  | mp2s | h264 | h265 | vp8 | vp9 | av1 | ps | rtx | red | ulpfec
  deriving DecidableEq, Repr

/-- `sdp_setup_t`. -/
inductive Setup
  | none | actpass | active | passive
  deriving DecidableEq, Repr

/-- `rtp_trans_mode_t`. -/
inductive TransMode
  | inactive | recvonly | sendonly | sendrecv
  deriving DecidableEq, Repr

/-- `sdp_pair`; the separator is a colon everywhere. -/
structure Pair where
  key : Text := []
  val : Text := []
  deriving DecidableEq, Repr

/-- The value of the first pair with this key. -/
def getAttribute (attrs : List Pair) (key dflt : Text) : Text :=
  match attrs.find? (·.key = key) with
  | none => dflt
  | some kv => kv.val

abbrev Fmtp := Std.ExtTreeMap Text Text compare

/-- `sdp_format`. -/
structure Format where
  pt : UInt8 := 128
  codec : CodecType := .unknown
  codecText : Text := []
  frequency : ℤ := 0
  channels : ℤ := 1
  fmtp : Fmtp := ∅
  rtcpFb : Std.ExtTreeSet Text compare := ∅
  attrs : List Pair := []

/-- `candidate`. -/
structure Candidate where
  foundation : UInt32 := 0
  component : UInt8 := 1
  protocol : Text := text "udp"
  priority : UInt32 := 2043278322
  address : Text := []
  port : UInt16 := 0
  type : Text := text "host"
  ufrag : Text := []
  deriving DecidableEq, Repr

/-- `ssrc_t`. -/
structure Ssrc where
  ssrc : UInt32 := 0
  cname : Text := []
  msidStreamId : Text := text "-"
  msidTrackId : Text := text "-"
  deriving DecidableEq, Repr

/-- `sdp_media`. -/
structure Media where
  mediaType : MediaType := .unknown
  protos : Std.ExtTreeSet Text compare := .ofList [text "UDP", text "RTP", text "AVP"] compare
  appDataType : Text := []
  b : List Text := []
  hasRtpAddress : Bool := false
  rtpNetworkType : Text := text "IN"
  rtpAddressType : Text := text "IP4"
  rtpAddress : Text := text "0.0.0.0"
  rtpPort : ℤ := 9
  hasRtcp : Bool := false
  rtcpMux : Bool := false
  rtcpRsize : Bool := false
  rtcpNetworkType : Text := text "IN"
  rtcpAddressType : Text := text "IP4"
  rtcpAddress : Text := text "0.0.0.0"
  rtcpPort : ℤ := 9
  iceUfrag : Text := []
  icePwd : Text := []
  iceOptions : Text := []
  fingerprintSign : Text := text "sha-256"
  fingerprint : Text := []
  mid : Text := []
  msidSid : Text := []
  msidTid : Text := []
  extmap : Std.ExtTreeMap UInt8 Text compare := ∅
  transMode : TransMode := .sendrecv
  setup : Setup := .none
  rtpmap : Std.ExtTreeMap UInt8 Format compare := ∅
  ssrcGroup : Text := []
  ssrcs : List Ssrc := []
  control : Text := []
  attrs : List Pair := []
  candidates : List Candidate := []
  y : UInt32 := 0

/-- `sdp_media::is_security`. -/
def Media.isSecurity (m : Media) : Bool :=
  m.protos.contains (text "TLS") || m.protos.contains (text "DTLS")

/-- The first of these protocols that is there goes in front of what is left. -/
def takeProto (names : List String) (q : List Text × List Text) : List Text × List Text :=
  match (names.map text).find? q.2.contains with
  | none => q
  | some p => (q.1 ++ [p], q.2.filter (· ≠ p))

/-- The order of `to_protocols_string`. -/
def orderedProtos (protos : List Text) : List Text :=
  let q := takeProto ["UDP", "TCP"] ([], protos)
  let q := takeProto ["TLS"] q
  let q := takeProto ["DTLS"] q
  let q := takeProto ["RTP"] q
  let q := takeProto ["SAVPF", "AVPF", "SAVP", "AVP"] q
  let q := takeProto ["SCTP"] q
  q.1 ++ q.2

/-- `sdp_media::to_protocols_string`; the last slash is written over. -/
def Media.toProtocolsString (m : Media) : Text :=
  ((orderedProtos m.protos.toList).flatMap (· ++ text "/")).dropLast

end CxxDeps.Sdp

namespace CxxDeps

open Sys Sdp

/-- `sdp`. -/
structure Sdp where
  v : Text := text "0"
  o : Text := text "- 0 0 IN IP4 127.0.0.1"
  s : Text := text "-"
  i : Text := []
  u : Text := []
  e : Text := []
  p : Text := []
  b : List Text := []
  z : Text := []
  k : Text := []
  t : Text := text "0 0"
  r : Text := []
  hasAddress : Bool := false
  networkType : Text := text "IN"
  addressType : Text := text "IP4"
  address : Text := text "0.0.0.0"
  bundle : Bool := true
  medias : List Media := []
  attrs : List Pair := []
  candidates : List Candidate := []

def Sdp.hasAttribute (sdp : Sdp) (key : Text) : Bool := sdp.attrs.any (·.key = key)

end CxxDeps
