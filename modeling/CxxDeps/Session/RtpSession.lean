import CxxDeps.Session.MediaStream

/-! `rtpx::rtp_session` as far as offers and answers go (rtpx/rtp_session.cpp,
rtpx/util/port_range.cpp). Whether a socket can be bound, the certificate and the random
numbers come from outside. -/

namespace CxxDeps.Session

open Sys Sdp
open Stun (IceRole DtlsRole)

/-! ### Ports -/

/-- `port_range`. -/
structure PortRange where
  minPort : UInt16 := 40000
  maxPort : UInt16 := 49999
  pos : UInt16 := 40000
  deriving DecidableEq, Repr

namespace PortRange

/-- The loops over a range ask for this many ports. -/
def count (r : PortRange) : ℕ := r.maxPort.toNat - r.minPort.toNat

/-- Behind the last port comes the first one. -/
def wrap (r : PortRange) : PortRange := if r.pos > r.maxPort then { r with pos := r.minPort } else r

def getNextPort (r : PortRange) : UInt16 × PortRange :=
  (r.pos, { r with pos := r.pos + 1 : PortRange }.wrap)

/-- Two ports are looked at; the second is taken in any case. -/
def getNextEvenPort (r : PortRange) : UInt16 × PortRange :=
  if r.pos &&& 1 = 0 then (r.pos, { r with pos := r.pos + 2 : PortRange }.wrap)
  else
    let r := { r with pos := r.pos + 1 : PortRange }.wrap
    if r.pos &&& 1 = 0 then (r.pos, { r with pos := r.pos + 2 : PortRange }.wrap)
    else (r.pos, { r with pos := r.pos + 1 : PortRange }.wrap)

end PortRange

/-- `opens n port` tells whether the `n`-th socket could be bound to this port, `dtls` is
the fingerprint of the certificate. -/
structure Env where
  opens : ℕ → UInt16 → Bool
  dtls : Option Text
  random : ℕ → UInt32

/-- `transport`; the socket of an UDP transport keeps a reference to it. -/
structure Transport where
  localPort : UInt16
  isUdp : Bool := true
  dtls : Bool := false
  dtlsRole : DtlsRole := .server
  iceRole : IceRole := .controlling
  localIceUfrag : Text := []
  localIcePwd : Text := []
  remoteIceUfrag : Text := []
  remoteIcePwd : Text := []
  sctp : Option UInt16 := none
  sctpRemotePort : UInt16 := 0

/-- `rtp_session`, with the port range of `rtpx_core` and the numbers of sockets and
random numbers asked for so far. -/
structure RtpSession where
  isPortMux : Bool
  cname : Text
  iceUfrag : Text
  icePwd : Text
  iceOptions : Text := text "trickle"
  active : Bool := false
  timerCount : UInt16 := 0
  timerInterval : UInt16 := 1
  sdpRole : SdpType := .unknown
  remoteIceLite : Bool := false
  setup : Setup := .none
  dtlsRole : DtlsRole := .server
  iceRole : IceRole := .controlling
  muxPort : UInt16 := 0
  mediaStreams : List MediaStream := []
  transports : List Transport := []
  ports : PortRange := {}
  opened : ℕ := 0
  drawn : ℕ := 0

namespace RtpSession

variable (env : Env) (s : RtpSession)

/-! ### Transports -/

/-- The transport of a port is changed. -/
def updateTransport (port : UInt16) (f : Transport → Transport) : RtpSession :=
  { s with transports := s.transports.map fun tp => if tp.localPort = port then f tp else tp }

/-- `transport::enable_dtls`. -/
def enableDtls (enabled : Bool) (tp : Transport) : Transport :=
  { tp with dtls := enabled && (tp.dtls || env.dtls.isSome) }

/-- `transport::fingerprint` of the transport of a port. -/
def fingerprint (port : UInt16) : Text :=
  if s.transports.any fun tp => tp.localPort = port && tp.dtls then env.dtls.getD [] else []

/-- `create_transport`; there may be one already. -/
def createTransport (port : UInt16) (security : Bool) : RtpSession × Bool :=
  if s.transports.any (·.localPort = port) then (s, true)
  else
    let opens := env.opens s.opened port
    let s := { s with opened := s.opened + 1 }
    if opens then
      let tp : Transport := enableDtls env security { localPort := port }
      ({ s with transports := s.transports ++ [tp] }, true)
    else (s, false)

/-- `try_remove_transport`: only the session may refer to it. -/
def tryRemoveTransport (port : UInt16) : RtpSession :=
  match s.transports.find? (·.localPort = port) with
  | none => s
  | some tp =>
    if tp.isUdp || s.mediaStreams.any fun ms => ms.rtpTransport = port || ms.rtcpTransport = port
    then s
    else { s with transports := s.transports.eraseP (·.localPort = port) }

/-- The loops of `create_transport_pair` for one transport. -/
def singleLoop (security : Bool) : ℕ → RtpSession → RtpSession × Option UInt16
  | 0, s => (s, none)
  | n + 1, s =>
    let (port, ports) := s.ports.getNextPort
    let (s, ok) := createTransport env { s with ports } port security
    if ok then (s, some port) else singleLoop security n s

/-- The loop of `create_transport_pair` for two transports. -/
def pairLoop (security : Bool) : ℕ → RtpSession → RtpSession × Option (UInt16 × UInt16)
  | 0, s => (s, none)
  | n + 1, s =>
    let (port, ports) := s.ports.getNextEvenPort
    let (s, ok) := createTransport env { s with ports } port security
    if !ok then pairLoop security n s
    else
      let (s, ok) := createTransport env s (port + 1) security
      if !ok then pairLoop security n (tryRemoveTransport s port)
      else (s, some (port, port + 1))

/-- `create_transport_pair`. -/
def createTransportPair (security rtcpMux : Bool) : RtpSession × Option (UInt16 × UInt16) :=
  if s.isPortMux then
    if s.muxPort > 0 then
      let (s, ok) := createTransport env s s.muxPort security
      (s, if ok then some (s.muxPort, s.muxPort) else none)
    else
      let (s, port) := singleLoop env security s.ports.count s
      (match port with | some p => { s with muxPort := p } | none => s, port.map fun p => (p, p))
  else if rtcpMux then
    let (s, port) := singleLoop env security s.ports.count s
    (s, port.map fun p => (p, p))
  else pairLoop env security s.ports.count s

/-! ### Offers and answers -/

/-- `create_media_stream`. -/
def createMediaStream (mt : MediaType) (mid : Text) (security : Bool) (sid tid : Text)
    (transMode : TransMode) (rtcpMux : Bool) : Option (RtpSession × MediaStream) :=
  let (s, pair) := createTransportPair env s security rtcpMux
  match pair with
  | none => none
  | some (rtp, rtcp) =>
    if s.mediaStreams.any (·.mid = mid) then none
    else
      let ms := MediaStream.create mt transMode rtp rtcp (env.random s.drawn)
        (env.random (s.drawn + 1))
      let setIce (tp : Transport) : Transport :=
        { tp with localIceUfrag := s.iceUfrag, localIcePwd := s.icePwd }
      let ms := { ms with
        mid, security
        msidSid := sid
        msidTid := tid
        localIceUfrag := s.iceUfrag
        localIcePwd := s.icePwd
        localIceOptions := s.iceOptions
        cname := s.cname }
      let s := (s.updateTransport rtp setIce).updateTransport rtcp setIce
      some ({ s with drawn := s.drawn + 2 }, ms)

/-- What `media_stream::set_remote_sdp` does to the transports of the stream. -/
def setupTransports (ms : MediaStream) (m : Media) : RtpSession :=
  let setIce (tp : Transport) : Transport :=
    { tp with remoteIceUfrag := m.iceUfrag, remoteIcePwd := m.icePwd }
  let setSctp (tp : Transport) : Transport :=
    if m.mediaType = .application ∧ m.appDataType = text "webrtc-datachannel" then
      { tp with sctpRemotePort := ms.sctpPort, sctp := some (tp.sctp.getD ms.sctpPort) }
    else tp
  let setDtls (s : RtpSession) (port : UInt16) : RtpSession :=
    s.updateTransport port (enableDtls env ms.security)
  let s := (s.updateTransport ms.rtpTransport setIce).updateTransport ms.rtcpTransport setIce
  let s := s.updateTransport ms.rtpTransport setSctp
  setDtls (setDtls s ms.rtpTransport) ms.rtcpTransport

/-- A data channel keeps the stream number of the one with its `mid` before the offer. -/
def resumeSctp (sctpStreams : List (Text × UInt16)) (ms : MediaStream) : MediaStream :=
  if ms.mediaType = .application then
    match sctpStreams.lookup ms.mid with
    | some sid => ms.setSctpStreamId sid
    | none => ms
  else ms

/-- The body of the loop of `set_remote_sdp` over the sections of an offer. -/
def addSection (sctpStreams : List (Text × UInt16)) (s : RtpSession) (m : Media) :
    Option RtpSession := do
  let (s, ms) ← createMediaStream env s m.mediaType m.mid m.isSecurity m.msidSid m.msidTid
    (reverseMode m.transMode) m.rtcpMux
  let ms ← ms.setRemoteSdp m
  let s := setupTransports env s ms m
  return { s with mediaStreams := s.mediaStreams ++ [resumeSctp sctpStreams ms] }

/-- `dtls_role`. -/
def dtlsRoleFor (setup remoteSetup : Setup) : DtlsRole :=
  match setup, remoteSetup with
  | .active, .actpass | .active, .passive => .client
  | .passive, .actpass | .passive, .active => .server
  | .actpass, .active => .server
  | _, _ => .client

/-- `stun_ice_role`. -/
def stunIceRole : IceRole :=
  if s.remoteIceLite || s.sdpRole = .offer then .controlling else .controlled

/-- `set_remote_sdp` for an offer; `none` is its `false`. -/
def setRemoteSdp (offer : Sdp) : Option RtpSession := do
  let sctpStreams := (s.mediaStreams.filter (·.mediaType = .application)).map fun ms =>
    (ms.mid, ms.sctpStreamId)
  let s := { s with
    remoteIceLite := offer.hasAttribute (text "ice-lite")
    sdpRole := .answer
    mediaStreams := [] }
  let s ← offer.medias.foldlM (addSection env sctpStreams) s
  match s.mediaStreams with
  | [] => none
  | ms :: _ =>
    let dtlsRole := dtlsRoleFor ms.localSetup ms.remoteSetup
    let iceRole := s.stunIceRole
    return { s with
      setup := ms.localSetup
      dtlsRole, iceRole
      transports := s.transports.map fun tp => { tp with dtlsRole, iceRole } }

/-- `start`. -/
def start : RtpSession :=
  if s.active then s else { s with active := true, timerCount := 0, timerInterval := 1 }

/-- `create_answer`; `none` is its `false`. -/
def createAnswer (answer : Sdp) : Option (Sdp × RtpSession) :=
  if s.sdpRole ≠ .answer then none
  else do
    let sections ← s.mediaStreams.mapM fun ms => ms.createAnswer (fingerprint env s ms.rtpTransport)
    return ({ answer with
      attrs := answer.attrs ++ [⟨text "msid-semantic", text "WMS"⟩, ⟨text "extmap-allow-mixed", []⟩]
      medias := answer.medias ++ sections }, s.start)

end RtpSession

end CxxDeps.Session
