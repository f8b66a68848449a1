import CxxDeps.Sdp.Media

/-! The text of a session description: `to_string` and `parse` of `sdp` and its parts
(rtpx/sdp). Where the last separator of a list is written over, it is left out here. -/

namespace CxxDeps.Sdp

open Sys

/-- A line of the text. -/
def line (s : Text) : Text := s ++ [0x0D, 0x0A]

/-- A number in decimal. -/
def number (n : ℤ) : Text := text (toString n)

/-! ### Pairs, parameters and candidates -/

/-- `sdp_pair::to_string`. -/
def Pair.toText (p : Pair) : Text := if p.val ≠ [] then p.key ++ text ":" ++ p.val else p.key

/-- `sdp_pair::parse`. -/
def Pair.parse (s : Text) : Pair :=
  let vec := split s (text ":") (some 2) true
  ⟨vec.getD 0 [], vec.getD 1 []⟩

/-- `fmtp::to_string`. -/
def Fmtp.toText (fmtp : Fmtp) : Text :=
  (fmtp.toList.flatMap fun kv => kv.1 ++ text "=" ++ kv.2 ++ text ";").dropLast

/-- `fmtp::parse`; what stands behind a second equals sign is lost. -/
def Fmtp.parse (s : Text) : Fmtp :=
  (split s (text ";") none true).foldl (fun (fmtp : Fmtp) part =>
    match split part (text "=") none true with
    | key :: val :: _ => fmtp.insert key val
    | _ => fmtp) ∅

/-- `candidate::to_string`. -/
def Candidate.toText (c : Candidate) : Text :=
  number c.foundation.toNat ++ text " " ++ number c.component.toNat ++ text " " ++ c.protocol ++
    text " " ++ number c.priority.toNat ++ text " " ++ c.address ++ text " " ++
    number c.port.toNat ++ text " typ " ++ c.type ++ text " ufrag " ++ c.ufrag

/-- `candidate::parse`; the type is read where the word `typ` is written. -/
def Candidate.parse (s : Text) : Option Candidate :=
  match split s (text " ") none true with
  | foundation :: component :: protocol :: priority :: address :: port :: type :: _ =>
    some { foundation := UInt32.ofNat (strtoul 10 foundation)
           component := UInt8.ofNat (strtoul 10 component)
           protocol
           priority := UInt32.ofNat (strtoul 10 priority)
           address
           port := UInt16.ofNat (strtoul 10 port)
           type }
  | _ => none

/-! ### Formats -/

/-- `codec_def`. -/
def codecDef : List (CodecType × Text) :=
  [(.telephoneEvent, text "telephone-event"), (.mpeg4Generic, text "mpeg4-generic"),
    (.mp4aLatm, text "MP4A-LATM"), (.h264, text "H264"), (.h265, text "H265"),
    (.opus, text "OPUS"), (.pcma, text "PCMA"), (.g722, text "G722"), (.cn, text "CN"),
    (.vp8, text "VP8"), (.vp9, text "VP9"), (.av1, text "AV1"), (.ps, text "PS"),
    (.rtx, text "rtx"), (.red, text "red"), (.ulpfec, text "ulpfec"), (.mp2p, text "MP2P"),
    (.mp2s, text "MP2S")]

def convertCodec (codec : Text) : CodecType :=
  ((codecDef.find? fun d => icasecompare d.2 (codec.takeWhile (· ≠ 0))).map Prod.fst).getD .unknown

def convertCodecText (codec : CodecType) : Text := (codecDef.lookup codec).getD []

namespace Format

def setCodec (fmt : Format) (codec : Text) : Format :=
  { fmt with codecText := codec, codec := convertCodec codec }

def getCodec (fmt : Format) : Text :=
  if fmt.codec ≠ .unknown then convertCodecText fmt.codec else fmt.codecText

/-- `sdp_format::to_string`. -/
def toText (fmt : Format) : Text :=
  let pt := number fmt.pt.toNat
  line (text "a=rtpmap:" ++ pt ++ text " " ++ fmt.getCodec ++ text "/" ++ number fmt.frequency ++
    if fmt.channels > 1 then text "/" ++ number fmt.channels else []) ++
  (fmt.rtcpFb.toList.flatMap fun fb => line (text "a=rtcp-fb:" ++ pt ++ text " " ++ fb)) ++
  (if fmt.fmtp.isEmpty then []
    else line (text "a=fmtp:" ++ pt ++ text " " ++ Fmtp.toText fmt.fmtp)) ++
  fmt.attrs.flatMap fun attr => line (text "a=" ++ attr.toText)

end Format

/-! ### Media sections -/

/-- A field behind its key, unless it is empty. -/
def optional (key : String) (val : Text) : Text :=
  if val = [] then [] else line (text key ++ val)

/-- An empty identifier is written as a dash. -/
def dash (id : Text) : Text := if id = [] then text "-" else id

def MediaType.toText : MediaType → Text
  | .audio => text "audio"
  | .video => text "video"
  | .application => text "application"
  | .unknown => text "unknown"

def Setup.toText : Setup → Text
  | .active => line (text "a=setup:active")
  | .actpass => line (text "a=setup:actpass")
  | .passive => line (text "a=setup:passive")
  | .none => []

def TransMode.toText : TransMode → Text
  | .inactive => line (text "a=inactive")
  | .recvonly => line (text "a=recvonly")
  | .sendonly => line (text "a=sendonly")
  | .sendrecv => line (text "a=sendrecv")

def Ssrc.toText (s : Ssrc) : Text :=
  let head := text "a=ssrc:" ++ number s.ssrc.toNat
  if s.cname = [] ∧ s.msidStreamId = [] ∧ s.msidTrackId = [] then line head
  else
    (if s.cname ≠ [] then line (head ++ text " cname:" ++ s.cname) else []) ++
    if s.msidStreamId ≠ [] ∨ s.msidTrackId ≠ [] then
      line (head ++ text " msid:" ++ dash s.msidStreamId ++ text " " ++ dash s.msidTrackId)
    else []

/-- The lines of candidates, at both levels. -/
def candidatesText (candidates : List Candidate) : Text :=
  if candidates = [] then []
  else (candidates.flatMap fun c => line (text "a=candidate:" ++ c.toText)) ++
    line (text "a=end-of-candidates")

namespace Media

/-- The line that starts a section. -/
def headerText (m : Media) : Text :=
  let pts := (m.rtpmap.toList.flatMap fun fmt => number fmt.2.pt.toNat ++ text " ").dropLast
  line (text "m=" ++ m.mediaType.toText ++ text " " ++ number m.rtpPort ++ text " " ++
    m.toProtocolsString ++ text " " ++ pts ++ m.appDataType)

/-- `sdp_media::to_string`. -/
def toText (m : Media) : Text :=
  m.headerText ++
  (if m.hasRtpAddress then
    line (text "c=" ++ m.rtpNetworkType ++ text " " ++ m.rtpAddressType ++ text " " ++ m.rtpAddress)
  else []) ++
  (m.b.flatMap fun b => line (text "b=" ++ b)) ++
  (if m.hasRtcp then
    line (text "a=rtcp:" ++ number m.rtcpPort ++ text " " ++ m.rtcpNetworkType ++ text " " ++
      m.rtcpAddressType ++ text " " ++ m.rtcpAddress)
  else []) ++
  candidatesText m.candidates ++
  optional "a=ice-ufrag:" m.iceUfrag ++
  optional "a=ice-pwd:" m.icePwd ++
  optional "a=ice-options:" m.iceOptions ++
  (if m.fingerprint = [] then []
    else line (text "a=fingerprint:" ++ m.fingerprintSign ++ text " " ++ m.fingerprint)) ++
  m.setup.toText ++
  optional "a=mid:" m.mid ++
  (if m.msidSid ≠ [] ∨ m.msidTid ≠ [] then
    line (text "a=msid:" ++ dash m.msidSid ++ text " " ++ dash m.msidTid)
  else []) ++
  (if m.rtcpMux then line (text "a=rtcp-mux") else []) ++
  (if m.rtcpRsize then line (text "a=rtcp-rsize") else []) ++
  optional "a=control:" m.control ++
  (m.extmap.toList.flatMap fun e =>
    line (text "a=extmap:" ++ number e.1.toNat ++ text " " ++ e.2)) ++
  m.transMode.toText ++
  (m.rtpmap.toList.flatMap fun fmt => fmt.2.toText) ++
  (if m.ssrcGroup = [] then []
    else line (text "a=ssrc-group:" ++ m.ssrcGroup ++
      m.ssrcs.flatMap fun s => text " " ++ number s.ssrc.toNat)) ++
  m.ssrcs.flatMap Ssrc.toText ++
  (m.attrs.flatMap fun attr => line (text "a=" ++ attr.toText)) ++
  if m.y > 0 then line (text "y=" ++ number m.y.toNat) else []

/-- `sdp_media::parse_header`. -/
def parseHeader (m : Media) (s : Text) : Media :=
  match split s (text " ") none true with
  | type :: port :: protos :: rest =>
    let mediaType : MediaType :=
      if type = text "video" then .video
      else if type = text "audio" then .audio
      else if type = text "application" then .application
      else .unknown
    let m := { m with
      mediaType
      rtpPort := toInt32 (strtol 10 port)
      protos :=
        .ofList ((split protos (text "/") none true).map fun p : Text => p.map toUpper) compare }
    if mediaType = .application then { m with appDataType := rest.headD m.appDataType }
    else
      let pts := rest.map fun pt => UInt8.ofInt (strtol 10 pt)
      { m with rtpmap := pts.foldl (fun map pt => map.insertIfNew pt { pt }) ∅ }
  | _ => m

/-- `sdp_media::parse_c`. -/
def parseC (m : Media) (s : Text) : Media :=
  match split s (text " ") none true with
  | network :: type :: address :: _ =>
    { m with
      hasRtpAddress := true
      rtpNetworkType := network
      rtpAddressType := type
      rtpAddress := address }
  | _ => m

/-- The format of a payload type is changed, if there is one. -/
def updateFormat (m : Media) (pt : Text) (f : Format → Format) : Media :=
  { m with rtpmap := m.rtpmap.modify (UInt8.ofInt (strtol 10 pt)) f }

/-- The entry of a source, made if it is missing. -/
def updateSsrc (m : Media) (ssrc : Text) (f : Ssrc → Ssrc) : Media :=
  let ssrc := UInt32.ofNat (strtoul 0 ssrc)
  if m.ssrcs.any (·.ssrc = ssrc) then
    { m with
      ssrcs := m.ssrcs.modify (m.ssrcs.findIdx (·.ssrc = ssrc)) f }
  else { m with ssrcs := m.ssrcs ++ [f { ssrc }] }

/-- The attribute of a source. -/
def parseSsrc (s : Ssrc) (attr : Text) : Ssrc :=
  match split attr (text ":") (some 2) true with
  | key :: val :: _ =>
    if key = text "cname" then { s with cname := val }
    else if key = text "msid" then
      match split val (text " ") (some 2) true with
      | stream :: track :: _ => { s with msidStreamId := stream, msidTrackId := track }
      | _ => s
    else s
  | _ => s

/-- The text behind the encoding name, its clock rate and channels. -/
def parseRtpmap (fmt : Format) (s : Text) : Format :=
  let vec := split s (text "/") none true
  let fmt := match vec[0]? with | some codec => fmt.setCodec codec | none => fmt
  let fmt := match vec[1]? with
    | some f => { fmt with frequency := toInt32 (strtol 10 f) }
    | none => fmt
  match vec[2]? with
  | some c => { fmt with channels := toInt32 (strtol 10 c) }
  | none => fmt

/-- The attributes of `sdp_media::parse_a` that name no source. One that it does not know is
kept; the direction `inactive` and the end of the candidates are such ones. -/
def setAttribute (m : Media) (attr : Pair) : Media :=
  let two := split attr.val (text " ") (some 2) true
  let all := split attr.val (text " ") none true
  if attr.key = text "rtcp" then
    match all with
    | port :: network :: type :: address :: _ =>
      { m with
        hasRtcp := true
        rtcpPort := toInt32 (strtol 10 port)
        rtcpNetworkType := network
        rtcpAddressType := type
        rtcpAddress := address }
    | _ => m
  else if attr.key = text "ice-ufrag" then { m with iceUfrag := attr.val }
  else if attr.key = text "ice-pwd" then { m with icePwd := attr.val }
  else if attr.key = text "ice-options" then { m with iceOptions := attr.val }
  else if attr.key = text "fingerprint" then
    match two with
    | sign :: fingerprint :: _ => { m with fingerprintSign := sign, fingerprint }
    | _ => m
  else if attr.key = text "setup" then
    if attr.val = text "actpass" then { m with setup := .actpass }
    else if attr.val = text "active" then { m with setup := .active }
    else if attr.val = text "passive" then { m with setup := .passive }
    else m
  else if attr.key = text "mid" then { m with mid := attr.val }
  else if attr.key = text "msid" then
    match two with
    | sid :: tid :: _ => { m with msidSid := sid, msidTid := tid }
    | _ => m
  else if attr.key = text "extmap" then
    match two with
    | id :: uri :: _ => { m with extmap := m.extmap.insert (UInt8.ofInt (strtol 10 id)) uri }
    | _ => m
  else if attr.key = text "sendonly" then { m with transMode := .sendonly }
  else if attr.key = text "recvonly" then { m with transMode := .recvonly }
  else if attr.key = text "sendrecv" then { m with transMode := .sendrecv }
  else if attr.key = text "rtcp-mux" then { m with rtcpMux := true }
  else if attr.key = text "rtcp-rsize" then { m with rtcpRsize := true }
  else if attr.key = text "candidate" then
    match Candidate.parse attr.val with
    | some c => { m with candidates := m.candidates ++ [c] }
    | none => m
  else if attr.key = text "rtpmap" then
    match two with
    | pt :: s :: _ => m.updateFormat pt fun fmt => parseRtpmap fmt s
    | _ => m
  else if attr.key = text "rtcp-fb" then
    match two with
    | pt :: fb :: _ =>
      let add (fmt : Format) : Format := { fmt with rtcpFb := fmt.rtcpFb.insert fb }
      if pt = text "*" then { m with rtpmap := m.rtpmap.map fun _ fmt => add fmt }
      else m.updateFormat pt add
    | _ => m
  else if attr.key = text "fmtp" then
    match two with
    | pt :: s :: _ => m.updateFormat pt fun fmt => { fmt with fmtp := Fmtp.parse s }
    | _ => m
  else if attr.key = text "control" then { m with control := attr.val }
  else { m with attrs := m.attrs ++ [attr] }

/-- `sdp_media::parse_a`. The first part of a source or of a group of them is read without
asking whether there is one: `none` if there is not. -/
def parseA (m : Media) (attr : Pair) : Option Media :=
  let two := split attr.val (text " ") (some 2) true
  let all := split attr.val (text " ") none true
  if attr.key = text "ssrc-group" then
    all.head?.map fun ssrcGroup =>
      all.tail.foldl (fun m s => m.updateSsrc s id) { m with ssrcGroup }
  else if attr.key = text "ssrc" then
    two.head?.map fun ssrc => m.updateSsrc ssrc fun s =>
      match two with
      | _ :: s' :: _ => parseSsrc s s'
      | _ => s
  else some (m.setAttribute attr)

/-- What the end of `sdp::parse` adds to a section. -/
def complete (m : Media) (sdp : Sdp) : Media :=
  let m :=
    match sdp.attrs.find? (·.key = text "fingerprint") with
    | some attr => if m.fingerprint = [] then m.setAttribute attr else m
    | none => m
  let m :=
    if m.hasRtpAddress then m
    else { m with
      hasRtpAddress := true
      rtpNetworkType := sdp.networkType
      rtpAddressType := sdp.addressType
      rtpAddress := sdp.address }
  let m :=
    if m.hasRtcp then m
    else { m with
      hasRtcp := true
      rtcpNetworkType := sdp.networkType
      rtcpAddressType := sdp.addressType
      rtcpAddress := sdp.address }
  if m.rtcpPort = 0 ∧ m.rtpPort ≠ 0 ∧ m.rtpPort ≠ 9 then
    { m with rtcpPort := if m.rtcpMux then m.rtpPort else m.rtpPort + 1 }
  else m

end Media

/-! ### Sessions -/

/-- The lines of `to_string` before the group. -/
def headText (x : Sdp) : Text :=
  line (text "v=" ++ x.v) ++ line (text "o=" ++ x.o) ++ line (text "s=" ++ x.s) ++
  optional "i=" x.i ++ optional "u=" x.u ++ optional "e=" x.e ++ optional "p=" x.p ++
  (if x.hasAddress then
    line (text "c=" ++ x.networkType ++ text " " ++ x.addressType ++ text " " ++ x.address)
  else []) ++
  (x.b.flatMap fun b => line (text "b=" ++ b)) ++
  optional "z=" x.z ++ optional "k=" x.k ++ optional "t=" x.t ++ optional "r=" x.r

/-- The line of the group. -/
def groupText (x : Sdp) : Text :=
  line (text "a=group:BUNDLE" ++ x.medias.flatMap fun m => text " " ++ m.mid)

/-- `sdp::to_string`. -/
def toText (x : Sdp) : Text :=
  headText x ++ (if x.bundle then groupText x else []) ++
  (x.attrs.flatMap fun attr => line (text "a=" ++ attr.toText)) ++
  candidatesText x.candidates ++ x.medias.flatMap Media.toText

/-- An attribute of the session. The group is kept as an attribute too. -/
def parseAttr (x : Sdp) (attr : Pair) : Sdp :=
  let x :=
    if attr.key = text "group" then
      match split attr.val (text " ") none true with
      | name :: _ :: _ => if name = text "BUNDLE" then { x with bundle := true } else x
      | _ => x
    else if attr.key = text "candidate" then
      match Candidate.parse attr.val with
      | some c => { x with candidates := x.candidates ++ [c] }
      | none => x
    else x
  { x with attrs := x.attrs ++ [attr] }

/-- The connection of the session. -/
def parseConnection (x : Sdp) (s : Text) : Sdp :=
  match split s (text " ") none true with
  | network :: type :: address :: _ =>
    { x with
      hasAddress := true
      networkType := network
      addressType := type
      address := address }
  | _ => x

/-- A field that belongs to the last section, or to the session before the first one. -/
def inLast (x : Sdp) (f : Media → Option Media) (session : Sdp) : Option Sdp :=
  match x.medias.getLast? with
  | some m => (f m).map fun m => { x with medias := x.medias.dropLast ++ [m] }
  | none => some session

/-- A line of `sdp::parse`, behind its key. -/
def parseField (x : Sdp) (key val : Text) : Option Sdp :=
  if key = text "v" then some { x with v := val }
  else if key = text "o" then some { x with o := val }
  else if key = text "s" then some { x with s := val }
  else if key = text "t" then some { x with t := val }
  else if key = text "m" then some { x with medias := x.medias ++ [({} : Media).parseHeader val] }
  else if key = text "a" then
    inLast x (fun m => m.parseA (Pair.parse val)) (parseAttr x (Pair.parse val))
  else if key = text "b" then
    inLast x (fun m => some { m with b := m.b ++ [val] }) { x with b := x.b ++ [val] }
  else if key = text "c" then inLast x (fun m => some (m.parseC val)) (parseConnection x val)
  else if key = text "y" then
    inLast x (fun m => some { m with y := UInt32.ofNat (strtoul 0 val) }) x
  else some x

def parseLine (x : Sdp) (s : Text) : Option Sdp :=
  match split s (text "=") (some 2) true with
  | key :: val :: _ => parseField x key (trim val)
  | _ => some x

/-- `sdp::parse`; it never fails, but is not always defined. The fingerprint that the sections
get at its end names no source. -/
def parse (x : Sdp) (s : Text) : Option Sdp :=
  ((split s (text "\n") none true).foldlM parseLine
    { x with attrs := [], medias := [], hasAddress := false }).map fun x =>
      { x with medias := x.medias.map fun m => m.complete x }

end CxxDeps.Sdp
