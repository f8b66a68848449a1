import CxxDeps.Sdp.Media
import CxxDeps.Sip.Address

/-! `voip::sip::sip_call` and the calls of `voip::sip::endpoint`: what the messages of a
call do. The RTP session of a call is a parameter; the application has set its handlers.
What the application, the timers and the connections do is not looked into. -/

namespace CxxDeps.Voip

open Sys Hypertext Sip
open Sdp (MediaType)

/-- `litertp::rtp_session` and the sections that `litertp::sdp` reads. -/
structure Rtp (ρ : Type) where
  fresh : ρ
  parse : Text → Bool × List (MediaType × Text)
  createChannels : (audio video : Bool) → ρ → Option ρ
  setRemoteSdp : ρ → Text → ρ
  start : ρ → ρ

/-! ### Messages -/

/-- `sip_message::call_id`; it ends where a C string does. -/
def callId (message : Message) : Text :=
  ((message.headers.get (text "Call-ID")).getD []).takeWhile (· ≠ 0)

def toAddress (message : Message) : Option SipAddress :=
  (message.headers.get (text "To")).map fun value => SipAddress.parse value {}

/-- The method that a message belongs to, and its number. -/
def cseq (message : Message) : UInt32 × Text :=
  match message.headers.get (text "CSeq") with
  | none => (0, [])
  | some value =>
    let ss := split value (text " ") (some 2) true
    (UInt32.ofNat (strtoul 10 (ss.getD 0 [])), ss.getD 1 [])

/-- The message belongs to a request with this method, which is compared as a C string. -/
def belongsTo (message : Message) (method : Text) : Bool :=
  icasecompare ((cseq message).2.takeWhile (· ≠ 0)) method

/-- A parameter of an address. -/
def getTag (address : Option SipAddress) : Option Text :=
  (address.getD {}).queries.find? (fun q => icasecompare q.name (text "tag")) |>.map Item.value

/-- The name of the other side in a contact. -/
def aliasOf (address : SipAddress) : Text :=
  if address.display.isEmpty then address.url.username else address.display

/-- A connection. -/
structure Con where
  id : Text
  isTcp : Bool := false
  localPort : ℤ := 0
  deriving DecidableEq, Repr

/-- A response; its other headers are copied from the request. -/
structure Response where
  request : Message
  status : Text := text "200"
  msg : Text := text "OK"
  contact : Option SipAddress := none
  allow : Bool := false
  toTag : Option Text := none
  deriving DecidableEq, Repr

/-- A request within a call, behind a `Via` of the local address. -/
structure Request where
  method : Text
  url : VoipUri
  cseq : UInt32
  callId : Text
  source : SipAddress
  target : SipAddress
  contact : SipAddress
  branch : Text
  deriving DecidableEq, Repr

/-- `call::reason_code_t`, the reasons that a message can lead to. -/
inductive Reason
  | error | hangup | busy
  deriving DecidableEq, Repr

inductive Output
  | respond (con : Text) (rsp : Response)
  | request (con : Text) (req : Request)
  | stopConnection (con : Text)
  | incomingCall (call localAlias remoteAlias remoteAddr : Text) (remotePort : ℤ)
  | remoteRinging (call : Text)
  | connected (call localAlias remoteAlias : Text)
  | openMedia (call : Text) (mt : MediaType) (mid : Text)
  | hangup (call : Text) (reason : Reason)
  deriving DecidableEq, Repr

/-! ### `sip_call` -/

structure SipCall (ρ : Type) where
  callId : Text
  outgoing : Bool
  con : Option Con
  isGkClient : Bool := false
  active : Bool := false
  invite : Message := {}
  url : VoipUri := {}
  localAlias : Text
  remoteAlias : Text := []
  natAddress : Text
  localPort : ℤ
  cseqBase : UInt32 := 1
  myTag : Text := []
  otherTag : Text := []
  gotAck : Bool := false
  gotBye : Bool := false
  triggeredConnected : Bool := false
  rtp : ρ

namespace SipCall

variable {ρ : Type} (rtp : Rtp ρ) (call : SipCall ρ)

/-- `call::invoke_connected`. -/
def invokeConnected : SipCall ρ × List Output :=
  if call.triggeredConnected then (call, [])
  else
    ({ call with triggeredConnected := true },
      [.connected call.callId call.localAlias call.remoteAlias])

def makeContact (con : Con) : SipAddress :=
  let contact : SipAddress :=
    if call.outgoing then
      { url := { username := call.localAlias, host := call.natAddress, port := con.localPort } }
    else { url := call.url, display := call.localAlias }
  if con.isTcp then
    let queries := contact.url.queries ++ [⟨text "transport", text "tcp"⟩]
    { contact with url := { contact.url with queries } }
  else contact

/-- The response of a call, where there is a connection. -/
def respond (rsp : Con → Response) : List Output :=
  match call.con with
  | none => []
  | some con => [.respond con.id (rsp con)]

/-- `sip_call::ack`; the request goes out after the call is connected. -/
def ack (msg : Message) (branch : Text) : SipCall ρ × List Output :=
  match call.con with
  | none => (call, [])
  | some con =>
    let req : Request :=
      { method := text "ACK"
        url := call.url
        cseq := (cseq msg).1
        callId := call.callId
        source := (from' msg).getD {}
        target := (toAddress msg).getD {}
        contact := call.makeContact con
        branch }
    let (call, os) := { call with gotAck := true }.invokeConnected
    (call, os ++ [.request con.id req])

/-- The alias that a contact gives the other side. -/
def contactAlias (msg : Message) : Text :=
  match contact msg with
  | some address => aliasOf address
  | none => call.remoteAlias

def onRinging (msg : Message) : SipCall ρ × List Output :=
  ({ call with remoteAlias := call.contactAlias msg }, [.remoteRinging call.callId])

def onAck : SipCall ρ × List Output := { call with gotAck := true }.invokeConnected

def onInfo (msg : Message) : SipCall ρ × List Output :=
  (call, call.respond fun con => { request := msg, contact := some (call.makeContact con) })

def onBye (msg : Message) : SipCall ρ × List Output :=
  ({ call with gotBye := true },
    (call.respond fun _ => { request := msg }) ++ [.hangup call.callId .hangup])

/-- A response is sent to the response as well. -/
def onDecline (msg : Message) (branch : Text) : SipCall ρ × List Output :=
  let (call, os) := { call with gotBye := true }.ack msg branch
  (call, (call.respond fun _ => { request := msg }) ++ os ++ [.hangup call.callId .busy])

def onOptions (msg : Message) : SipCall ρ × List Output :=
  (call, call.respond fun _ => { request := msg })

/-- What the response to an INVITE leaves in a call before it is acknowledged. -/
def takeAnswer (msg : Message) : SipCall ρ :=
  { call with
    remoteAlias := call.contactAlias msg
    rtp := if (rtp.parse msg.body).1 then rtp.setRemoteSdp call.rtp msg.body else call.rtp
    myTag := (getTag (from' msg)).getD call.myTag
    otherTag := (getTag (toAddress msg)).getD call.otherTag }

def onResponse (msg : Message) (branch : Text) : SipCall ρ × List Output :=
  if msg.filed2 ≠ text "200" then (call, [.hangup call.callId .error])
  else if belongsTo msg (text "INVITE") then
    let opened := (rtp.parse msg.body).2.map fun m => Output.openMedia call.callId m.1 m.2
    let (call, os) := (call.takeAnswer rtp msg).ack msg branch
    ({ call with rtp := rtp.start call.rtp }, opened ++ os)
  else if belongsTo msg (text "BYE") then ({ call with gotBye := true }, [])
  else (call, [])

/-- The first of these names that is not empty. -/
def callerAlias (invite : Message) : Text :=
  let caller := (from' invite).getD {}
  let contact := (contact invite).getD {}
  (([caller.display, caller.url.username, contact.display].find? (!·.isEmpty)).getD
    contact.url.username)

/-- `start` of an incoming call. Without channels the call is stopped, `none`. -/
def start (con : Con) (audio video : Bool) (tag : Text) : Option (SipCall ρ × List Output) :=
  (rtp.createChannels audio video call.rtp).map fun channels =>
    let address := (contact call.invite).getD {}
    let remoteAlias := callerAlias call.invite
    let ringing : Response :=
      { request := call.invite
        status := text "180"
        msg := text "Ringing"
        contact := some (call.makeContact con)
        allow := true
        toTag := some tag }
    ({ call with active := true, con := some con, rtp := channels, myTag := tag, remoteAlias },
      [.respond con.id { request := call.invite, status := text "100", msg := text "Trying" },
        .respond con.id ringing,
        .incomingCall call.callId call.localAlias remoteAlias address.url.host
          (if address.url.port = 0 then 5060 else address.url.port)])

end SipCall

/-! ### `endpoint` -/

/-- `endpoint`, with the connections of its gatekeeper client and of the registered
endpoints. -/
structure Endpoint (ρ : Type) where
  localAlias : Text := []
  natAddress : Text := []
  port : ℤ := 5060
  incomingAudio : Bool := true
  incomingVideo : Bool := true
  gkCon : Option Text := none
  regCons : List Text := []
  calls : Std.ExtTreeMap Text (SipCall ρ) compare := ∅

namespace Endpoint

variable {ρ : Type} (rtp : Rtp ρ) (ep : Endpoint ρ)

/-- A handler of the call that a message belongs to. -/
def withCall (msg : Message) (handler : SipCall ρ → SipCall ρ × List Output) :
    Endpoint ρ × List Output :=
  match ep.calls[callId msg]? with
  | none => (ep, [])
  | some call =>
    let (call, os) := handler call
    ({ ep with calls := ep.calls.insert (callId msg) call }, os)

/-- The call of an INVITE, before it is started. -/
def incoming (con : Con) (msg : Message) : SipCall ρ :=
  { callId := callId msg
    outgoing := false
    con := none
    isGkClient := ep.gkCon = some con.id || ep.regCons.contains con.id
    invite := msg
    url := VoipUri.parse msg.filed2 {}
    localAlias := ep.localAlias
    natAddress := ep.natAddress
    localPort := ep.port
    myTag := (getTag (toAddress msg)).getD []
    otherTag := (getTag (from' msg)).getD []
    rtp := rtp.fresh }

/-- `on_invite`. A call that cannot be started is removed. -/
def onInvite (con : Con) (msg : Message) (tag : Text) : Endpoint ρ × List Output :=
  if ep.calls.contains (callId msg) then
    (ep, [.respond con.id
      { request := msg, status := text "488", msg := text "Not Accept Here" }])
  else
    let call := ep.incoming rtp con msg
    match call.start rtp con ep.incomingAudio ep.incomingVideo tag with
    | none => (ep, if call.isGkClient then [] else [.stopConnection con.id])
    | some (call, os) => ({ ep with calls := ep.calls.insert (callId msg) call }, os)

/-- `on_response`, for the calls. -/
def onResponse (msg : Message) (branch : Text) : Endpoint ρ × List Output :=
  ep.withCall msg fun call =>
    if msg.filed2 = text "100" then (call, [])
    else if msg.filed2 = text "180" then call.onRinging msg
    else if msg.filed2 = text "603" then call.onDecline msg branch
    else call.onResponse rtp msg branch

/-- `handle_message`, for the calls; `random` is the tag or the branch that is made. -/
def handleMessage (con : Con) (msg : Message) (random : Text) : Endpoint ρ × List Output :=
  if msg.matchMethod (text "INVITE") then ep.onInvite rtp con msg random
  else if msg.matchMethod (text "MESSAGE") then (ep, [.respond con.id { request := msg }])
  else if msg.matchMethod (text "ACK") then ep.withCall msg SipCall.onAck
  else if msg.matchMethod (text "INFO") then ep.withCall msg fun call => call.onInfo msg
  else if msg.matchMethod (text "BYE") then ep.withCall msg fun call => call.onBye msg
  else if msg.matchMethod (text "OPTIONS") then ep.withCall msg fun call => call.onOptions msg
  else if msg.matchMethod (text "SIP/2.0") then ep.onResponse rtp msg random
  else (ep, [])

end Endpoint

end CxxDeps.Voip
