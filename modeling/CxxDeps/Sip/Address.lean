import CxxDeps.Hypertext.Message

/-! `voip_uri`, `sip_address` and the accessors of `sip_message` that a registrar
reads. A parser assigns the fields it finds, so the others keep their values. -/

namespace CxxDeps.Sip

open Sys Hypertext

/-! ### `voip_uri` -/

structure VoipUri where
  scheme : Text := text "sip"
  username : Text := []
  host : Text := []
  port : ℤ := 0
  queries : List Item := []
  deriving DecidableEq, Repr

/-- The parameters of a list such as `a=b;c`. -/
def parseQueries (s : Text) : List Item :=
  (split s (text ";") none true).map fun q =>
    let nv := split q (text "=") (some 2) true
    ⟨nv.getD 0 [], nv.getD 1 []⟩

def VoipUri.parseHost (host : Text) (uri : VoipUri) : VoipUri :=
  let (uri, nameHostPort) :=
    if icasecompare (host.take 4) (text "sip:") then
      ({ uri with scheme := text "sip" }, host.drop 4)
    else if icasecompare (host.take 5) (text "h323:") then
      ({ uri with scheme := text "h323" }, host.drop 5)
    else (uri, host)
  match split nameHostPort (text "@") (some 2) false with
  | username :: hostPort :: _ =>
    let uri := { uri with username }
    match split hostPort (text ":") (some 2) true with
    | host :: port :: _ => { uri with host, port := toInt32 (strtol 10 port) }
    | [host] => { uri with host }
    | [] => uri
  | _ =>
    match split nameHostPort (text ":") (some 2) false with
    | host :: port :: _ => { uri with host, port := toInt32 (strtol 10 port) }
    | [username] => { uri with username }
    | [] => uri

def VoipUri.parse (s : Text) (uri : VoipUri) : VoipUri :=
  match split s (text ";") (some 2) true with
  | host :: query :: _ => { uri.parseHost host with queries := parseQueries query }
  | [host] => uri.parseHost host
  | [] => uri

/-! ### `sip_address` -/

structure SipAddress where
  display : Text := []
  url : VoipUri := {}
  queries : List Item := []
  deriving DecidableEq, Repr

/-- The parameters of a URI without angle brackets belong to the address. -/
def SipAddress.takeQueries (addr : SipAddress) : SipAddress :=
  { addr with queries := addr.url.queries, url := { addr.url with queries := [] } }

def isBlank (c : UInt8) : Bool := c == 0x20 || c == 0x3C

def SipAddress.parse (s : Text) (addr : SipAddress) : SipAddress :=
  let display := (s.takeWhile (!isBlank ·)).filter (· != 0x22)
  match s.dropWhile (!isBlank ·) with
  | [] => takeQueries { addr with display := [], url := addr.url.parse s }
  | rest =>
    -- up to the closing bracket, without blanks and opening brackets
    let suri := rest.takeWhile (· != 0x3E)
    let addr := { addr with display, url := addr.url.parse (suri.filter (!isBlank ·)) }
    if suri.contains 0x3C then
      match rest.drop (suri.length + 1) with
      | [] => addr
      | params => { addr with queries := parseQueries params }
    else addr.takeQueries

/-! ### `sip_message` -/

def from' (message : Message) : Option SipAddress :=
  (message.headers.get (text "From")).map fun value => SipAddress.parse value {}

def contact (message : Message) : Option SipAddress :=
  (message.headers.get (text "Contact")).map fun value => SipAddress.parse value {}

def expires (message : Message) : Option ℤ :=
  (message.headers.get (text "Expires")).map fun value => toInt32 (strtol 10 value)

def authenticate (message : Message) : Text :=
  (message.headers.get (text "Authorization")).getD []

example : (SipAddress.parse (text "\"Bob\" <sip:bob@10.0.0.1:5061>;tag=7") {}) =
    { display := text "Bob"
      url := { username := text "bob", host := text "10.0.0.1", port := 5061 }
      queries := [⟨text "tag", text "7"⟩] } := by
  decide +kernel

end CxxDeps.Sip
