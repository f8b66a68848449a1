import CxxDeps.Sys.StringUtil

/-! `hypertext::headers` and the fields of `hypertext::message`, which HTTP, RTSP and
SIP messages share. -/

namespace CxxDeps.Hypertext

open Sys

/-- `headers::item_t`. -/
structure Item where
  name : Text
  value : Text
  deriving DecidableEq, Repr

abbrev Headers := List Item

/-- The value of the first header of this name, in any case. -/
def Headers.get (name : Text) (headers : Headers) : Option Text :=
  (headers.find? fun item => icasecompare item.name name).map Item.value

/-- `message`: the three fields of the first line, the headers and the body. -/
structure Message where
  filed1 : Text := []
  filed2 : Text := []
  filed3 : Text := []
  headers : Headers := []
  body : Text := []
  deriving DecidableEq, Repr

def Message.matchMethod (method : Text) (message : Message) : Bool :=
  icasecompare message.filed1 method

end CxxDeps.Hypertext
