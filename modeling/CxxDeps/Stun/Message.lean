import CxxDeps.Library.BigEndian

/-! STUN attributes and messages (rtpx/stun/stun_attribute.cpp, stun_message.cpp) and
`sasl_prep` (sys2/security/util.cpp) on a little-endian host. HMAC-SHA1 and CRC32 are
parameters. A password is passed by reference and rewritten in place, so what uses one
also returns what is left of it. -/

namespace CxxDeps.Stun

open Library

/-! ### Attributes -/

structure Attribute where
  type : UInt16
  value : List UInt8
  deriving DecidableEq, Repr

namespace Attribute

def messageIntegrity : UInt16 := 0x0008
def errorCode : UInt16 := 0x0009
def priority : UInt16 := 0x0024
def useCandidate : UInt16 := 0x0025
def xorMappedAddress : UInt16 := 0x0020
def username : UInt16 := 0x0006
def fingerprint : UInt16 := 0x8028
def googNetworkInfo : UInt16 := 0xc057
def iceControlled : UInt16 := 0x8029
def iceControlling : UInt16 := 0x802a

/-- The bytes that fill a value up to a multiple of four. -/
def padding (len : ℕ) : ℕ := if len % 4 = 0 then 0 else 4 - len % 4

def serialize (attr : Attribute) : List UInt8 :=
  toBe16 attr.type ++ toBe16 (UInt16.ofNat attr.value.length) ++ attr.value ++
    List.replicate (padding attr.value.length) 0

/-- The attribute at the start of a buffer and the bytes it takes; `none` where the
source returns `-1`. -/
def deserialize : List UInt8 → Option (Attribute × ℕ)
  | t₀ :: t₁ :: l₀ :: l₁ :: rest =>
    let len := (be16 l₀ l₁).toNat
    if rest.length < len + padding len then none
    else some (⟨be16 t₀ t₁, rest.take len⟩, len + 4 + padding len)
  | _ => none

end Attribute

/-- The loop of `stun_message::deserialize`; an attribute takes bytes, so the length of
the buffer bounds the rounds. -/
def readAttributes : ℕ → List UInt8 → List Attribute
  | 0, _ => []
  | n + 1, buf =>
    match Attribute.deserialize buf with
    | none => []
    | some (attr, offset) => attr :: readAttributes n (buf.drop offset)

/-! ### Passwords -/

/-- The loop of `sasl_prep`: the input that is left, the buffer and the place that is
written next, which is never behind the place that is read. -/
def saslPrepLoop : List UInt8 → List UInt8 → ℕ → List UInt8
  | [], s, out => s.set out 0
  | c :: rest, s, out =>
    if c = 0 then s.set out 0
    else if c = 0xAD then saslPrepLoop rest s out
    else if c = 0xA0 ∨ c = 0x20 then saslPrepLoop rest (s.set out 0x20) (out + 1)
    else if c = 0x7F then s
    else if c < 0x1F then s
    else if 0x80 ≤ c ∧ c ≤ 0x9F then s
    else saslPrepLoop rest (s.set out c) (out + 1)

/-- What `sasl_prep` leaves in the string; the zero after a string of full length is
its terminator. -/
def saslPrep (s : List UInt8) : List UInt8 := saslPrepLoop s s 0

/-! ### Messages -/

/-- HMAC-SHA1 of a text under a key, and CRC32. -/
structure Hash where
  hmac : List UInt8 → List UInt8 → Vector UInt8 20
  crc32 : List UInt8 → UInt32

/-- The type is a bit-field of fourteen bits. -/
structure Message where
  type : BitVec 14
  magicCookie : UInt32 := 0x2112A442
  transactionId : Vector UInt8 12
  attributes : List Attribute
  deriving DecidableEq, Repr

namespace Message

def bindingRequest : BitVec 14 := 0x0001
def bindingResponse : BitVec 14 := 0x0101
def bindingErrorResponse : BitVec 14 := 0x0111

def hton16 (x : UInt16) : UInt16 := (x <<< 8) ||| (x >>> 8)

/-- The mask meets the type after its bytes have been swapped. -/
def typeBytes (type : BitVec 14) : List UInt8 :=
  let type := hton16 (UInt16.ofNat type.toNat) &&& 0x3FFF
  [type.toUInt8, (type >>> 8).toUInt8]

/-- `serialize(placeholder)`: the length counts `placeholder` bytes to come. -/
def serializeWith (msg : Message) (placeholder : ℕ) : List UInt8 :=
  let data := msg.attributes.flatMap Attribute.serialize
  typeBytes msg.type ++ toBe16 (UInt16.ofNat (data.length + placeholder)) ++
    toBe32 msg.magicCookie ++ msg.transactionId.toList ++ data

/-- `stun_attribute_message_integrity::create_short_turn`. -/
def createShortTurn (H : Hash) (data password : List UInt8) : Vector UInt8 20 × List UInt8 :=
  let password := saslPrep password
  (H.hmac data password, password)

def calculateFingerprint (H : Hash) (data : List UInt8) : UInt32 := H.crc32 data ^^^ 0x5354554e

/-- `serialize(password)`. -/
def serialize (H : Hash) (msg : Message) (password : List UInt8) : List UInt8 × List UInt8 :=
  let s := msg.serializeWith 24
  let (code, password) := createShortTurn H s password
  let s := s ++ Attribute.serialize ⟨Attribute.messageIntegrity, code.toList⟩
  let len := UInt16.ofNat (s.length - 20 + 8)
  let s := (s.set 2 (len >>> 8).toUInt8).set 3 len.toUInt8
  (s ++ Attribute.serialize ⟨Attribute.fingerprint, toBe32 (calculateFingerprint H s)⟩, password)

/-- The message and the fingerprint that the caller may compare. -/
def deserialize (H : Hash) (buffer : List UInt8) : Option (Message × UInt32) :=
  let fingerprint := calculateFingerprint H (buffer.take (buffer.length - 8))
  match buffer with
  | y₀ :: y₁ :: l₀ :: l₁ :: c₀ :: c₁ :: c₂ :: c₃ :: t₀ :: t₁ :: t₂ :: t₃ :: t₄ :: t₅ :: t₆ :: t₇ ::
      t₈ :: t₉ :: t₁₀ :: t₁₁ :: rest =>
    if rest.length < (be16 l₀ l₁).toNat then none
    else some
      ({ type := BitVec.ofNat 14 (be16 y₀ y₁).toNat
         magicCookie := be32 c₀ c₁ c₂ c₃
         transactionId := #v[t₀, t₁, t₂, t₃, t₄, t₅, t₆, t₇, t₈, t₉, t₁₀, t₁₁]
         attributes := readAttributes rest.length rest }, fingerprint)
  | _ => none

/-- `calculate_message_integrity(password)`; `none` where there is no attribute to
remove, or no prefix to cover. -/
def calculateMessageIntegrity (H : Hash) (msg : Message) (password : List UInt8) :
    Option (Vector UInt8 20 × List UInt8) :=
  if msg.attributes = [] then none
  else
    let s := serializeWith { msg with attributes := msg.attributes.dropLast } 0
    if s.length < 24 then none else some (createShortTurn H (s.take (s.length - 24)) password)

/-- The value of the first attribute of a type, or an empty one. -/
def getAttribute (msg : Message) (type : UInt16) : List UInt8 :=
  ((msg.attributes.find? (·.type = type)).map Attribute.value).getD []

end Message

end CxxDeps.Stun
