import CxxDeps.Stun.Message
import CxxDeps.Sys.StringUtil

/-! The STUN side of `rtpx::transport` (rtpx/transports/transport.cpp): connectivity
checks and the role of ICE. A tie-breaker is written as eight bytes and read as an
attribute inside the attribute; an error code is written as one byte. -/

namespace CxxDeps.Stun

open Library

/-! ### Values of attributes -/

inductive Address
  | v4 (bytes : Vector UInt8 4)
  | v6 (bytes : Vector UInt8 16)
  deriving DecidableEq, Repr

/-- `asio::ip::udp::endpoint`. -/
structure Endpoint where
  address : Address
  port : UInt16
  deriving DecidableEq, Repr

/-- `stun_attribute_xor_mapped_address::create` and `serialize`. -/
def xorMappedAddress (endpoint : Endpoint) (tid : Vector UInt8 12) : List UInt8 :=
  let cookie : List UInt8 := [0x21, 0x12, 0xA4, 0x42]
  let port := toBe16 (endpoint.port ^^^ 0x2112)
  match endpoint.address with
  | .v4 bytes => 0 :: 1 :: port ++ List.zipWith (· ^^^ ·) bytes.toList cookie
  | .v6 bytes => 0 :: 2 :: port ++ List.zipWith (· ^^^ ·) bytes.toList (cookie ++ tid.toList)

/-- `stun_attribute_error_code`. -/
structure ErrorCode where
  class' : BitVec 3
  number : ℤ
  reason : List UInt8
  deriving DecidableEq, Repr

def roleConflict : ℤ := 487

/-- The number is appended as a single `char`. -/
def ErrorCode.serialize (e : ErrorCode) : List UInt8 :=
  [0, 0, UInt8.ofNat e.class'.toNat, UInt8.ofNat (e.number % 256).toNat] ++ e.reason ++
    List.replicate (Attribute.padding e.reason.length) 0

/-- A `char` of the platform is signed. -/
def charValue (b : UInt8) : ℤ := if b < 0x80 then b.toNat else b.toNat - 256

/-- The reason starts with the first four bytes instead of after them. -/
def ErrorCode.deserialize (buffer : List UInt8) : Option ErrorCode :=
  match buffer with
  | _ :: _ :: c :: n :: rest =>
    some ⟨BitVec.ofNat 3 c.toNat, charValue n, buffer.take rest.length⟩
  | _ => none

/-- The bytes of `hton64(x)`. -/
def toBe64 (x : UInt64) : List UInt8 := toBe32 (x >>> 32).toUInt32 ++ toBe32 x.toUInt32

/-- `ntoh64` of a zero word over whose front some bytes were copied. -/
def be64 (bytes : List UInt8) : UInt64 :=
  (List.range 8).foldl (fun v i => (v <<< 8) ||| (bytes.getD i 0).toUInt64) 0

/-- A tie-breaker as it is judged: the value of an attribute is taken for an attribute
of its own. -/
def readTieBreaker (val : List UInt8) : Option UInt64 :=
  (Attribute.deserialize val).map fun r => be64 r.1.value

/-! ### The transport -/

inductive IceRole
  | controlling
  | controlled
  deriving DecidableEq, Repr

inductive DtlsRole
  | client
  | server
  deriving DecidableEq, Repr

structure Transport where
  localPort : UInt16
  iceUfragRemote : List UInt8
  icePwdRemote : List UInt8
  iceUfragLocal : List UInt8
  icePwdLocal : List UInt8
  localIceNetworkId : UInt16 := 1
  localIceNetworkCost : UInt16 := 10
  dtlsRole : DtlsRole := .server
  iceRole : IceRole := .controlling
  tieBreaker : UInt64
  handshake : Bool := false
  deriving DecidableEq, Repr

/-- What the transport calls: `send`, `send_dtls_request` and `on_stun_completed`. -/
inductive Output
  | send (data : List UInt8) (endpoint : Endpoint)
  | sendDtlsRequest (endpoint : Endpoint)
  | onStunCompleted (endpoint : Endpoint)
  deriving DecidableEq, Repr

namespace Transport

/-- The request of `send_stun_request` with the transaction id that was drawn. -/
def stunRequest (tp : Transport) (localPriority : UInt32) (tid : Vector UInt8 12) : Message where
  type := Message.bindingRequest
  transactionId := tid
  attributes :=
    [⟨Attribute.username, tp.iceUfragRemote ++ [0x3A] ++ tp.iceUfragLocal⟩,
      ⟨Attribute.googNetworkInfo, toBe16 tp.localIceNetworkId ++ toBe16 tp.localIceNetworkCost⟩,
      ⟨match tp.iceRole with
        | .controlling => Attribute.iceControlling
        | .controlled => Attribute.iceControlled, toBe64 tp.tieBreaker⟩,
      ⟨Attribute.useCandidate, []⟩,
      ⟨Attribute.priority, toBe32 localPriority⟩]

def sendStunRequest (H : Hash) (tp : Transport) (localPriority : UInt32) (tid : Vector UInt8 12) :
    Transport × List UInt8 :=
  let (sreq, password) := (tp.stunRequest localPriority tid).serialize H tp.icePwdRemote
  ({ tp with icePwdRemote := password }, sreq)

/-- The tie-breaker of a request that claims the role of this side. -/
def conflict (tp : Transport) (msg : Message) : Option UInt64 :=
  if tp.iceRole = .controlling then
    let val := msg.getAttribute Attribute.iceControlling
    if val = [] then none else readTieBreaker val
  else none

def roleConflictResponse (tid : Vector UInt8 12) : Message where
  type := Message.bindingErrorResponse
  transactionId := tid
  attributes := [⟨Attribute.errorCode,
    ErrorCode.serialize ⟨4, roleConflict, Sys.text "Role Conflict"⟩⟩]

def bindingResponse (tid : Vector UInt8 12) (endpoint : Endpoint) : Message where
  type := Message.bindingResponse
  transactionId := tid
  attributes := [⟨Attribute.xorMappedAddress, Stun.xorMappedAddress endpoint tid⟩]

/-- A reply under the local password. -/
def answer (H : Hash) (tp : Transport) (rsp : Message) (endpoint : Endpoint) :
    Transport × List Output :=
  let (s, password) := rsp.serialize H tp.icePwdLocal
  ({ tp with icePwdLocal := password }, [.send s endpoint])

def handleStunCompleted (tp : Transport) (endpoint : Endpoint) : List Output :=
  (if !tp.handshake ∧ tp.dtlsRole = .client then [.sendDtlsRequest endpoint] else []) ++
    [.onStunCompleted endpoint]

/-- A role conflict is settled, and any other request answered. -/
def judge (H : Hash) (tp : Transport) (msg : Message) (endpoint : Endpoint) :
    Transport × List Output :=
  match tp.conflict msg with
  | some v =>
    if v ≤ tp.tieBreaker then tp.answer H (roleConflictResponse msg.transactionId) endpoint
    else ({ tp with iceRole := .controlled }, [])
  | none => tp.answer H (bindingResponse msg.transactionId endpoint) endpoint

/-- The request is judged after its endpoint was reported. -/
def handleRequest (H : Hash) (tp : Transport) (msg : Message) (endpoint : Endpoint) :
    Transport × List Output :=
  let r := tp.judge H msg endpoint
  (r.1, .onStunCompleted endpoint :: r.2)

def handleErrorResponse (tp : Transport) (msg : Message) : Transport :=
  let val := msg.getAttribute Attribute.errorCode
  if val = [] then tp
  else
    match ErrorCode.deserialize val with
    | none => tp
    | some e => if e.number = roleConflict then { tp with iceRole := .controlled } else tp

def handleStunMessage (H : Hash) (tp : Transport) (buffer : List UInt8) (endpoint : Endpoint) :
    Transport × List Output :=
  match Message.deserialize H buffer with
  | none => (tp, [])
  | some (msg, _) =>
    if msg.type = Message.bindingRequest then tp.handleRequest H msg endpoint
    else if msg.type = Message.bindingResponse then (tp, tp.handleStunCompleted endpoint)
    else if msg.type = Message.bindingErrorResponse then (tp.handleErrorResponse msg, [])
    else (tp, [])

/-! ### What a message does to the role -/

theorem charValue_le (b : UInt8) : charValue b ≤ 127 := by
  have hb := b.toNat_lt
  simp only [charValue]
  split_ifs with h
  · have h' : b.toNat < 128 := UInt8.lt_iff_toNat_lt.mp h
    omega
  · omega

/-- The code of a role conflict does not fit a byte, so it never arrives. -/
theorem number_ne_roleConflict {buffer : List UInt8} {e : ErrorCode}
    (h : ErrorCode.deserialize buffer = some e) : e.number ≠ roleConflict := by
  unfold ErrorCode.deserialize at h
  split at h
  · cases h
    rename_i n _
    have hn := charValue_le n
    simp only [roleConflict]
    omega
  · cases h

theorem handleErrorResponse_eq (tp : Transport) (msg : Message) :
    tp.handleErrorResponse msg = tp := by
  simp only [handleErrorResponse]
  split_ifs
  · rfl
  · split
    · rfl
    · rename_i e he
      rw [if_neg (number_ne_roleConflict he)]

/-- The message makes this side give up its role. -/
def Yields (tp : Transport) (msg : Message) : Prop :=
  msg.type = Message.bindingRequest ∧ ∃ v, tp.conflict msg = some v ∧ tp.tieBreaker < v

@[simp] theorem answer_iceRole (H : Hash) (tp : Transport) (rsp : Message) (endpoint : Endpoint) :
    (tp.answer H rsp endpoint).1.iceRole = tp.iceRole := rfl

@[simp] theorem answer_tieBreaker (H : Hash) (tp : Transport) (rsp : Message)
    (endpoint : Endpoint) : (tp.answer H rsp endpoint).1.tieBreaker = tp.tieBreaker := rfl

theorem handleRequest_iceRole (H : Hash) (tp : Transport) {msg : Message} (endpoint : Endpoint)
    (htype : msg.type = Message.bindingRequest) :
    (tp.Yields msg → (tp.handleRequest H msg endpoint).1.iceRole = .controlled) ∧
      (¬tp.Yields msg → (tp.handleRequest H msg endpoint).1.iceRole = tp.iceRole) := by
  simp only [handleRequest, judge, Yields, htype, true_and]
  cases hc : tp.conflict msg with
  | none => simp
  | some v =>
    simp only [Option.some.injEq, exists_eq_left']
    by_cases hv : v ≤ tp.tieBreaker
    · rw [if_pos hv]
      exact ⟨fun h => absurd h (UInt64.not_lt.mpr hv), fun _ => rfl⟩
    · rw [if_neg hv]
      exact ⟨fun _ => rfl, fun h => absurd (UInt64.not_le.mp hv) h⟩

/-- The role changes only by yielding. -/
theorem handleStunMessage_iceRole {H : Hash} (tp : Transport) {buffer : List UInt8}
    {msg : Message} {fp : UInt32} (endpoint : Endpoint)
    (hread : Message.deserialize H buffer = some (msg, fp)) :
    (tp.Yields msg → (tp.handleStunMessage H buffer endpoint).1.iceRole = .controlled) ∧
      (¬tp.Yields msg → (tp.handleStunMessage H buffer endpoint).1.iceRole = tp.iceRole) := by
  simp only [handleStunMessage, hread]
  by_cases htype : msg.type = Message.bindingRequest
  · rw [if_pos htype]
    exact tp.handleRequest_iceRole H endpoint htype
  · have hno : ¬tp.Yields msg := fun h => htype h.1
    rw [if_neg htype, handleErrorResponse_eq]
    exact ⟨fun h => absurd h hno, fun _ => by split_ifs <;> rfl⟩

end Transport

end CxxDeps.Stun
