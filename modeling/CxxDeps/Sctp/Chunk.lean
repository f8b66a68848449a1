import CxxDeps.Library.BigEndian
import CxxDeps.Library.Units

/-! The chunks of `rtpx/sctp/sctp_chunk` and their wire forms. A `deserialize` of
the source returns false for a buffer it refuses; where it copies a range that
ends before it begins the behaviour is undefined, and the model says so. -/

namespace CxxDeps.Sctp

open Library

/-- How a `deserialize` ends other than with a value. -/
inductive Fault
  | rejected
  | undefined
  deriving DecidableEq, Repr

/-- `SCTP_MAX_CHUNK_SIZE`. -/
def maxChunkSize : ℕ := 4096

/-- `sctp_chunk_type`. A received byte may be none of the enumerators. -/
inductive ChunkType
  | data
  | init
  | initAck
  | sack
  | heartbeat
  | heartbeatAck
  | abort
  | shutdown
  | shutdownAck
  | operationalError
  | cookieEcho
  | cookieAck
  | unnamed (b : UInt8)
  deriving DecidableEq, Repr

def ChunkType.toByte : ChunkType → UInt8
  | data => 0x00
  | init => 0x01
  | initAck => 0x02
  | sack => 0x03
  | heartbeat => 0x04
  | heartbeatAck => 0x05
  | abort => 0x06
  | shutdown => 0x07
  | shutdownAck => 0x08
  | operationalError => 0x09
  | cookieEcho => 0x0a
  | cookieAck => 0x0b
  | unnamed b => b

def ChunkType.ofByte (b : UInt8) : ChunkType :=
  match b.toNat with
  | 0x00 => data
  | 0x01 => init
  | 0x02 => initAck
  | 0x03 => sack
  | 0x04 => heartbeat
  | 0x05 => heartbeatAck
  | 0x06 => abort
  | 0x07 => shutdown
  | 0x08 => shutdownAck
  | 0x09 => operationalError
  | 0x0a => cookieEcho
  | 0x0b => cookieAck
  | _ => unnamed b

/-- The type is one of the enumerators. -/
def ChunkType.Named : ChunkType → Prop
  | unnamed _ => False
  | _ => True

theorem ChunkType.ofByte_toByte {t : ChunkType} (h : t.Named) : ofByte t.toByte = t := by
  cases t with
  | unnamed b => exact h.elim
  | _ => rfl

/-- `sctp_chunk_flags`, a set of bits. -/
abbrev ChunkFlags := UInt8

def flagsNone : ChunkFlags := 0x00
def flagsEnd : ChunkFlags := 0x01
def flagsBegin : ChunkFlags := 0x02
def flagsUnordered : ChunkFlags := 0x04

/-- `sctp_payload_protocol_id`, any 32-bit value on the wire. -/
structure Ppid where
  val : UInt32
  deriving DecidableEq, Repr

def Ppid.dcep : Ppid := ⟨50⟩
def Ppid.string : Ppid := ⟨51⟩
def Ppid.binary : Ppid := ⟨53⟩
def Ppid.emptyString : Ppid := ⟨56⟩
def Ppid.emptyBinary : Ppid := ⟨57⟩

/-- `sctp_init_parameter_type::state_cookie`. -/
def stateCookie : UInt16 := 0x0007

/-- The causes of `sctp_error_cause` that `sctp` reports. -/
inductive ErrorCause
  | missingMandatoryParameter
  | staleCookieError
  | protocolViolation
  deriving DecidableEq, Repr

def ErrorCause.toWord : ErrorCause → UInt16
  | missingMandatoryParameter => 0x0002
  | staleCookieError => 0x0003
  | protocolViolation => 0x000D

/-- The bytes that follow a unit of length `len` up to a multiple of four. -/
def padding (len : ℕ) : ℕ := if len % 4 ≠ 0 then 4 - len % 4 else 0

/-! ### Parameters -/

/-- `sctp_chunk_tlv`. -/
structure Tlv where
  type : UInt16
  value : List UInt8
  deriving DecidableEq, Repr

def Tlv.deserialize : List UInt8 → Except Fault (Tlv × ℕ)
  | t₀ :: t₁ :: l₀ :: l₁ :: rest =>
    let size := rest.length + 4
    let len := (be16 l₀ l₁).toNat
    if maxChunkSize < size then .error .rejected
    else if size < len then .error .rejected
    -- the copy of `[data + 4, data + len)`
    else if len < 4 then .error .undefined
    else .ok (⟨be16 t₀ t₁, rest.take (len - 4)⟩, min size (len + padding len))
  | _ => .error .rejected

def Tlv.serialize (tlv : Tlv) : List UInt8 :=
  let len := UInt16.ofNat (4 + tlv.value.length)
  toBe16 tlv.type ++ toBe16 len ++ tlv.value ++ List.replicate (padding len.toNat) 0

/-- The loop over the parameters of a chunk. -/
def readParameters (data : List UInt8) : Except Fault (List Tlv) :=
  readUnits Tlv.deserialize data.length data

def serializeParameters (parameters : List Tlv) : List UInt8 := parameters.flatMap Tlv.serialize

/-- `find_paramter`. -/
def findParameter (type : UInt16) (parameters : List Tlv) : Option (List UInt8) :=
  (parameters.find? (·.type == type)).map Tlv.value

/-! ### The chunk -/

/-- `sctp_chunk`. -/
structure Chunk where
  type : ChunkType
  flags : ChunkFlags
  len : UInt16 := 0
  payload : List UInt8
  deriving DecidableEq, Repr

def Chunk.payloadLength (chunk : Chunk) : UInt16 := chunk.len - 4

def Chunk.deserialize : List UInt8 → Except Fault (Chunk × ℕ)
  | t :: f :: l₀ :: l₁ :: rest =>
    let size := rest.length + 4
    let len := be16 l₀ l₁
    let paddingLen := len.toNat + padding len.toNat
    if maxChunkSize < size then .error .rejected
    else if paddingLen < 4 ∨ size < paddingLen then .error .rejected
    -- the copy of `[data + 4, data + len)`
    else if len.toNat < 4 then .error .undefined
    else .ok (⟨.ofByte t, f, len, rest.take (len.toNat - 4)⟩, paddingLen)
  | _ => .error .rejected

def Chunk.serialize (chunk : Chunk) : List UInt8 :=
  let len := UInt16.ofNat (4 + chunk.payload.length)
  [chunk.type.toByte, chunk.flags] ++ toBe16 len ++ chunk.payload ++
    List.replicate (padding len.toNat) 0

/-! ### Payloads -/

/-- `sctp_data_chunk`. -/
structure DataChunk where
  tsn : UInt32
  streamId : UInt16
  streamSequence : UInt16
  payloadProtocolId : Ppid
  payload : List UInt8
  deriving DecidableEq, Repr

def DataChunk.deserialize : List UInt8 → Except Fault DataChunk
  | t₀ :: t₁ :: t₂ :: t₃ :: s₀ :: s₁ :: q₀ :: q₁ :: p₀ :: p₁ :: p₂ :: p₃ :: payload =>
    if maxChunkSize < payload.length + 12 then .error .rejected
    else .ok ⟨be32 t₀ t₁ t₂ t₃, be16 s₀ s₁, be16 q₀ q₁, ⟨be32 p₀ p₁ p₂ p₃⟩, payload⟩
  | _ => .error .rejected

def DataChunk.serialize (chunk : DataChunk) : List UInt8 :=
  toBe32 chunk.tsn ++ toBe16 chunk.streamId ++ toBe16 chunk.streamSequence ++
    toBe32 chunk.payloadProtocolId.val ++ chunk.payload

structure GapItem where
  first : UInt32
  last : UInt32
  deriving DecidableEq, Repr

/-- `sctp_sack_chunk`. -/
structure SackChunk where
  tsn : UInt32
  arwnd : UInt32
  gaps : List GapItem
  dups : List UInt32
  deriving DecidableEq, Repr

/-- The loop over the gap blocks, and what it leaves. -/
def readGaps : ℕ → List UInt8 → List GapItem × List UInt8
  | n + 1, b₀ :: b₁ :: e₀ :: e₁ :: rest =>
    let (gaps, rest) := readGaps n rest
    (⟨(be16 b₀ b₁).toUInt32, (be16 e₀ e₁).toUInt32⟩ :: gaps, rest)
  | _, rest => ([], rest)

def readDups : ℕ → List UInt8 → List UInt32
  | n + 1, b₀ :: b₁ :: b₂ :: b₃ :: rest => be32 b₀ b₁ b₂ b₃ :: readDups n rest
  | _, _ => []

/-- The size is checked for eight bytes a gap block, and both loops run to the
number of gap blocks. -/
def SackChunk.deserialize : List UInt8 → Except Fault SackChunk
  | t₀ :: t₁ :: t₂ :: t₃ :: a₀ :: a₁ :: a₂ :: a₃ :: g₀ :: g₁ :: d₀ :: d₁ :: rest =>
    let size := rest.length + 12
    let numGap := (be16 g₀ g₁).toNat
    let numDup := (be16 d₀ d₁).toNat
    if maxChunkSize < size then .error .rejected
    else if size < numGap * 8 + numDup * 4 + 12 then .error .rejected
    else
      let (gaps, rest) := readGaps numGap rest
      .ok ⟨be32 t₀ t₁ t₂ t₃, be32 a₀ a₁ a₂ a₃, gaps, readDups numGap rest⟩
  | _ => .error .rejected

/-- Four bytes a gap block. -/
def SackChunk.serialize (chunk : SackChunk) : List UInt8 :=
  let numGap := UInt16.ofNat chunk.gaps.length
  let numDup := UInt16.ofNat chunk.dups.length
  toBe32 chunk.tsn ++ toBe32 chunk.arwnd ++ toBe16 numGap ++ toBe16 numDup ++
    ((chunk.gaps.take numGap.toNat).flatMap fun gap =>
      toBe16 gap.first.toUInt16 ++ toBe16 gap.last.toUInt16) ++
    (chunk.dups.take numDup.toNat).flatMap toBe32

/-- `sctp_heartbeat_chunk`. -/
structure HeartbeatChunk where
  parameters : List Tlv
  deriving DecidableEq, Repr

def HeartbeatChunk.deserialize (data : List UInt8) : Except Fault HeartbeatChunk :=
  if data.length ≤ 0 ∨ maxChunkSize < data.length then .error .rejected
  else (readParameters data).map HeartbeatChunk.mk

def HeartbeatChunk.serialize (chunk : HeartbeatChunk) : List UInt8 :=
  serializeParameters chunk.parameters

/-- `sctp_init_chunk`, also `sctp_init_ack_chunk`. -/
structure InitChunk where
  initTag : UInt32
  arwnd : UInt32
  numOutStream : UInt16
  numInStream : UInt16
  initTsn : UInt32
  parameters : List Tlv := []
  deriving DecidableEq, Repr

def InitChunk.deserialize : List UInt8 → Except Fault InitChunk
  | g₀ :: g₁ :: g₂ :: g₃ :: a₀ :: a₁ :: a₂ :: a₃ :: o₀ :: o₁ :: i₀ :: i₁ ::
      t₀ :: t₁ :: t₂ :: t₃ :: rest =>
    if maxChunkSize < rest.length + 16 then .error .rejected
    else (readParameters rest).map
      (InitChunk.mk (be32 g₀ g₁ g₂ g₃) (be32 a₀ a₁ a₂ a₃) (be16 o₀ o₁) (be16 i₀ i₁)
        (be32 t₀ t₁ t₂ t₃))
  | _ => .error .rejected

def InitChunk.serialize (chunk : InitChunk) : List UInt8 :=
  toBe32 chunk.initTag ++ toBe32 chunk.arwnd ++ toBe16 chunk.numOutStream ++
    toBe16 chunk.numInStream ++ toBe32 chunk.initTsn ++ serializeParameters chunk.parameters

/-- `sctp_shutdown_chunk`. -/
structure ShutdownChunk where
  tsn : UInt32
  deriving DecidableEq, Repr

def ShutdownChunk.serialize (chunk : ShutdownChunk) : List UInt8 := toBe32 chunk.tsn

/-- `sctp_abort_chunk`. -/
structure AbortChunk where
  parameters : List Tlv
  deriving DecidableEq, Repr

def AbortChunk.deserialize (data : List UInt8) : Except Fault AbortChunk :=
  if maxChunkSize < data.length then .error .rejected
  else (readParameters data).map AbortChunk.mk

/-- `sctp_error_chunk`. -/
structure ErrorChunk where
  parameters : List Tlv
  deriving DecidableEq, Repr

def ErrorChunk.serialize (chunk : ErrorChunk) : List UInt8 := serializeParameters chunk.parameters

/-- `sctp_cookie_echo_chunk`. -/
structure CookieEchoChunk where
  cookie : List UInt8
  deriving DecidableEq, Repr

def CookieEchoChunk.deserialize (data : List UInt8) (len : UInt16) :
    Except Fault CookieEchoChunk :=
  if data.length < len.toNat ∨ maxChunkSize < data.length then .error .rejected
  else .ok ⟨data.take len.toNat⟩

def CookieEchoChunk.serialize (chunk : CookieEchoChunk) : List UInt8 := chunk.cookie

end CxxDeps.Sctp
