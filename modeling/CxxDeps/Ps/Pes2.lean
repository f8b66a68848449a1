import CxxDeps.Ps.Pack

/-! PES packets with all parts of their header (rtpx/mpeg/pes2.cpp). The parts of the
extension are kept in a record of their own. -/

namespace CxxDeps.Ps

open Library Reader

/-- The extension of a `pes2`. -/
structure PesExtension where
  pesPrivateDataFlag : BitVec 1 := 0
  packHeaderFieldFlag : BitVec 1 := 0
  programPackerSequenceCounterFlag : BitVec 1 := 0
  pStdBufferFlag : BitVec 1 := 0
  pesExtensionFlag2 : BitVec 1 := 0
  pesPrivateData : Vector UInt8 16 := .replicate 16 0
  headers : List UInt8 := []
  programPacketSequenceCounter : BitVec 7 := 0
  mpeg1Mpeg2Indentifier : BitVec 1 := 0
  originalStuffLength : BitVec 6 := 0
  pStdBufferScale : BitVec 1 := 0
  pStdBufferSize : BitVec 13 := 0
  pesExtensionFieldLength : BitVec 7 := 0
  deriving DecidableEq, Repr

/-- `pes2`. -/
structure Pes2 where
  pesScramblingControl : BitVec 2 := 0
  pesPriority : BitVec 1 := 0
  dataAlignmentIndicator : BitVec 1 := 0
  copyright : BitVec 1 := 0
  originalOrCopy : BitVec 1 := 0
  ptsDtsFlags : BitVec 2 := 0
  escrFlag : BitVec 1 := 0
  esRateFlag : BitVec 1 := 0
  dsmTrickModeFlag : BitVec 1 := 0
  additionalCopyInfoFlag : BitVec 1 := 0
  pesCrcFlag : BitVec 1 := 0
  pesExtensionFlag : BitVec 1 := 0
  pts : BitVec 33 := 0
  dts : BitVec 33 := 0
  escrBase : BitVec 33 := 0
  escrExtension : BitVec 9 := 0
  esRate : BitVec 22 := 0
  trickModeControl : BitVec 3 := 0
  trickModeVal : BitVec 5 := 0
  additionalCopyInfo : BitVec 7 := 0
  previousPesPacketCrc : UInt16 := 0
  extension : PesExtension := {}
  stuffingLength : UInt8 := 0
  pesPacketDataByte : List UInt8 := []
  deriving DecidableEq, Repr

/-! ### The writer -/

/-- A time stamp behind a tag. -/
def clockBytes (tag : ℕ) (t : BitVec 33) : List UInt8 :=
  [.ofNat (tag ||| (t.toNat &&& 0x1c0000000) >>> 29 ||| 1),
    .ofNat ((t.toNat &&& 0x3fc00000) >>> 22),
    .ofNat ((t.toNat &&& 0x3f8000) >>> 14),
    .ofNat ((t.toNat &&& 0x7F80) >>> 7),
    .ofNat ((t.toNat &&& 0x7F) <<< 1 ||| 0x01)]

def escrBytes (base : BitVec 33) (extension : BitVec 9) : List UInt8 :=
  let base := base.toNat
  let extension := extension.toNat
  [.ofNat (0xc0 ||| (base &&& 0x1c0000000) >>> 27 ||| 0x04 ||| (base &&& 0x30000000) >>> 28),
    .ofNat ((base &&& 0xff00000) >>> 20),
    .ofNat ((base &&& 0xf8000) >>> 12 ||| 0x04 ||| (base &&& 0x6000) >>> 13),
    .ofNat ((base &&& 0x1fe0) >>> 5),
    .ofNat ((base &&& 0x1f) <<< 3 ||| 0x04 ||| (extension &&& 0x180) >>> 7),
    .ofNat ((extension &&& 0x7F) <<< 1 ||| 0x01)]

def rateBytes (rate : BitVec 22) : List UInt8 :=
  [.ofNat (0x80 ||| (rate.toNat &&& 0x3f8000) >>> 15),
    .ofNat ((rate.toNat &&& 0x7f80) >>> 7),
    .ofNat ((rate.toNat &&& 0x7f) <<< 1 ||| 0x01)]

/-- The bytes of a part that is there if a flag is set. -/
def partBytes (flag : BitVec 1) (bytes : List UInt8) : List UInt8 := if flag = 1 then bytes else []

def PesExtension.serialize (ext : PesExtension) : List UInt8 :=
  [.ofNat (ext.pesPrivateDataFlag.toNat <<< 7 ||| ext.packHeaderFieldFlag.toNat <<< 6 |||
      ext.programPackerSequenceCounterFlag.toNat <<< 5 ||| ext.pStdBufferFlag.toNat <<< 4 |||
      0x0e ||| ext.pesExtensionFlag2.toNat)] ++
  partBytes ext.pesPrivateDataFlag ext.pesPrivateData.toList ++
  partBytes ext.packHeaderFieldFlag (.ofNat ext.headers.length :: ext.headers) ++
  partBytes ext.programPackerSequenceCounterFlag
    [.ofNat (0x80 ||| ext.programPacketSequenceCounter.toNat),
      .ofNat (0x80 ||| ext.mpeg1Mpeg2Indentifier.toNat <<< 6 ||| ext.originalStuffLength.toNat)] ++
  partBytes ext.pStdBufferFlag
    [.ofNat (0x40 ||| ext.pStdBufferScale.toNat <<< 5 |||
        (ext.pStdBufferSize.toNat &&& 0x1f00) >>> 8),
      .ofNat (ext.pStdBufferSize.toNat &&& 0xFF)] ++
  partBytes ext.pesExtensionFlag2
    (.ofNat (0x80 ||| ext.pesExtensionFieldLength.toNat) ::
      List.replicate ext.pesExtensionFieldLength.toNat 0xFF)

namespace Pes2

def timesBytes (pes : Pes2) : List UInt8 :=
  if pes.ptsDtsFlags = 2 then clockBytes 0x20 pes.pts
  else if pes.ptsDtsFlags = 3 then clockBytes 0x30 pes.pts ++ clockBytes 0x10 pes.dts
  else []

/-- The parts of the header that flags announce. -/
def optionalBytes (pes : Pes2) : List UInt8 :=
  pes.timesBytes ++
  partBytes pes.escrFlag (escrBytes pes.escrBase pes.escrExtension) ++
  partBytes pes.esRateFlag (rateBytes pes.esRate) ++
  partBytes pes.dsmTrickModeFlag
    [.ofNat (pes.trickModeControl.toNat <<< 5 ||| pes.trickModeVal.toNat)] ++
  partBytes pes.additionalCopyInfoFlag [.ofNat (0x80 ||| pes.additionalCopyInfo.toNat)] ++
  partBytes pes.pesCrcFlag (toBe16 pes.previousPesPacketCrc) ++
  partBytes pes.pesExtensionFlag pes.extension.serialize

/-- `serialize1`. The header data length is counted in one byte. -/
def serialize1 (pes : Pes2) : List UInt8 :=
  [.ofNat (0xc0 ||| pes.pesScramblingControl.toNat <<< 4 ||| pes.pesPriority.toNat <<< 3 |||
      pes.dataAlignmentIndicator.toNat <<< 2 ||| pes.copyright.toNat <<< 1 |||
      pes.originalOrCopy.toNat),
    .ofNat (pes.ptsDtsFlags.toNat <<< 6 ||| pes.escrFlag.toNat <<< 5 |||
      pes.esRateFlag.toNat <<< 4 ||| pes.dsmTrickModeFlag.toNat <<< 3 |||
      pes.additionalCopyInfoFlag.toNat <<< 2 ||| pes.pesCrcFlag.toNat <<< 1 |||
      pes.pesExtensionFlag.toNat),
    .ofNat (pes.optionalBytes.length + pes.stuffingLength.toNat)] ++
  pes.optionalBytes ++ List.replicate pes.stuffingLength.toNat 0xFF ++ pes.pesPacketDataByte

end Pes2

/-! ### The reader -/

/-- A time stamp. -/
def readClock : Reader (BitVec 33) := do
  let b₀ ← byte 0
  let b₁ ← byte 1
  let b₂ ← byte 2
  let b₃ ← byte 3
  let b₄ ← byte 4
  skip 5
  return .ofNat 33 ((b₀.toNat &&& 0x0e) <<< 29 ||| b₁.toNat <<< 22 |||
    (b₂.toNat &&& 0xfe) <<< 14 ||| b₃.toNat <<< 7 ||| (b₄.toNat &&& 0xfe) >>> 1)

def readStamps (flags : BitVec 2) : Reader (BitVec 33 × BitVec 33) :=
  if flags = 2 then do
    need 5
    let pts ← readClock
    return (pts, 0)
  else if flags = 3 then do
    need 10
    let pts ← readClock
    let dts ← readClock
    return (pts, dts)
  else return (0, 0)

def readEscr : Reader (BitVec 33 × BitVec 9) := do
  need 6
  let b₀ ← byte 0
  let b₁ ← byte 1
  let b₂ ← byte 2
  let b₃ ← byte 3
  let b₄ ← byte 4
  let b₅ ← byte 5
  skip 6
  return (.ofNat 33 ((b₀.toNat &&& 0x38) <<< 27 ||| (b₀.toNat &&& 0x3) <<< 28 |||
      b₁.toNat <<< 20 ||| (b₂.toNat &&& 0xf8) <<< 12 ||| (b₂.toNat &&& 0x3) <<< 13 |||
      b₃.toNat <<< 5 ||| (b₄.toNat &&& 0xf8) >>> 3),
    .ofNat 9 ((b₄.toNat &&& 0x3) <<< 7 ||| (b₅.toNat &&& 0xfe) >>> 1))

/-- The first byte is shifted one place less than the writer shifts it. -/
def readRate : Reader (BitVec 22) := do
  need 3
  let b₀ ← byte 0
  let b₁ ← byte 1
  let b₂ ← byte 2
  skip 3
  return .ofNat 22 ((b₀.toNat &&& 0x7f) <<< 14 ||| b₁.toNat <<< 7 ||| (b₂.toNat &&& 0xfe) >>> 1)

def readTrickMode : Reader (BitVec 3 × BitVec 5) := do
  need 1
  let v ← next
  return (.ofNat 3 ((v.toNat &&& 0xe0) >>> 5), .ofNat 5 (v.toNat &&& 0x1f))

def readCopyInfo : Reader (BitVec 7) := do
  need 1
  let v ← next
  return .ofNat 7 (v.toNat &&& 0x7f)

def readCrc : Reader UInt16 := do
  need 2
  let b₀ ← byte 0
  let b₁ ← byte 1
  skip 2
  return be16 b₀ b₁

def readPrivateData : Reader (Vector UInt8 16) := do
  need 16
  let data ← take 16
  return .ofFn fun i => data.getD i 0

def readHeaders : Reader (List UInt8) := do
  need 1
  let length ← next
  need length.toNat
  take length.toNat

def readSequenceCounter : Reader (BitVec 7 × BitVec 1 × BitVec 6) := do
  need 2
  let b₀ ← byte 0
  let b₁ ← byte 1
  skip 2
  return (.ofNat 7 (b₀.toNat &&& 0x7f), .ofNat 1 ((b₁.toNat &&& 0x40) >>> 6),
    .ofNat 6 (b₁.toNat &&& 0x3f))

def readStdBuffer : Reader (BitVec 1 × BitVec 13) := do
  need 2
  let b₀ ← byte 0
  let b₁ ← byte 1
  skip 2
  return (.ofNat 1 ((b₀.toNat &&& 0x20) >>> 5),
    .ofNat 13 ((b₀.toNat &&& 0x1f) <<< 8 ||| b₁.toNat))

/-- The length of the second extension, which is passed over. Nobody asks whether the
length is there, nor for its own byte behind it. -/
def readFieldLength : Reader (BitVec 7) := do
  let b ← byte 0
  let length : BitVec 7 := .ofNat 7 (b.toNat &&& 0x7f)
  need length.toNat
  skip (length.toNat + 1)
  return length

def PesExtension.read : Reader PesExtension := do
  need 1
  let b ← next
  let privateFlag : BitVec 1 := .ofNat 1 ((b.toNat &&& 0x80) >>> 7)
  let packFlag : BitVec 1 := .ofNat 1 ((b.toNat &&& 0x40) >>> 6)
  let counterFlag : BitVec 1 := .ofNat 1 ((b.toNat &&& 0x20) >>> 5)
  let bufferFlag : BitVec 1 := .ofNat 1 ((b.toNat &&& 0x10) >>> 4)
  let flag2 : BitVec 1 := .ofNat 1 (b.toNat &&& 0x1)
  let data ← part (privateFlag = 1) (.replicate 16 0) readPrivateData
  let headers ← part (packFlag = 1) [] readHeaders
  let counter ← part (counterFlag = 1) (0, 0, 0) readSequenceCounter
  let stdBuffer ← part (bufferFlag = 1) (0, 0) readStdBuffer
  let fieldLength ← part (flag2 = 1) 0 readFieldLength
  return {
    pesPrivateDataFlag := privateFlag
    packHeaderFieldFlag := packFlag
    programPackerSequenceCounterFlag := counterFlag
    pStdBufferFlag := bufferFlag
    pesExtensionFlag2 := flag2
    pesPrivateData := data
    headers
    programPacketSequenceCounter := counter.1
    mpeg1Mpeg2Indentifier := counter.2.1
    originalStuffLength := counter.2.2
    pStdBufferScale := stdBuffer.1
    pStdBufferSize := stdBuffer.2
    pesExtensionFieldLength := fieldLength }

namespace Pes2

/-- The fields of the first two bytes. -/
def ofBytes (v flags : UInt8) : Pes2 where
  pesScramblingControl := .ofNat 2 ((v.toNat &&& 0x30) >>> 4)
  pesPriority := .ofNat 1 ((v.toNat &&& 0x08) >>> 3)
  dataAlignmentIndicator := .ofNat 1 ((v.toNat &&& 0x04) >>> 2)
  copyright := .ofNat 1 ((v.toNat &&& 0x02) >>> 1)
  originalOrCopy := .ofNat 1 (v.toNat &&& 0x01)
  ptsDtsFlags := .ofNat 2 ((flags.toNat &&& 0xc0) >>> 6)
  escrFlag := .ofNat 1 ((flags.toNat &&& 0x20) >>> 5)
  esRateFlag := .ofNat 1 ((flags.toNat &&& 0x10) >>> 4)
  dsmTrickModeFlag := .ofNat 1 ((flags.toNat &&& 0x8) >>> 3)
  additionalCopyInfoFlag := .ofNat 1 ((flags.toNat &&& 0x4) >>> 2)
  pesCrcFlag := .ofNat 1 ((flags.toNat &&& 0x2) >>> 1)
  pesExtensionFlag := .ofNat 1 (flags.toNat &&& 0x01)

/-- The parts that the flags of a packet announce. -/
def readParts (pes : Pes2) : Reader Pes2 := do
  let times ← readStamps pes.ptsDtsFlags
  let escr ← part (pes.escrFlag = 1) (0, 0) readEscr
  let rate ← part (pes.esRateFlag = 1) 0 readRate
  let trickMode ← part (pes.dsmTrickModeFlag = 1) (0, 0) readTrickMode
  let copyInfo ← part (pes.additionalCopyInfoFlag = 1) 0 readCopyInfo
  let crc ← part (pes.pesCrcFlag = 1) 0 readCrc
  let extension ← part (pes.pesExtensionFlag = 1) {} PesExtension.read
  return { pes with
    pts := times.1
    dts := times.2
    escrBase := escr.1
    escrExtension := escr.2
    esRate := rate
    trickModeControl := trickMode.1
    trickModeVal := trickMode.2
    additionalCopyInfo := copyInfo
    previousPesPacketCrc := crc
    extension }

/-- A size that is converted to `int`. -/
def toInt (size : ℕ) : ℤ := (BitVec.ofNat 32 size).toInt

/-- What is behind the announced parts. The length of the stuffing is kept in one byte,
where it is never below zero. -/
def readPayload (pes : Pes2) (stuffing : ℤ) : Reader Pes2 := do
  note stuffing
  let stuffingLength : UInt8 := .ofNat (stuffing % 256).toNat
  need stuffingLength.toNat
  skip stuffingLength.toNat
  let pos ← position
  let size ← size
  note size
  let dataSize := toInt size - pos
  note dataSize
  if dataSize < 0 then giveUp
  else
    let data ← take dataSize.toNat
    return { pes with stuffingLength, pesPacketDataByte := data }

/-- `deserialize1`. -/
def read : Reader Pes2 := do
  need 3
  let v ← next
  let flags ← next
  let headerLength ← next
  need headerLength.toNat
  let posHeader ← position
  let pes ← readParts (ofBytes v flags)
  let pos ← position
  readPayload pes (headerLength.toNat - ((pos : ℤ) - posHeader))

/-- The stream ids of packets with the optional header. -/
def hasHeader (streamId : UInt8) : Bool :=
  streamId ≠ 0xBC && streamId ≠ 0xBE && streamId ≠ 0xBF && streamId ≠ 0xF0 && streamId ≠ 0xF1 &&
    streamId ≠ 0xFF && streamId ≠ 0xF2 && streamId ≠ 0xF8

/-- `serialize`; `serialize2` writes the payload and `serialize3` padding. -/
def serialize (streamId : UInt8) (pes : Pes2) : List UInt8 :=
  if hasHeader streamId then pes.serialize1
  else if streamId ≠ 0xBE then pes.pesPacketDataByte
  else List.replicate pes.stuffingLength.toNat 0xFF

/-- `deserialize`; `deserialize2` takes everything and `deserialize3` nothing. -/
def reader (streamId : UInt8) : Reader Pes2 :=
  if hasHeader streamId then read
  else do
    let size ← size
    note size
    if streamId ≠ 0xBE then
      let data ← take size
      return { pesPacketDataByte := data }
    else return {}

def deserialize (streamId : UInt8) (buffer : List UInt8) : Option Pes2 :=
  ((reader streamId).value buffer 0).map Prod.fst

end Pes2

/-! ### Lengths -/

/-- The length of a part that is there if a flag is set. -/
def partLength (flag : BitVec 1) (n : ℕ) : ℕ := if flag = 1 then n else 0

theorem length_partBytes (flag : BitVec 1) (bytes : List UInt8) :
    (partBytes flag bytes).length = partLength flag bytes.length := by
  rw [partBytes, partLength]
  split_ifs <;> rfl

/-- The length of the parts before the extension that flags announce. -/
def Pes2.plainLength (pes : Pes2) : ℕ :=
  (if pes.ptsDtsFlags = 2 then 5 else if pes.ptsDtsFlags = 3 then 10 else 0) +
    partLength pes.escrFlag 6 + partLength pes.esRateFlag 3 + partLength pes.dsmTrickModeFlag 1 +
    partLength pes.additionalCopyInfoFlag 1 + partLength pes.pesCrcFlag 2

end CxxDeps.Ps
