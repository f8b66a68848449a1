import CxxDeps.Library.BigEndian

/-! MPEG program streams (rtpx/mpeg): the pack header, blocks with a length of two
bytes, PES packets, the system header and the program stream map. Of a PES packet only
the fields that a sender sets or a receiver uses are kept; the optional parts of its
header are skipped as the source skips them. -/

namespace CxxDeps.Ps

open Library

def packHeader : UInt8 := 0xBA
def systemHeader : UInt8 := 0xBB
def programMap : UInt8 := 0xBC
def videoStart : UInt8 := 0xE0
def audioStart : UInt8 := 0xC0

/-- `psh2`; the bit-fields are reduced where they are set. -/
structure Psh where
  flag : UInt64 := 1
  timestamp : UInt64 := 0
  timestampEx : UInt64 := 0
  programMuxRate : UInt64 := 0
  packStuffingLength : UInt64 := 0
  deriving DecidableEq, Repr

/-- `psh2::serialize`. -/
def Psh.serialize (psh : Psh) : List UInt8 :=
  let ts := psh.timestamp
  let ex := psh.timestampEx
  let rate := psh.programMuxRate
  [((psh.flag <<< 6) ||| ((ts &&& 0x1c0000000) >>> 27) ||| 1).toUInt8 |||
      ((ts &&& 0x30000000) >>> 28).toUInt8,
    ((ts &&& 0xff00000) >>> 20).toUInt8,
    ((ts &&& 0xf8000) >>> 12).toUInt8 ||| (4 : UInt8) ||| ((ts &&& 0x6000) >>> 13).toUInt8,
    ((ts &&& 0x1fe0) >>> 5).toUInt8,
    ((ts &&& 0x1f) <<< 3).toUInt8 ||| (4 : UInt8) ||| ((ex &&& 0x180) >>> 7).toUInt8,
    ((ex &&& 0x7f) <<< 1).toUInt8 ||| 1,
    ((rate &&& 0x3FC000) >>> 14).toUInt8,
    ((rate &&& 0x3FC0) >>> 6).toUInt8,
    ((rate &&& 0x3F) <<< 2).toUInt8 ||| 3,
    psh.packStuffingLength.toUInt8] ++
  List.replicate psh.packStuffingLength.toNat 0xFF

/-- `psh2::deserialize`: the bytes it takes; zero where it fails. Its fields are not read
by a receiver. The stuffing is asked for two bytes beyond its end. -/
def Psh.deserialize (buffer : List UInt8) : ℕ :=
  if buffer.length < 8 then 0
  else
    let packStuffingLength := (buffer.getD 9 0 &&& 0x07).toNat
    if packStuffingLength + 12 > buffer.length then 0 else 10 + packStuffingLength

/-- `ps_block`. -/
structure Block where
  startCode : UInt8
  block : List UInt8
  deriving DecidableEq, Repr

def Block.serialize (b : Block) : List UInt8 :=
  [0, 0, 1, b.startCode] ++ toBe16 (UInt16.ofNat b.block.length) ++ b.block

/-- The block and the bytes it takes. The start code itself is not looked at. -/
def Block.deserialize (buffer : List UInt8) : Option (Block × ℕ) :=
  match buffer with
  | _ :: _ :: _ :: startCode :: l₀ :: l₁ :: rest =>
    let length := (be16 l₀ l₁).toNat
    if length > rest.length then none else some (⟨startCode, rest.take length⟩, 6 + length)
  | _ => none

/-- `pes2`. -/
structure Pes where
  pesPriority : UInt8 := 0
  dataAlignmentIndicator : UInt8 := 0
  ptsDtsFlags : UInt8 := 0
  pts : UInt64 := 0
  dts : UInt64 := 0
  stuffingLength : UInt8 := 0
  data : List UInt8 := []
  deriving DecidableEq, Repr

/-- The five bytes of a time stamp of 33 bits behind a tag. -/
def timeBytes (tag : UInt8) (t : UInt64) : List UInt8 :=
  [tag ||| ((t &&& 0x1c0000000) >>> 29).toUInt8 ||| 1,
    ((t &&& 0x3fc00000) >>> 22).toUInt8,
    ((t &&& 0x3f8000) >>> 14).toUInt8,
    ((t &&& 0x7F80) >>> 7).toUInt8,
    ((t &&& 0x7F) <<< 1).toUInt8 ||| 1]

/-- `pes2::serialize1`, for a packet without the optional parts that no sender sets. -/
def Pes.serialize (pes : Pes) : List UInt8 :=
  let times :=
    if pes.ptsDtsFlags = 2 then timeBytes 0x20 pes.pts
    else if pes.ptsDtsFlags = 3 then timeBytes 0x30 pes.pts ++ timeBytes 0x10 pes.dts
    else []
  [(0xc0 : UInt8) ||| (pes.pesPriority <<< 3) ||| (pes.dataAlignmentIndicator <<< 2),
    pes.ptsDtsFlags <<< 6, UInt8.ofNat (times.length + pes.stuffingLength.toNat)] ++ times ++
    List.replicate pes.stuffingLength.toNat 0xFF ++ pes.data

/-- A time stamp at `pos`. -/
def readTime (buffer : List UInt8) (pos : ℕ) : UInt64 :=
  let byte (i : ℕ) : UInt64 := (buffer.getD (pos + i) 0).toUInt64
  ((byte 0 &&& 0x0e) <<< 29) ||| (byte 1 <<< 22) ||| ((byte 2 &&& 0xfe) <<< 14) |||
    (byte 3 <<< 7) ||| ((byte 4 &&& 0xfe) >>> 1)

/-- The position behind a part of `len` bytes that a flag announces. -/
def skipPart (size pos : ℕ) (flag : Bool) (len : ℕ) : Option ℕ :=
  if flag then if pos + len > size then none else some (pos + len) else some pos

/-- The extension of a PES header. -/
def skipExtension (buffer : List UInt8) (pos : ℕ) : Option ℕ :=
  let size := buffer.length
  if pos + 1 > size then none
  else do
    let flags := buffer.getD pos 0
    let pos ← skipPart size (pos + 1) (flags &&& 0x80 ≠ 0) 16
    let pos ←
      if flags &&& 0x40 ≠ 0 then
        if pos + 1 > size then none
        else skipPart size (pos + 1) true (buffer.getD pos 0).toNat
      else some pos
    let pos ← skipPart size pos (flags &&& 0x20 ≠ 0) 2
    let pos ← skipPart size pos (flags &&& 0x10 ≠ 0) 2
    if flags &&& 0x01 ≠ 0 then
      let length := (buffer.getD pos 0 &&& 0x7f).toNat
      if pos + length > size then none else some (pos + length + 1)
    else some pos

/-- The stamps of a PES header with the position behind them. -/
def readTimes (buffer : List UInt8) (flags : UInt8) (pos : ℕ) : Option (UInt64 × UInt64 × ℕ) :=
  if flags = 2 then
    if pos + 5 > buffer.length then none else some (readTime buffer pos, 0, pos + 5)
  else if flags = 3 then
    if pos + 10 > buffer.length then none
    else some (readTime buffer pos, readTime buffer (pos + 5), pos + 10)
  else some (0, 0, pos)

/-- `pes2::deserialize1`. The length of the stuffing is kept in one byte. -/
def Pes.deserialize (buffer : List UInt8) : Option Pes :=
  let size := buffer.length
  if size < 3 then none
  else
    let v := buffer.getD 0 0
    let flags := buffer.getD 1 0
    let headerLength := (buffer.getD 2 0).toNat
    if 3 + headerLength > size then none
    else do
      let (pts, dts, pos) ← readTimes buffer (flags >>> 6) 3
      let pos ← skipPart size pos (flags &&& 0x20 ≠ 0) 6
      let pos ← skipPart size pos (flags &&& 0x10 ≠ 0) 3
      let pos ← skipPart size pos (flags &&& 0x08 ≠ 0) 1
      let pos ← skipPart size pos (flags &&& 0x04 ≠ 0) 1
      let pos ← skipPart size pos (flags &&& 0x02 ≠ 0) 2
      let pos ← if flags &&& 0x01 ≠ 0 then skipExtension buffer pos else some pos
      let stuffing := ((headerLength : ℤ) - (pos - 3) : ℤ) % 256
      let pes : Pes :=
        { pesPriority := (v &&& 0x08) >>> 3
          dataAlignmentIndicator := (v &&& 0x04) >>> 2
          ptsDtsFlags := flags >>> 6
          pts, dts
          stuffingLength := UInt8.ofNat stuffing.toNat
          data := buffer.drop (pos + stuffing.toNat) }
      if pos + stuffing.toNat > size then none else some pes

/-- `ps_frame`. -/
structure PsFrame where
  psh : Psh := {}
  blocks : List Block := []
  deriving DecidableEq, Repr

def PsFrame.hasHeader (frame : PsFrame) (startCode : UInt8) : Bool :=
  frame.blocks.any (·.startCode = startCode)

def PsFrame.serialize (frame : PsFrame) : List UInt8 :=
  [0, 0, 1, packHeader] ++ frame.psh.serialize ++ frame.blocks.flatMap Block.serialize

/-- The loop of `ps_frame::deserialize`: the blocks that are left in a buffer. Every
round takes a byte, so its length bounds the rounds. -/
def readBlocks : ℕ → List UInt8 → Option (List Block)
  | 0, _ => some []
  | n + 1, buffer =>
    if buffer.length < 4 then some []
    else if buffer.getD 3 0 = packHeader then
      let c := Psh.deserialize (buffer.drop 4)
      if c = 0 then none else readBlocks n (buffer.drop (4 + c))
    else
      match Block.deserialize buffer with
      | none => none
      | some (block, c) => (readBlocks n (buffer.drop c)).map (block :: ·)

/-- `ps_frame::deserialize`: the blocks of the frame. -/
def PsFrame.deserialize (buffer : List UInt8) : Option (List Block) :=
  readBlocks buffer.length buffer

end CxxDeps.Ps
