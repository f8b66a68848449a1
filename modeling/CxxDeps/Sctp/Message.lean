import CxxDeps.Library.TreeMap
import CxxDeps.Sctp.Chunk

/-! `rtpx::sctp_message`: the fragments of one message by TSN. The clock is an
argument, in milliseconds. -/

namespace CxxDeps.Sctp

/-- `MAX_CHUNKS_PER_MESSAGE`. -/
def maxChunksPerMessage : ℕ := 256

/-- `sctp_message::block_t`. -/
structure Block where
  isBegin : Bool
  isEnd : Bool
  chunk : DataChunk
  sentTimes : ℤ := 0
  deriving DecidableEq, Repr

/-- The block of a received or sent chunk. -/
def Block.ofChunk (flags : ChunkFlags) (chunk : DataChunk) : Block where
  isBegin := flags &&& flagsBegin != 0
  isEnd := flags &&& flagsEnd != 0
  chunk := chunk

abbrev Blocks := Std.ExtTreeMap UInt32 Block compare

/-- `sctp_message`. -/
structure Message where
  streamId : UInt16 := 0
  ssn : UInt16 := 0
  updatedAt : ℤ := 0
  beginTsn : UInt32
  cumulativeTsn : UInt32
  blocks : Blocks := ∅
  dups : Std.ExtTreeSet UInt32 compare := ∅
  gaps : List GapItem := []

/-- The constructor. -/
def Message.new (initTsn : UInt32) : Message where
  beginTsn := initTsn - 1
  cumulativeTsn := initTsn - 1

/-- The message with one more fragment. A TSN that is there already keeps its
first fragment, but a begin fragment moves `begin_tsn` all the same. -/
def Message.put (now : ℤ) (flags : ChunkFlags) (chunk : DataChunk) (msg : Message) : Message :=
  let block := Block.ofChunk flags chunk
  { msg with
    updatedAt := now
    beginTsn := if block.isBegin then chunk.tsn else msg.beginTsn
    blocks := msg.blocks.insertIfNew chunk.tsn block
    dups := if chunk.tsn ∈ msg.blocks then msg.dups.insert chunk.tsn else msg.dups }

def Message.insert (now : ℤ) (flags : ChunkFlags) (chunk : DataChunk) (msg : Message) :
    Message × Bool :=
  if chunk.streamId ≠ msg.streamId then (msg, false)
  else if chunk.streamSequence ≠ msg.ssn then (msg, false)
  else (msg.put now flags chunk, true)

/-- The loop of `is_completed` from `tsn` on, at most `n` rounds. -/
def completedLoop (blocks : Blocks) : ℕ → UInt32 → Bool → Bool
  | 0, _, _ => false
  | n + 1, tsn, hasBegin =>
    match blocks[tsn]? with
    | none => false
    | some block =>
      let hasBegin := hasBegin || block.isBegin
      if block.isEnd then hasBegin else completedLoop blocks n (tsn + 1) hasBegin

def Message.isCompleted (msg : Message) : Bool :=
  completedLoop msg.blocks maxChunksPerMessage msg.beginTsn false

def Message.isTimeout (now : ℤ) (ms : UInt32) (msg : Message) : Bool :=
  (ms.toNat : ℤ) ≤ now - msg.updatedAt

/-- What the loop of `calc_gaps` keeps: the closed runs, the open run, whether
there is one, and whether a begin fragment was seen. -/
structure GapScan where
  tmp : List GapItem := []
  item : GapItem := ⟨0, 0⟩
  hasFirst : Bool := false
  hasBegin : Bool := false
  deriving DecidableEq, Repr

/-- A TSN that is missing closes the open run. -/
def GapScan.miss (s : GapScan) : GapScan :=
  if s.hasFirst then { s with tmp := s.tmp ++ [s.item], hasFirst := false } else s

/-- A TSN that is there opens a run or extends the open one. -/
def GapScan.hit (tsn : UInt32) (block : Block) (s : GapScan) : GapScan :=
  { s with
    item := if s.hasFirst then ⟨s.item.first, tsn⟩ else ⟨tsn, tsn⟩
    hasFirst := true
    hasBegin := s.hasBegin || block.isBegin }

/-- The loop of `calc_gaps`, which stops at an end fragment. -/
def gapLoop (blocks : Blocks) : ℕ → UInt32 → GapScan → GapScan
  | 0, _, s => s
  | n + 1, tsn, s =>
    match blocks[tsn]? with
    | none => gapLoop blocks n (tsn + 1) s.miss
    | some block =>
      if block.isEnd then s.hit tsn block else gapLoop blocks n (tsn + 1) (s.hit tsn block)

/-- The runs of fragments that the message holds, each with its first and last
TSN, and whether one of them has the begin fragment. -/
def Message.runs (msg : Message) : List GapItem × Bool :=
  let s := (gapLoop msg.blocks maxChunksPerMessage msg.beginTsn {})
  (s.miss.tmp, s.hasBegin)

/-- The first run moves `cumulative_tsn` if a begin fragment is there; the others
become the gap blocks, counted from `cumulative_tsn`. -/
def Message.calcGaps (msg : Message) : Message :=
  if msg.blocks.isEmpty then { msg with gaps := [] }
  else
    match msg.runs with
    | (item :: tmp, true) =>
      { msg with
        cumulativeTsn := item.last
        gaps := tmp.map fun i => ⟨i.first - item.last, i.last - item.last⟩ }
    | (tmp, _) =>
      { msg with
        gaps := tmp.map fun i => ⟨i.first - msg.cumulativeTsn, i.last - msg.cumulativeTsn⟩ }

/-- The loop of `serialize`. -/
def serializeLoop (blocks : Blocks) : ℕ → UInt32 → Bool → List UInt8 → Option (List UInt8)
  | 0, _, _, _ => none
  | n + 1, tsn, hasBegin, buf =>
    match blocks[tsn]? with
    | none => none
    | some block =>
      let hasBegin := hasBegin || block.isBegin
      let buf := if hasBegin then buf ++ block.chunk.payload else buf
      if block.isEnd then if hasBegin then some buf else none
      else serializeLoop blocks n (tsn + 1) hasBegin buf

def Message.serialize (msg : Message) : Option (List UInt8) :=
  serializeLoop msg.blocks maxChunksPerMessage msg.beginTsn false []

/-- The block of the lowest TSN, `blocks.begin()`. -/
def Message.firstBlock (msg : Message) : Option Block := msg.blocks.toList.head?.map Prod.snd

end CxxDeps.Sctp
