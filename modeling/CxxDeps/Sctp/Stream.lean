import CxxDeps.Sctp.Message

/-! `rtpx::sctp_stream` and the DCEP open message. The callback `on_send_data_` is
the list of DATA chunks that an operation returns, in the order of the calls. -/

namespace CxxDeps.Sctp

open Library

/-! ### DCEP -/

/-- `sctp_dcep_message_type`, the values that are read. -/
def dcepAck : UInt8 := 0x02
def dcepOpen : UInt8 := 0x03

/-- `sctp_dcep_channel_type::reliable_unordered`. -/
def reliableUnordered : UInt8 := 0x01

/-- `sctp_dcep_open`. -/
structure DcepOpen where
  messageType : UInt8 := dcepOpen
  channelType : UInt8 := reliableUnordered
  priority : UInt16 := 256
  reliabilityParameter : UInt32 := 0
  label : List UInt8 := []
  protocol : List UInt8 := []
  deriving DecidableEq, Repr

def DcepOpen.deserialize : List UInt8 → Option DcepOpen
  | t :: c :: p₀ :: p₁ :: r₀ :: r₁ :: r₂ :: r₃ :: l₀ :: l₁ :: q₀ :: q₁ :: rest =>
    let labelLength := (be16 l₀ l₁).toNat
    let protocolLength := (be16 q₀ q₁).toNat
    if rest.length + 12 < labelLength + protocolLength + 12 then none
    else some ⟨t, c, be16 p₀ p₁, be32 r₀ r₁ r₂ r₃, rest.take labelLength,
      (rest.drop labelLength).take protocolLength⟩
  | _ => none

def DcepOpen.serialize (open' : DcepOpen) : List UInt8 :=
  [open'.messageType, open'.channelType] ++ toBe16 open'.priority ++
    toBe32 open'.reliabilityParameter ++ toBe16 (UInt16.ofNat open'.label.length) ++
    toBe16 (UInt16.ofNat open'.protocol.length) ++ open'.label ++ open'.protocol

/-! ### The stream -/

/-- The limit below which a message is sent in one chunk, and the size of a
fragment. -/
def fragmentSize : ℕ := 1200

/-- A DATA chunk with its flags, as passed to `on_send_data_`. -/
abbrev Fragment := ChunkFlags × DataChunk

abbrev Messages := Std.ExtTreeMap UInt16 Message compare

/-- `sctp_stream`. -/
structure Stream where
  streamId : UInt16
  initTsn : UInt32
  nextRecvSsn : UInt16 := 0
  nextSendSsn : UInt16 := 0
  msgTimeout : UInt32 := 3000
  messages : Messages := ∅
  sentMessages : Messages := ∅

/-- The loop of `split_data`. -/
def splitLoop (chunkSize : ℕ) : ℕ → List UInt8 → List (List UInt8)
  | _, [] => []
  | 0, _ :: _ => []
  | n + 1, b :: bs => (b :: bs).take chunkSize :: splitLoop chunkSize n ((b :: bs).drop chunkSize)

def splitData (data : List UInt8) : List (List UInt8) :=
  splitLoop fragmentSize data.length data

/-- The payloads of the chunks of one message. -/
def payloads (data : List UInt8) : List (List UInt8) :=
  if data.length < fragmentSize then [data] else splitData data

/-- The flags of a fragment: whether it is the first, and whether it is the last. -/
def fragmentFlags (first last : Bool) : ChunkFlags :=
  (if first then flagsBegin else flagsNone) ||| (if last then flagsEnd else flagsNone)

/-- The chunks of one message, with consecutive TSNs. -/
def fragments (streamId ssn : UInt16) (ppid : Ppid) : UInt32 → Bool → List (List UInt8) →
    List Fragment
  | _, _, [] => []
  | tsn, first, payload :: rest =>
    (fragmentFlags first rest.isEmpty, ⟨tsn, streamId, ssn, ppid, payload⟩) ::
      fragments streamId ssn ppid (tsn + 1) false rest

/-- A map of messages with one more fragment, as `insert` and `save_sent_message`
file it. -/
def Stream.file (now : ℤ) (flags : ChunkFlags) (chunk : DataChunk) (stream : Stream)
    (messages : Messages) : Messages × Bool :=
  let msg := messages[chunk.streamSequence]?.getD
    { Message.new stream.initTsn with streamId := stream.streamId, ssn := chunk.streamSequence }
  let r := msg.insert now flags chunk
  (messages.insert chunk.streamSequence r.1, r.2)

def Stream.insert (now : ℤ) (flags : ChunkFlags) (chunk : DataChunk) (stream : Stream) :
    Stream × Bool :=
  let r := stream.file now flags chunk stream.messages
  ({ stream with messages := r.1 }, r.2)

def Stream.saveSentMessage (now : ℤ) (stream : Stream) (fragment : Fragment) : Stream :=
  { stream with
    sentMessages := (stream.file now fragment.1 fragment.2 stream.sentMessages).1 }

/-- `send`: the stream, the next TSN, the chunks sent and the result. A short
message is one chunk, which is first and last. -/
def Stream.send (now : ℤ) (tsn : UInt32) (data : List UInt8) (ppid : Ppid) (stream : Stream) :
    Stream × UInt32 × List Fragment × Bool :=
  if 10000 < stream.sentMessages.size then (stream, tsn, [], false)
  else
    let chunks := fragments stream.streamId stream.nextSendSsn ppid tsn true (payloads data)
    let sender := { stream with nextSendSsn := stream.nextSendSsn + 1 }
    (chunks.foldl (Stream.saveSentMessage now) sender, tsn + UInt32.ofNat chunks.length, chunks,
      true)

/-- The next message in order, if it is complete. -/
def Stream.nextMessage (stream : Stream) : Option (Message × Stream) :=
  match stream.messages[stream.nextRecvSsn]? with
  | none => none
  | some msg =>
    if msg.isCompleted then
      some (msg, { stream with
        messages := stream.messages.erase stream.nextRecvSsn
        nextRecvSsn := stream.nextRecvSsn + 1 })
    else none

def Stream.firstMessage (stream : Stream) : Option Message :=
  stream.messages[stream.nextRecvSsn]?

/-- A fragment as it is sent again. -/
def Block.fragment (block : Block) : Fragment :=
  ((if block.isBegin then flagsBegin else flagsNone) |||
    (if block.isEnd then flagsEnd else flagsNone), block.chunk)

/-- The fragments of a message left after `f`; a message left with none is
dropped. -/
def Message.keepBlocks (f : UInt32 → Block → Option Block) (msg : Message) : Option Message :=
  let blocks := updateAll f msg.blocks
  if blocks.isEmpty then none else some { msg with blocks }

/-- A fragment is sent three times in all after the first. -/
def Block.resent (block : Block) : Option Block :=
  if 3 ≤ block.sentTimes + 1 then none else some { block with sentTimes := block.sentTimes + 1 }

def Stream.resendMessages (stream : Stream) : Stream × List Fragment :=
  ({ stream with
      sentMessages := updateAll (fun _ msg => msg.keepBlocks fun _ block => block.resent)
        stream.sentMessages },
    stream.sentMessages.toList.flatMap fun entry =>
      entry.2.blocks.toList.map fun block => block.2.fragment)

/-- The TSNs that a SACK acknowledges: `MAX_CHUNKS_PER_MESSAGE` before its own, its
own, and the two ends of every gap block. -/
def SackChunk.tsns (sack : SackChunk) : List UInt32 :=
  (List.range maxChunksPerMessage).map
      (fun i => sack.tsn - UInt32.ofNat maxChunksPerMessage + UInt32.ofNat i) ++
    [sack.tsn] ++ sack.gaps.flatMap fun gap => [gap.first + sack.tsn, gap.last + sack.tsn]

def Stream.processSack (sack : SackChunk) (stream : Stream) : Stream :=
  { stream with
    sentMessages := updateAll
      (fun _ msg => msg.keepBlocks fun tsn block =>
        if sack.tsns.contains tsn then none else some block)
      stream.sentMessages }

def Stream.clearTimeoutRecvMessages (now : ℤ) (stream : Stream) : Stream :=
  { stream with
    messages := updateAll
      (fun _ msg => if msg.isTimeout now stream.msgTimeout then none else some msg)
      stream.messages }

/-- `close`: the stream, the next TSN and the chunk that tells the other end. -/
def Stream.close (tsn : UInt32) (stream : Stream) : Stream × UInt32 × List Fragment :=
  ({ stream with nextSendSsn := stream.nextSendSsn + 1 }, tsn + 1,
    [(flagsBegin ||| flagsEnd,
      ⟨tsn, stream.streamId, stream.nextSendSsn, Ppid.emptyString, []⟩)])

end CxxDeps.Sctp
