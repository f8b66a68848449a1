import CxxDeps.Sctp.Packet
import CxxDeps.Sctp.Stream

/-! The class `rtpx::sctp`: an association with its handlers for incoming chunks,
its timers and the calls of the application. The clock is an argument. The
callbacks are events, in the order they are made; the timers are calls, because
nothing else depends on when they fire. A result `none` is undefined behaviour. -/

namespace CxxDeps.Sctp

open Library

/-- `sctp_state`. -/
inductive SctpState
  | none
  | connecting
  | connected
  | closed
  deriving DecidableEq, Repr

/-- The calls of the bound handlers. -/
inductive Event
  | sendData (data : List UInt8)
  | connected
  | disconnected
  | heartbeat
  | streamOpened (streamId : UInt16)
  | streamClosed (streamId : UInt16)
  | streamMessage (streamId : UInt16) (message : List UInt8)
  deriving DecidableEq, Repr

abbrev Streams := Std.ExtTreeMap UInt16 Stream compare

/-- `sctp`. -/
structure Association where
  active : Bool := false
  state : SctpState := .none
  stateUpdatedAt : ℤ := 0
  localPort : UInt16 := 0
  remotePort : UInt16 := 0
  localTag : UInt32 := 0
  remoteTag : UInt32 := 0
  localTsn : UInt32 := 0
  remoteInitTsn : UInt32 := 0
  localCookie : List UInt8 := []
  remoteCookie : List UInt8 := []
  initStreamId : UInt16 := 0
  streams : Streams := ∅
  events : List Event := []

/-- `local_arwnd_`. -/
def localArwnd : UInt32 := 0x00100000

namespace Association

def emit (e : Event) (s : Association) : Association := { s with events := s.events ++ [e] }

def setState (now : ℤ) (state : SctpState) (s : Association) : Association :=
  { s with state, stateUpdatedAt := now }

def setTsn (tsn : UInt32) (s : Association) : Association := { s with localTsn := tsn }

def setStreams (streams : Streams) (s : Association) : Association := { s with streams }

section

variable (now : ℤ) (state : SctpState) (tsn : UInt32) (streams : Streams) (s : Association)

@[simp] theorem setState_state : (s.setState now state).state = state := rfl

@[simp] theorem setState_events : (s.setState now state).events = s.events := rfl

@[simp] theorem setState_streams : (s.setState now state).streams = s.streams := rfl

@[simp] theorem setState_localCookie : (s.setState now state).localCookie = s.localCookie := rfl

@[simp] theorem setTsn_state : (s.setTsn tsn).state = s.state := rfl

@[simp] theorem setTsn_events : (s.setTsn tsn).events = s.events := rfl

@[simp] theorem setTsn_streams : (s.setTsn tsn).streams = s.streams := rfl

@[simp] theorem setTsn_localCookie : (s.setTsn tsn).localCookie = s.localCookie := rfl

@[simp] theorem setStreams_state : (s.setStreams streams).state = s.state := rfl

@[simp] theorem setStreams_events : (s.setStreams streams).events = s.events := rfl

@[simp] theorem setStreams_streams : (s.setStreams streams).streams = streams := rfl

@[simp] theorem setStreams_localTsn : (s.setStreams streams).localTsn = s.localTsn := rfl

@[simp] theorem setStreams_localCookie : (s.setStreams streams).localCookie = s.localCookie :=
  rfl

end

/-! ### Sending -/

/-- The packet for the other end, before it is signed. -/
def packet (chunk : Chunk) (s : Association) : Packet where
  header := { srcPort := s.localPort, dstPort := s.remotePort, verificationTag := s.remoteTag }
  chunks := [chunk]

def sendData (chunk : Chunk) (s : Association) : Association × Bool :=
  match signCrc32 (s.packet chunk).serialize with
  | none => (s, false)
  | some buf => (s.emit (.sendData buf), true)

def send (type : ChunkType) (flags : ChunkFlags) (payload : List UInt8) (s : Association) :
    Association :=
  (s.sendData { type, flags, payload }).1

def sendFragments (chunks : List Fragment) (s : Association) : Association :=
  chunks.foldl (fun s f => s.send .data f.1 f.2.serialize) s

/-- An OPERATIONAL_ERROR with one cause. -/
def sendError (cause : ErrorCause) (s : Association) : Association :=
  s.send .operationalError flagsNone (ErrorChunk.serialize ⟨[⟨cause.toWord, []⟩]⟩)

/-- What a handler does with a payload: a refused one is a protocol violation. -/
def reading {α : Type} (payload : Except Fault α) (k : α → Option Association)
    (s : Association) : Option Association :=
  match payload with
  | .ok a => k a
  | .error .rejected => some (s.sendError .protocolViolation)
  | .error .undefined => .none

def initChunk (s : Association) : InitChunk where
  initTag := s.localTag
  arwnd := localArwnd
  numOutStream := 16
  numInStream := 16
  initTsn := s.localTsn

def sendSack (msg : Message) (s : Association) : Association :=
  let msg := msg.calcGaps
  s.send .sack flagsUnordered
    (SackChunk.serialize ⟨msg.cumulativeTsn, localArwnd, msg.gaps, msg.dups.toList⟩)

/-! ### Streams -/

def newStream (sid : UInt16) (s : Association) : Stream :=
  { streamId := sid, initTsn := s.remoteInitTsn }

/-- `stream->send(local_tsn_, data, ppid)` for a stream of the map. -/
def streamSend (now : ℤ) (sid : UInt16) (data : List UInt8) (ppid : Ppid) (s : Association) :
    Association × Bool :=
  match s.streams[sid]? with
  | .none => (s, false)
  | some stream =>
    let (stream, tsn, chunks, sent) := stream.send now s.localTsn data ppid
    (sendFragments chunks ((s.setTsn tsn).setStreams (s.streams.insert sid stream)), sent)

/-- One round of the loops that close all streams. -/
def closeEntry (announce : Bool) (s : Association) (entry : UInt16 × Stream) : Association :=
  let s := if announce then s.emit (.streamClosed entry.1) else s
  let (_, tsn, chunks) := entry.2.close s.localTsn
  sendFragments chunks (s.setTsn tsn)

/-- Every stream is closed and the map is cleared. -/
def closeStreams (announce : Bool) (s : Association) : Association :=
  setStreams ∅ (s.streams.toList.foldl (closeEntry announce) s)

def ensureStream (sid : UInt16) (s : Association) : Association :=
  match s.streams[sid]? with
  | .none => s.setStreams (s.streams.insert sid (s.newStream sid))
  | some _ => s

/-- The loop of `make_next_stream_id`: the id, and the next candidate. -/
def nextStreamIdLoop (streams : Streams) : ℕ → UInt16 → UInt16 × UInt16
  | 0, next => (0, next)
  | n + 1, next =>
    if next ∈ streams then nextStreamIdLoop streams n (next + 2) else (next, next + 2)

def makeNextStreamId (s : Association) : UInt16 × Association :=
  let r := nextStreamIdLoop s.streams 0x7FFF s.initStreamId
  (r.1, { s with initStreamId := r.2 })

/-! ### Messages of the other end -/

/-- An empty message has no first byte to read. -/
def onDcepMessage (now : ℤ) (msg : Message) (s : Association) : Option Association :=
  match msg.serialize with
  | .none => some s
  | some [] => .none
  | some (type :: rest) =>
    if type = dcepOpen then
      match DcepOpen.deserialize (type :: rest) with
      | .none => some s
      | some _ =>
        some (emit (.streamOpened msg.streamId)
          (s.streamSend now msg.streamId [dcepAck] Ppid.dcep).1)
    else if type = dcepAck then some (s.emit (.streamOpened msg.streamId))
    else some s

def onUserMessage (now : ℤ) (msg : Message) (s : Association) : Option Association :=
  match msg.firstBlock with
  | .none => some s
  | some block =>
    let ppid := block.chunk.payloadProtocolId
    if ppid = Ppid.dcep then s.onDcepMessage now msg
    else if ppid = Ppid.emptyBinary ∨ ppid = Ppid.emptyString then
      match s.streams[msg.streamId]? with
      | .none => some s
      | some stream =>
        some (setStreams (s.streams.erase msg.streamId)
          (s.closeEntry true (msg.streamId, stream)))
    else if ppid = Ppid.binary ∨ ppid = Ppid.string then
      match msg.serialize with
      | .none => some s
      | some buf => some (s.emit (.streamMessage msg.streamId buf))
    else some s

/-- The loop of `insert_data_chunk`. It reads the stream through an iterator, which
dangles once the stream is erased. Every round takes a message out of the
stream, so the number of messages is enough fuel. -/
def drain (now : ℤ) (sid : UInt16) : ℕ → Association → Option Association
  | 0, s => some s
  | n + 1, s =>
    match s.streams[sid]? with
    | .none => .none
    | some stream =>
      match stream.nextMessage with
      | .none => some s
      | some (msg, stream) => do
        let s ← onUserMessage now msg
          (sendSack msg (s.setStreams (s.streams.insert sid stream)))
        drain now sid n s

/-- The stream of a chunk, made if there is none, with the chunk inserted. -/
def receive (now : ℤ) (flags : ChunkFlags) (chunk : DataChunk) (s : Association) : Stream × Bool :=
  (s.streams[chunk.streamId]?.getD (s.newStream chunk.streamId)).insert now flags chunk

def insertDataChunk (now : ℤ) (flags : ChunkFlags) (chunk : DataChunk) (s : Association) :
    Option Association :=
  let stream := (s.receive now flags chunk).1
  drain now chunk.streamId (stream.messages.size + 1)
    (s.setStreams (s.streams.insert chunk.streamId stream))

/-! ### Handlers of incoming chunks -/

/-- What an INIT says about the other end. -/
def setRemote (init : InitChunk) (header : Header) (s : Association) : Association :=
  { s with
    remoteTag := init.initTag
    remoteInitTsn := init.initTsn
    remotePort := header.srcPort }

def setRemoteCookie (cookie : List UInt8) (s : Association) : Association :=
  { s with remoteCookie := cookie }

def initAckChunk (s : Association) : InitChunk :=
  { s.initChunk with parameters := [⟨stateCookie, s.localCookie⟩] }

def onInit (header : Header) (chunk : Chunk) (s : Association) : Option Association :=
  s.reading (InitChunk.deserialize chunk.payload) fun init =>
    let s := (s.setStreams ∅).setRemote init header
    some (s.send .initAck flagsNone s.initAckChunk.serialize)

def onInitAck (chunk : Chunk) (s : Association) : Option Association :=
  s.reading (InitChunk.deserialize chunk.payload) fun initAck =>
    match findParameter stateCookie initAck.parameters with
    | .none => some (s.sendError .missingMandatoryParameter)
    | some cookie =>
      some (send .cookieEcho flagsNone (CookieEchoChunk.serialize ⟨cookie⟩)
        (s.setRemoteCookie cookie))

def onCookieEcho (now : ℤ) (chunk : Chunk) (s : Association) : Option Association :=
  s.reading (CookieEchoChunk.deserialize chunk.payload chunk.payloadLength) fun echo =>
    if echo.cookie ≠ s.localCookie then some (s.sendError .staleCookieError)
    else some (emit .connected (setState now .connected (s.send .cookieAck flagsNone [])))

def onCookieAck (now : ℤ) (s : Association) : Association :=
  emit .connected (s.setState now .connected)

def onData (now : ℤ) (chunk : Chunk) (s : Association) : Option Association :=
  s.reading (DataChunk.deserialize chunk.payload) fun data =>
    s.insertDataChunk now chunk.flags data

def processSack (sack : SackChunk) (s : Association) : Association :=
  s.setStreams (updateAll (fun _ stream => some (stream.processSack sack)) s.streams)

def onSack (chunk : Chunk) (s : Association) : Option Association :=
  s.reading (SackChunk.deserialize chunk.payload) fun sack => some (s.processSack sack)

/-- The answer is sent as an OPERATIONAL_ERROR. -/
def onHeartbeat (chunk : Chunk) (s : Association) : Option Association :=
  s.reading (HeartbeatChunk.deserialize chunk.payload) fun hb =>
    some (emit .heartbeat
      (s.send .operationalError flagsNone (HeartbeatChunk.serialize ⟨hb.parameters⟩)))

def onHeartbeatAck (s : Association) : Association := s.emit .heartbeat

/-- The state is closed before the chunk is looked at. -/
def onAbort (now : ℤ) (chunk : Chunk) (s : Association) : Option Association :=
  (s.setState now .closed).reading (AbortChunk.deserialize chunk.payload) fun _ =>
    some (emit .disconnected ((s.setState now .closed).closeStreams true))

def onShutdown (now : ℤ) (s : Association) : Association :=
  emit .disconnected (send .shutdownAck flagsNone []
    (setState now .closed (s.closeStreams true)))

def onShutdownAck (now : ℤ) (s : Association) : Association :=
  emit .disconnected (setState now .closed (s.closeStreams true))

def onOperationalError (now : ℤ) (s : Association) : Association :=
  emit .disconnected (setState now .closed (s.closeStreams true))

def onChunk (now : ℤ) (header : Header) (s : Association) (chunk : Chunk) : Option Association :=
  match chunk.type with
  | .init => s.onInit header chunk
  | .initAck => s.onInitAck chunk
  | .cookieEcho => s.onCookieEcho now chunk
  | .cookieAck => some (s.onCookieAck now)
  | .data => s.onData now chunk
  | .sack => s.onSack chunk
  | .heartbeat => s.onHeartbeat chunk
  | .heartbeatAck => some s.onHeartbeatAck
  | .shutdown => some (s.onShutdown now)
  | .shutdownAck => some (s.onShutdownAck now)
  | .abort => s.onAbort now chunk
  | .operationalError => some (s.onOperationalError now)
  | .unnamed _ => some s

/-- A checksum of zero is not checked. -/
def accepts (data : List UInt8) (pkt : Packet) : Bool :=
  pkt.header.checksum == 0 || pkt.header.checksum == checkCrc32 data

def connInput (now : ℤ) (data : List UInt8) (s : Association) : Option Association :=
  match Packet.deserialize data with
  | .error .rejected => some s
  | .error .undefined => .none
  | .ok pkt =>
    if accepts data pkt then pkt.chunks.foldlM (onChunk now pkt.header) s else some s

/-! ### Timers -/

/-- The heartbeat with the time in seconds. -/
def heartbeatChunk (now : ℤ) : HeartbeatChunk :=
  ⟨[⟨1, toBe32 (UInt32.ofInt (now.tdiv 1000))⟩]⟩

def onStateTimer (now : ℤ) (s : Association) : Association :=
  if !s.active then s
  else if s.state = .connecting then
    if 3000 ≤ now - s.stateUpdatedAt then s.send .init flagsNone s.initChunk.serialize else s
  else if s.state = .connected then
    send .heartbeat flagsNone (heartbeatChunk now).serialize (s.setState now .connected)
  else s

/-- One round of the loop of `on_ack_timer`. -/
def ackStream (now : ℤ) (s : Association) (sid : UInt16) : Association :=
  match s.streams[sid]? with
  | .none => s
  | some stream =>
    let (stream, chunks) := (stream.clearTimeoutRecvMessages now).resendMessages
    let s := sendFragments chunks (s.setStreams (s.streams.insert sid stream))
    match stream.firstMessage with
    | .none => s
    | some msg => s.sendSack msg

def onAckTimer (now : ℤ) (s : Association) : Association :=
  if !s.active then s else s.streams.keys.foldl (ackStream now) s

/-! ### Calls of the application -/

/-- The arguments from `uuid` on are the random choices. -/
def open' (localPort : UInt16) (uuid : List UInt8) (tag tsn : UInt32) (s : Association) :
    Association :=
  if s.active then s
  else { s with
    active := true
    state := .none
    stateUpdatedAt := 0
    localPort
    localCookie := uuid
    localTag := tag
    localTsn := tsn }

def connect (now : ℤ) (remotePort : UInt16) (s : Association) : Association × Bool :=
  if s.localPort = 0 then (s, false)
  else if s.state ≠ .none then (s, true)
  else
    let r := sendData { type := .init, flags := flagsNone, payload := s.initChunk.serialize }
      (setStreams ∅ { s with remotePort })
    (r.1.setState now .connecting, r.2)

/-- The payload of a SHUTDOWN is sent as an INIT. -/
def close (s : Association) : Association :=
  closeStreams false
    (send .init flagsNone (ShutdownChunk.serialize ⟨s.localTsn⟩)
      { s with state := .none, stateUpdatedAt := 0, active := false })

def createStream (now : ℤ) (label : List UInt8) (s : Association) :
    Association × UInt16 × Bool :=
  let (sid, s) := s.makeNextStreamId
  let r := (s.ensureStream sid).streamSend now sid (DcepOpen.serialize { label }) Ppid.dcep
  (r.1, sid, r.2)

/-- A stream that is not there is erased through the end iterator. -/
def closeStream (sid : UInt16) (s : Association) : Option Association :=
  match s.streams[sid]? with
  | .none => .none
  | some stream =>
    let (_, tsn, chunks) := stream.close s.localTsn
    some (setStreams (s.streams.erase sid)
      (emit (.streamClosed sid) (sendFragments chunks (s.setTsn tsn))))

def sendUserMessage (now : ℤ) (sid : UInt16) (data : List UInt8) (s : Association) :
    Association × Bool :=
  s.streamSend now sid data Ppid.binary

end Association

/-- What the application and the timers do with an open association. `close` and
`open` end one association and begin the next. -/
inductive Act
  | connect (now : ℤ) (remotePort : UInt16)
  | createStream (now : ℤ) (label : List UInt8)
  | closeStream (sid : UInt16)
  | sendUserMessage (now : ℤ) (sid : UInt16) (data : List UInt8)
  | stateTimer (now : ℤ)
  | ackTimer (now : ℤ)
  deriving DecidableEq, Repr

def Association.act (s : Association) : Act → Option Association
  | .connect now remotePort => some (s.connect now remotePort).1
  | .createStream now label => some (s.createStream now label).1
  | .closeStream sid => s.closeStream sid
  | .sendUserMessage now sid data => some (s.sendUserMessage now sid data).1
  | .stateTimer now => some (s.onStateTimer now)
  | .ackTimer now => some (s.onAckTimer now)

/-- The association after `open`, with no call made yet. -/
def opened (sid localPort : UInt16) (uuid : List UInt8) (tag tsn : UInt32) : Association :=
  Association.open' localPort uuid tag tsn { initStreamId := sid }

end CxxDeps.Sctp
