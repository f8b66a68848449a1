import CxxDeps.Library.Access
import CxxDeps.Library.Run
import CxxDeps.Sctp.Effects

/-! What `conn_input` reads: every byte it indexes and every range it copies while it
parses a packet, its chunks and what they carry, against the size of the buffer
it reads from. The accesses stop where the behaviour becomes undefined. Two
length fields are subtracted from without a test: a chunk of length 1, 2 or 3 and
a parameter of length below 4 are copied from a range that ends before it begins.
And the first byte of an empty DCEP message is read. -/

namespace CxxDeps.Sctp

open Library

/-! ### Accesses -/

/-- `sctp_header::deserialize`. -/
def Header.accesses (data : List UInt8) : List Access :=
  if data.length ≤ 12 then [] else indices data.length 0 12

/-- `sctp_chunk::deserialize`. -/
def Chunk.accesses : List UInt8 → List Access
  | _ :: _ :: l₀ :: l₁ :: rest =>
    let size := rest.length + 4
    let len := (be16 l₀ l₁).toNat
    let paddingLen := len + padding len
    if maxChunkSize < size then []
    else indices size 0 4 ++
      if paddingLen < 4 ∨ size < paddingLen then [] else [⟨size, 4, len⟩]
  | _ => []

/-- `sctp_packet::deserialize`. -/
def Packet.accesses (data : List UInt8) : List Access :=
  Header.accesses data ++
    if data.length ≤ 12 then []
    else unitAccesses Chunk.accesses Chunk.deserialize data.length (data.drop 12)

/-- `sctp_chunk_tlv::deserialize`. -/
def Tlv.accesses : List UInt8 → List Access
  | _ :: _ :: l₀ :: l₁ :: rest =>
    let size := rest.length + 4
    let len := (be16 l₀ l₁).toNat
    if maxChunkSize < size then []
    else indices size 0 4 ++ if size < len then [] else [⟨size, 4, len⟩]
  | _ => []

/-- The loop over the parameters of a chunk. -/
def parameterAccesses (data : List UInt8) : List Access :=
  unitAccesses Tlv.accesses Tlv.deserialize data.length data

def InitChunk.accesses (data : List UInt8) : List Access :=
  if data.length < 16 ∨ maxChunkSize < data.length then []
  else indices data.length 0 16 ++ parameterAccesses (data.drop 16)

def HeartbeatChunk.accesses (data : List UInt8) : List Access :=
  if data.length ≤ 0 ∨ maxChunkSize < data.length then [] else parameterAccesses data

def AbortChunk.accesses (data : List UInt8) : List Access :=
  if maxChunkSize < data.length then [] else parameterAccesses data

def CookieEchoChunk.accesses (data : List UInt8) (len : UInt16) : List Access :=
  if data.length < len.toNat ∨ maxChunkSize < data.length then []
  else [⟨data.length, 0, len.toNat⟩]

def DataChunk.accesses (data : List UInt8) : List Access :=
  if data.length < 12 ∨ maxChunkSize < data.length then []
  else indices data.length 0 12 ++ [⟨data.length, 12, data.length⟩]

/-- Four bytes for each gap block, and as many for each duplicate. -/
def SackChunk.accesses : List UInt8 → List Access
  | _ :: _ :: _ :: _ :: _ :: _ :: _ :: _ :: g₀ :: g₁ :: d₀ :: d₁ :: rest =>
    let size := rest.length + 12
    let numGap := (be16 g₀ g₁).toNat
    let numDup := (be16 d₀ d₁).toNat
    if maxChunkSize < size then []
    else indices size 0 12 ++
      if size < numGap * 8 + numDup * 4 + 12 then []
      else indices size 12 (4 * numGap) ++ indices size (12 + 4 * numGap) (4 * numGap)
  | _ => []

def DcepOpen.accesses : List UInt8 → List Access
  | _ :: _ :: _ :: _ :: _ :: _ :: _ :: _ :: l₀ :: l₁ :: q₀ :: q₁ :: rest =>
    let size := rest.length + 12
    let labelLength := (be16 l₀ l₁).toNat
    let protocolLength := (be16 q₀ q₁).toNat
    indices size 0 12 ++
      if size < labelLength + protocolLength + 12 then []
      else [⟨size, 12, 12 + labelLength⟩,
        ⟨size, 12 + labelLength, 12 + labelLength + protocolLength⟩]
  | _ => []

/-- `check_crc32`. -/
def crcAccesses (data : List UInt8) : List Access :=
  if data.length < 12 then []
  else indices data.length 0 8 ++ indices data.length 12 (data.length - 12)

/-- `on_dcep_message`. -/
def Message.dcepAccesses (msg : Message) : List Access :=
  match msg.serialize with
  | none => []
  | some buf => indices buf.length 0 1 ++
    if buf.head? = some dcepOpen then DcepOpen.accesses buf else []

/-- Whether `on_user_message` takes the message for a DCEP message. -/
def Message.isDcep (msg : Message) : Bool :=
  msg.firstBlock.any fun block => block.chunk.payloadProtocolId == Ppid.dcep

def Message.accesses (msg : Message) : List Access :=
  if msg.isDcep then msg.dcepAccesses else []

namespace Association

/-- The loop of `insert_data_chunk`. -/
def drainAccesses (now : ℤ) (sid : UInt16) : ℕ → Association → List Access
  | 0, _ => []
  | n + 1, s =>
    match s.streams[sid]? with
    | .none => []
    | some stream =>
      match stream.nextMessage with
      | .none => []
      | some (msg, stream) => msg.accesses ++
        match onUserMessage now msg (sendSack msg (s.setStreams (s.streams.insert sid stream))) with
        | .none => []
        | some s => drainAccesses now sid n s

def insertAccesses (now : ℤ) (flags : ChunkFlags) (chunk : DataChunk) (s : Association) :
    List Access :=
  let stream := (s.receive now flags chunk).1
  drainAccesses now chunk.streamId (stream.messages.size + 1)
    (s.setStreams (s.streams.insert chunk.streamId stream))

/-- `on_chunk`. -/
def chunkAccesses (now : ℤ) (s : Association) (chunk : Chunk) : List Access :=
  match chunk.type with
  | .init | .initAck => InitChunk.accesses chunk.payload
  | .cookieEcho => CookieEchoChunk.accesses chunk.payload chunk.payloadLength
  | .data => DataChunk.accesses chunk.payload ++
    match DataChunk.deserialize chunk.payload with
    | .ok data => s.insertAccesses now chunk.flags data
    | .error _ => []
  | .sack => SackChunk.accesses chunk.payload
  | .heartbeat => HeartbeatChunk.accesses chunk.payload
  | .abort => AbortChunk.accesses chunk.payload
  | _ => []

/-- The loop of `conn_input` over the chunks. -/
def chunksAccesses (now : ℤ) (header : Header) : Association → List Chunk → List Access
  | _, [] => []
  | s, chunk :: chunks => s.chunkAccesses now chunk ++
    match s.onChunk now header chunk with
    | .none => []
    | some s => chunksAccesses now header s chunks

/-- `conn_input`. -/
def inputAccesses (now : ℤ) (data : List UInt8) (s : Association) : List Access :=
  Packet.accesses data ++
    match Packet.deserialize data with
    | .error _ => []
    | .ok pkt =>
      (if pkt.header.checksum == 0 then [] else crcAccesses data) ++
        if accepts data pkt then chunksAccesses now pkt.header s pkt.chunks else []

end Association

/-! ### The condition -/

/-- The length field of a chunk is zero, which is refused, or covers the four bytes
in front of the payload. -/
def Chunk.LengthOk : List UInt8 → Prop
  | _ :: _ :: l₀ :: l₁ :: rest =>
    rest.length + 4 ≤ maxChunkSize → (be16 l₀ l₁).toNat = 0 ∨ 4 ≤ (be16 l₀ l₁).toNat
  | _ => True

/-- The length field of a parameter covers the four bytes in front of its value. -/
def Tlv.LengthOk : List UInt8 → Prop
  | _ :: _ :: l₀ :: l₁ :: rest => rest.length + 4 ≤ maxChunkSize → 4 ≤ (be16 l₀ l₁).toNat
  | _ => True

/-- Every parameter reached has a good length field. -/
def ParametersOk (data : List UInt8) : Prop :=
  data.length ≤ maxChunkSize → UnitsOk Tlv.LengthOk Tlv.deserialize data.length data

def Message.EmptyDcep (msg : Message) : Prop := msg.isDcep = true ∧ msg.serialize = some []

/-- The message makes its receiver close the stream `sid`. -/
def Message.closes (sid : UInt16) (msg : Message) : Bool :=
  msg.streamId == sid && msg.firstBlock.any fun block =>
    block.chunk.payloadProtocolId == Ppid.emptyBinary ||
      block.chunk.payloadProtocolId == Ppid.emptyString

/-- The messages up to the first one that closes the stream. -/
def uptoClose (sid : UInt16) : List Message → List Message
  | [] => []
  | msg :: msgs => msg :: if msg.closes sid then [] else uptoClose sid msgs

/-- What a chunk has to meet in the state it arrives in: good parameters, and no
empty DCEP message among the messages that a DATA chunk makes ready. -/
def Association.ChunkOk (now : ℤ) (s : Association) (chunk : Chunk) : Prop :=
  match chunk.type with
  | .init | .initAck =>
    chunk.payload.length ≤ maxChunkSize → ParametersOk (chunk.payload.drop 16)
  | .heartbeat | .abort => ParametersOk chunk.payload
  | .data => ∀ data, DataChunk.deserialize chunk.payload = .ok data →
    ∀ msg ∈ uptoClose data.streamId (s.readyMessages now chunk.flags data), ¬ msg.EmptyDcep
  | _ => True

/-- The chunks of a packet, one after the other. -/
def chunkStep (now : ℤ) (header : Header) (s : Association) (chunk : Chunk) :
    Option (Association × List Event) :=
  (s.onChunk now header chunk).map fun s => (s, [])

/-- The condition on a byte string in a state of the association. -/
structure InputOk (now : ℤ) (data : List UInt8) (s : Association) : Prop where
  lengths : UnitsOk Chunk.LengthOk Chunk.deserialize data.length (data.drop 12)
  chunks : ∀ pkt, Packet.deserialize data = .ok pkt → Association.accepts data pkt = true →
    RunOk (chunkStep now pkt.header) (Association.ChunkOk now) s pkt.chunks

/-! ### Parsers -/

theorem Header.accesses_inRange (data : List UInt8) : AllInRange (Header.accesses data) := by
  unfold accesses
  split
  · exact allInRange_nil
  · exact allInRange_indices (by omega)

theorem Chunk.accesses_inRange_iff (data : List UInt8) :
    AllInRange (Chunk.accesses data) ↔ Chunk.LengthOk data := by
  unfold accesses LengthOk
  split
  · next l₀ l₁ rest =>
    dsimp only
    generalize (be16 l₀ l₁).toNat = len
    by_cases hbig : maxChunkSize < rest.length + 4
    · rw [if_pos hbig]
      exact iff_of_true allInRange_nil fun h => absurd h (by omega)
    · rw [if_neg hbig, allInRange_append]
      have hhead := allInRange_indices (show 0 + 4 ≤ rest.length + 4 by omega)
      rw [and_iff_right hhead, imp_iff_right (by omega : rest.length + 4 ≤ maxChunkSize)]
      have hpad : len + padding len = (len + 3) / 4 * 4 := by
        unfold padding
        split_ifs <;> omega
      rw [hpad]
      split_ifs with href
      · exact iff_of_true allInRange_nil (by omega)
      · rw [allInRange_cons, and_iff_left allInRange_nil]
        simp only [Access.InRange]
        omega
  · exact iff_of_true allInRange_nil trivial

theorem Tlv.accesses_inRange_iff (data : List UInt8) :
    AllInRange (Tlv.accesses data) ↔ Tlv.LengthOk data := by
  unfold accesses LengthOk
  split
  · next l₀ l₁ rest =>
    dsimp only
    generalize (be16 l₀ l₁).toNat = len
    by_cases hbig : maxChunkSize < rest.length + 4
    · rw [if_pos hbig]
      exact iff_of_true allInRange_nil fun h => absurd h (by omega)
    · rw [if_neg hbig, allInRange_append]
      have hhead := allInRange_indices (show 0 + 4 ≤ rest.length + 4 by omega)
      rw [and_iff_right hhead, imp_iff_right (by omega : rest.length + 4 ≤ maxChunkSize)]
      split_ifs with hlong
      · exact iff_of_true allInRange_nil (by omega)
      · rw [allInRange_cons, and_iff_left allInRange_nil]
        simp only [Access.InRange]
        omega
  · exact iff_of_true allInRange_nil trivial

theorem parameterAccesses_inRange_iff {data : List UInt8} (h : data.length ≤ maxChunkSize) :
    AllInRange (parameterAccesses data) ↔ ParametersOk data := by
  rw [ParametersOk, imp_iff_right h]
  exact unitAccesses_inRange_iff _ Tlv.accesses_inRange_iff _ _

theorem DataChunk.accesses_inRange (data : List UInt8) : AllInRange (DataChunk.accesses data) := by
  unfold accesses
  split_ifs
  · exact allInRange_nil
  · rw [allInRange_append, allInRange_cons]
    exact ⟨allInRange_indices (by omega), ⟨by simp only; omega, le_rfl⟩, allInRange_nil⟩

theorem CookieEchoChunk.accesses_inRange (data : List UInt8) (len : UInt16) :
    AllInRange (CookieEchoChunk.accesses data len) := by
  unfold accesses
  split_ifs
  · exact allInRange_nil
  · rw [allInRange_cons]
    exact ⟨⟨Nat.zero_le _, by simp only; omega⟩, allInRange_nil⟩

theorem SackChunk.accesses_inRange (data : List UInt8) : AllInRange (SackChunk.accesses data) := by
  unfold accesses
  split
  · next rest =>
    dsimp only
    split_ifs with hbig hshort
    · exact allInRange_nil
    · rw [allInRange_append]
      exact ⟨allInRange_indices (by omega), allInRange_nil⟩
    · rw [allInRange_append, allInRange_append]
      exact ⟨allInRange_indices (by omega), allInRange_indices (by omega),
        allInRange_indices (by omega)⟩
  · exact allInRange_nil

theorem DcepOpen.accesses_inRange (data : List UInt8) : AllInRange (DcepOpen.accesses data) := by
  unfold accesses
  split
  · next rest =>
    dsimp only
    rw [allInRange_append]
    refine ⟨allInRange_indices (by omega), ?_⟩
    split_ifs with hshort
    · exact allInRange_nil
    · rw [allInRange_cons, allInRange_cons]
      exact ⟨⟨by simp only; omega, by simp only; omega⟩,
        ⟨by simp only; omega, by simp only; omega⟩, allInRange_nil⟩
  · exact allInRange_nil

theorem crcAccesses_inRange (data : List UInt8) : AllInRange (crcAccesses data) := by
  unfold crcAccesses
  split_ifs
  · exact allInRange_nil
  · rw [allInRange_append]
    exact ⟨allInRange_indices (by omega), allInRange_indices (by omega)⟩

theorem InitChunk.accesses_inRange_iff (data : List UInt8) :
    AllInRange (InitChunk.accesses data) ↔
      (data.length ≤ maxChunkSize → ParametersOk (data.drop 16)) := by
  unfold accesses
  split_ifs with href
  · refine iff_of_true allInRange_nil fun hle => ?_
    rw [List.drop_eq_nil_of_le (by omega)]
    exact fun _ => trivial
  · have hrest : (data.drop 16).length ≤ maxChunkSize := by
      rw [List.length_drop]; omega
    rw [allInRange_append, parameterAccesses_inRange_iff hrest,
      and_iff_right (allInRange_indices (by omega)), imp_iff_right (by omega)]

theorem HeartbeatChunk.accesses_inRange_iff (data : List UInt8) :
    AllInRange (HeartbeatChunk.accesses data) ↔ ParametersOk data := by
  unfold accesses
  split_ifs with href
  · refine iff_of_true allInRange_nil fun hle => ?_
    rw [List.eq_nil_of_length_eq_zero (show data.length = 0 by omega)]
    exact trivial
  · exact parameterAccesses_inRange_iff (by omega)

theorem AbortChunk.accesses_inRange_iff (data : List UInt8) :
    AllInRange (AbortChunk.accesses data) ↔ ParametersOk data := by
  unfold accesses
  split_ifs with href
  · exact iff_of_true allInRange_nil fun hle => absurd hle (by omega)
  · exact parameterAccesses_inRange_iff (by omega)

/-! ### Messages -/

theorem Message.accesses_inRange_iff (msg : Message) :
    AllInRange msg.accesses ↔ ¬ msg.EmptyDcep := by
  unfold accesses EmptyDcep
  split_ifs with hd
  · rw [dcepAccesses]
    rcases hs : msg.serialize with _ | buf
    · simp
    · have hopen :
          AllInRange (if buf.head? = some dcepOpen then DcepOpen.accesses buf else []) := by
        split_ifs
        · exact DcepOpen.accesses_inRange buf
        · exact allInRange_nil
      rw [allInRange_append, and_iff_left hopen]
      cases buf with
      | nil => simp [hd, indices, Access.InRange]
      | cons b bs =>
        exact iff_of_true (allInRange_indices (by simp)) (by simp)
  · exact iff_of_true allInRange_nil fun h => hd h.1

namespace Association

variable {now : ℤ} {sid : UInt16} {msg : Message} {s s' : Association} {stream : Stream}

/-- Only an empty DCEP message stops the handling of a message. -/
theorem onUserMessage_eq_none : s.onUserMessage now msg = none ↔ msg.EmptyDcep := by
  have hdcep : s.onDcepMessage now msg = none ↔ msg.serialize = some [] := by
    rw [onDcepMessage]
    split
    · next h => simp [h]
    · next h => simp [h]
    · next h =>
      rw [h]
      refine iff_of_false ?_ (by simp)
      split_ifs
      · split <;> simp
      · simp
      · simp
  rw [onUserMessage, Message.EmptyDcep, Message.isDcep]
  rcases msg.firstBlock with _ | block
  · simp
  · simp only [Option.any_some, beq_iff_eq]
    split_ifs with hp hempty huser
    · rw [hdcep, and_iff_right hp]
    · exact iff_of_false (by split <;> simp) fun h => hp h.1
    · exact iff_of_false (by split <;> simp) fun h => hp h.1
    · exact iff_of_false (by simp) fun h => hp h.1

theorem streamSend_stream (now : ℤ) (sid' : UInt16) (data : List UInt8) (ppid : Ppid)
    (hs : s.streams[sid]? = some stream) :
    (s.streamSend now sid' data ppid).1.streams[sid]? ≠ none := by
  rcases hst : s.streams[sid']? with _ | st
  · rw [streamSend_of_none now data ppid hst, hs]
    exact Option.some_ne_none _
  · obtain ⟨es, hes, -⟩ := streamSend_spec now sid' data ppid hst
    rw [hes, say_streams, setStreams_streams, Std.ExtTreeMap.getElem?_insert]
    split
    · exact Option.some_ne_none _
    · rw [hs]
      exact Option.some_ne_none _

theorem onDcepMessage_stream (h : s.onDcepMessage now msg = some s')
    (hs : s.streams[sid]? = some stream) : s'.streams[sid]? ≠ none := by
  have hsame : s.streams[sid]? ≠ none := by rw [hs]; exact Option.some_ne_none _
  rw [onDcepMessage] at h
  split at h
  · exact Option.some.inj h ▸ hsame
  · cases h
  · split_ifs at h
    · split at h
      · exact Option.some.inj h ▸ hsame
      · obtain rfl := Option.some.inj h
        exact streamSend_stream now msg.streamId [dcepAck] Ppid.dcep hs
    · exact Option.some.inj h ▸ hsame
    · exact Option.some.inj h ▸ hsame

/-- The stream of a message is still there unless the message closes it. -/
theorem onUserMessage_stream (h : s.onUserMessage now msg = some s')
    (hs : s.streams[sid]? = some stream) : s'.streams[sid]? = none ↔ msg.closes sid = true := by
  have hsame : s.streams[sid]? ≠ none := by rw [hs]; exact Option.some_ne_none _
  rw [onUserMessage] at h
  rw [Message.closes]
  rcases hb : msg.firstBlock with _ | block
  · rw [hb] at h
    obtain rfl := Option.some.inj h
    simp [hs]
  · rw [hb] at h
    simp only [Option.any_some, Bool.and_eq_true, Bool.or_eq_true, beq_iff_eq] at h ⊢
    split_ifs at h with hp hempty huser
    · refine iff_of_false (onDcepMessage_stream h hs) fun hc => ?_
      rw [hp] at hc
      exact absurd hc.2 (by decide)
    · rcases hst : s.streams[msg.streamId]? with _ | st
      · rw [hst] at h
        obtain rfl := Option.some.inj h
        refine iff_of_false hsame fun hc => ?_
        rw [hc.1, hs] at hst
        cases hst
      · rw [hst] at h
        obtain rfl := Option.some.inj h
        rw [setStreams_streams, Std.ExtTreeMap.getElem?_erase]
        by_cases hid : msg.streamId = sid
        · rw [if_pos (Std.LawfulEqCmp.compare_eq_iff_eq.mpr hid)]
          exact iff_of_true rfl ⟨hid, hempty⟩
        · rw [if_neg fun heq => hid (Std.LawfulEqCmp.compare_eq_iff_eq.mp heq)]
          exact iff_of_false hsame fun hc => hid hc.1
    · refine iff_of_false ?_ fun hc => hempty hc.2
      split at h
      · exact Option.some.inj h ▸ hsame
      · exact Option.some.inj h ▸ hsame
    · exact iff_of_false (Option.some.inj h ▸ hsame) fun hc => hempty hc.2

/-- The loop over the ready messages reads in range as long as no empty DCEP message
comes up. -/
theorem drainAccesses_inRange_iff (n : ℕ) (hs : s.streams[sid]? = some stream) :
    AllInRange (drainAccesses now sid n s) ↔
      ∀ msg ∈ uptoClose sid (readyLoop n stream), ¬ msg.EmptyDcep := by
  induction n generalizing s stream with
  | zero => simp [drainAccesses, readyLoop, uptoClose]
  | succ n ih =>
    rw [drainAccesses, readyLoop]
    simp only [hs]
    rcases hnext : stream.nextMessage with _ | ⟨msg, stream'⟩
    · simp [uptoClose]
    · simp only [uptoClose, allInRange_append, List.forall_mem_cons, Message.accesses_inRange_iff]
      refine and_congr_right fun hempty => ?_
      set s₁ := sendSack msg (s.setStreams (s.streams.insert sid stream'))
      have hs₁ : s₁.streams[sid]? = some stream' := by
        obtain ⟨es, hes, -⟩ := sendSack_spec msg (s.setStreams (s.streams.insert sid stream'))
        simp only [s₁, hes, say_streams, setStreams_streams, Std.ExtTreeMap.getElem?_insert_self]
      obtain ⟨s₂, h₂⟩ := Option.ne_none_iff_exists'.mp
        (fun h => hempty (onUserMessage_eq_none.mp h) : s₁.onUserMessage now msg ≠ none)
      simp only [h₂]
      have hgone := onUserMessage_stream h₂ hs₁
      by_cases hc : msg.closes sid = true
      · rw [if_pos hc]
        have hnone := hgone.mpr hc
        refine iff_of_true ?_ (by simp)
        cases n with
        | zero => exact allInRange_nil
        | succ n => rw [drainAccesses]; simp only [hnone]; exact allInRange_nil
      · rw [if_neg hc]
        obtain ⟨st, hst⟩ := Option.ne_none_iff_exists'.mp (fun h => hc (hgone.mp h))
        obtain ⟨st', hst', hsame⟩ := onUserMessage_inbox h₂ hst
        obtain rfl : stream' = st' := Option.some.inj (hs₁.symm.trans hst')
        rw [ih hst, readyLoop_congr hsame]

theorem insertAccesses_inRange_iff (flags : ChunkFlags) (data : DataChunk) :
    AllInRange (s.insertAccesses now flags data) ↔
      ∀ msg ∈ uptoClose data.streamId (s.readyMessages now flags data), ¬ msg.EmptyDcep := by
  rw [insertAccesses, readyMessages]
  apply drainAccesses_inRange_iff
  rw [setStreams_streams, Std.ExtTreeMap.getElem?_insert_self]

/-! ### Input -/

theorem chunkAccesses_inRange_iff (s : Association) (chunk : Chunk) :
    AllInRange (s.chunkAccesses now chunk) ↔ s.ChunkOk now chunk := by
  rw [chunkAccesses, ChunkOk]
  cases chunk.type with
  | init => exact InitChunk.accesses_inRange_iff chunk.payload
  | initAck => exact InitChunk.accesses_inRange_iff chunk.payload
  | heartbeat => exact HeartbeatChunk.accesses_inRange_iff chunk.payload
  | abort => exact AbortChunk.accesses_inRange_iff chunk.payload
  | cookieEcho => exact iff_of_true (CookieEchoChunk.accesses_inRange _ _) trivial
  | sack => exact iff_of_true (SackChunk.accesses_inRange _) trivial
  | data =>
    simp only [allInRange_append, and_iff_right (DataChunk.accesses_inRange chunk.payload)]
    rcases DataChunk.deserialize chunk.payload with e | data
    · exact iff_of_true allInRange_nil fun _ h => by cases h
    · refine (insertAccesses_inRange_iff chunk.flags data).trans
        ⟨fun h d hd => ?_, fun h => h data rfl⟩
      cases hd
      exact h
  | heartbeatAck => exact iff_of_true allInRange_nil trivial
  | shutdown => exact iff_of_true allInRange_nil trivial
  | shutdownAck => exact iff_of_true allInRange_nil trivial
  | operationalError => exact iff_of_true allInRange_nil trivial
  | cookieAck => exact iff_of_true allInRange_nil trivial
  | unnamed b => exact iff_of_true allInRange_nil trivial

theorem chunksAccesses_inRange_iff (header : Header) (s : Association) (chunks : List Chunk) :
    AllInRange (chunksAccesses now header s chunks) ↔
      RunOk (chunkStep now header) (ChunkOk now) s chunks := by
  induction chunks generalizing s with
  | nil => exact iff_of_true allInRange_nil trivial
  | cons chunk chunks ih =>
    rw [chunksAccesses, RunOk, allInRange_append, chunkAccesses_inRange_iff]
    refine and_congr_right fun _ => ?_
    rw [chunkStep]
    rcases s.onChunk now header chunk with _ | s'
    · exact iff_of_true allInRange_nil (by simp)
    · simp only [ih, Option.map_some, Option.some.injEq]
      exact ⟨fun h r hr => hr ▸ h, fun h => h _ rfl⟩

theorem packetAccesses_inRange_iff (data : List UInt8) :
    AllInRange (Packet.accesses data) ↔
      UnitsOk Chunk.LengthOk Chunk.deserialize data.length (data.drop 12) := by
  rw [Packet.accesses, allInRange_append, and_iff_right (Header.accesses_inRange data)]
  split_ifs with h
  · rw [List.drop_eq_nil_of_le h]
    exact iff_of_true allInRange_nil (by cases data.length <;> trivial)
  · exact unitAccesses_inRange_iff _ Chunk.accesses_inRange_iff _ _

end Association

/-- For every byte string and every state of the association, all accesses are in
range if and only if the condition holds. -/
theorem input_in_range_iff (now : ℤ) (data : List UInt8) (s : Association) :
    AllInRange (s.inputAccesses now data) ↔ InputOk now data s := by
  rw [Association.inputAccesses, allInRange_append, Association.packetAccesses_inRange_iff]
  have hcrc (pkt : Packet) :
      AllInRange (if pkt.header.checksum == 0 then [] else crcAccesses data) := by
    split_ifs
    · exact allInRange_nil
    · exact crcAccesses_inRange data
  rcases hpkt : Packet.deserialize data with e | pkt
  · refine ⟨fun h => ⟨h.1, fun pkt hp => ?_⟩, fun h => ⟨h.lengths, allInRange_nil⟩⟩
    rw [hpkt] at hp
    cases hp
  · simp only [allInRange_append, and_iff_right (hcrc pkt)]
    by_cases hacc : Association.accepts data pkt = true
    · rw [if_pos hacc, Association.chunksAccesses_inRange_iff]
      refine ⟨fun h => ⟨h.1, fun p hp _ => ?_⟩, fun h => ⟨h.lengths, h.chunks pkt hpkt hacc⟩⟩
      rw [hpkt] at hp
      cases hp
      exact h.2
    · rw [if_neg hacc]
      refine ⟨fun h => ⟨h.1, fun p hp ha => ?_⟩, fun h => ⟨h.lengths, allInRange_nil⟩⟩
      rw [hpkt] at hp
      cases hp
      exact absurd ha hacc

/-- A chunk whose length field is 2. -/
theorem short_chunk_length_out_of_range :
    ¬ ∀ (now : ℤ) (data : List UInt8) (s : Association), AllInRange (s.inputAccesses now data) := by
  intro h
  have hinput := h 0 [0x13, 0x88, 0x13, 0x88, 0, 0, 0, 7, 0, 0, 0, 0, 0x0e, 0, 0, 2] {}
  rw [Association.inputAccesses, allInRange_append] at hinput
  exact absurd hinput.1 (by decide)

end CxxDeps.Sctp
