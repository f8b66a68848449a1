import CxxDeps.Sctp.Codec
import CxxDeps.Sctp.Stream

/-! Wire round trips. Chunks and parameters carry their own length and are padded
to a multiple of four, so a list of them is read back as it was written as long
as the buffer stays within `SCTP_MAX_CHUNK_SIZE`. A chunk type is compared as
the byte that it is. -/

namespace CxxDeps.Sctp

open Library

/-! ### Chunks -/

/-- The chunk as it is read back, with its length field set. -/
def Chunk.reread (chunk : Chunk) : Chunk :=
  { chunk.sized with type := .ofByte chunk.type.toByte }

theorem ChunkType.toByte_ofByte (b : UInt8) : (ofByte b).toByte = b := by
  unfold ofByte
  split
  case h_13 => rfl
  all_goals
    next h => exact UInt8.toNat_inj.mp h.symm

theorem Chunk.deserialize_append (chunk : Chunk) {rest : List UInt8}
    (h : (chunk.serialize ++ rest).length ≤ maxChunkSize) :
    Chunk.deserialize (chunk.serialize ++ rest) = .ok (chunk.reread, chunk.serialize.length) := by
  have hlen := chunk.length_serialize
  have hform : chunk.serialize ++ rest = chunk.type.toByte :: chunk.flags ::
      (UInt16.ofNat (4 + chunk.payload.length) >>> 8).toUInt8 ::
      (UInt16.ofNat (4 + chunk.payload.length)).toUInt8 :: (chunk.payload ++
        (List.replicate (padding (UInt16.ofNat (4 + chunk.payload.length)).toNat) 0 ++ rest)) := by
    simp [Chunk.serialize, toBe16]
  have hsmall : (UInt16.ofNat (4 + chunk.payload.length)).toNat = 4 + chunk.payload.length := by
    apply toNat_ofNat_small
    rw [List.length_append] at h
    omega
  rw [List.length_append] at h
  rw [hlen] at h ⊢
  rw [hform]
  simp only [Chunk.deserialize, be16_toBe16, List.length_append, List.length_replicate]
  rw [hsmall] at h ⊢
  rw [if_neg (by omega), if_neg (by omega), if_neg (by omega)]
  simp [Chunk.reread, Chunk.sized]

/-! ### Packets -/

/-- What a chunk carries: its type as a byte, its flags and its payload. -/
def Chunk.content (chunk : Chunk) : UInt8 × ChunkFlags × List UInt8 :=
  (chunk.type.toByte, chunk.flags, chunk.payload)

theorem Chunk.content_reread (chunk : Chunk) : chunk.reread.content = chunk.content := by
  simp [content, reread, sized, ChunkType.toByte_ofByte]

theorem Packet.deserialize_serialize {pkt : Packet} (hne : pkt.chunks ≠ [])
    (hsize : (pkt.chunks.flatMap Chunk.serialize).length ≤ maxChunkSize) :
    Packet.deserialize pkt.serialize = .ok ⟨pkt.header, pkt.chunks.map Chunk.reread⟩ := by
  have hbody : pkt.chunks.flatMap Chunk.serialize ≠ [] := by
    obtain ⟨chunk, chunks, heq⟩ := List.exists_cons_of_ne_nil hne
    simp [heq, chunk.serialize_ne_nil]
  have hdrop : pkt.serialize.drop 12 = pkt.chunks.flatMap Chunk.serialize :=
    List.drop_left' pkt.header.length_serialize
  have hfuel : (pkt.chunks.flatMap Chunk.serialize).length ≤ pkt.serialize.length := by
    rw [← hdrop, List.length_drop]
    omega
  have hchunks := readUnits_flatMap Chunk.serialize_ne_nil
    (fun chunk rest hle => chunk.deserialize_append hle) pkt.chunks hfuel hsize
  simp only [Packet.deserialize, bind, Except.bind, pure, Except.pure, hdrop, hchunks]
  rw [Packet.serialize, Header.deserialize_serialize pkt.header hbody]

/-- The bytes of the checksum field of a signed buffer. -/
theorem signCrc32_field {data buf : List UInt8} (h : signCrc32 data = some buf) :
    (buf.drop 8).take 4 = toBe32 (checkCrc32 buf) := by
  rw [checkCrc32_sign h]
  obtain ⟨hlen, rfl⟩ := signCrc32_eq_some h
  have h8 : (data.take 8).length = 8 := by simp; omega
  rw [List.append_assoc, List.drop_left' h8, List.take_left' (length_toBe32 _)]

/-! ### The DCEP OPEN message -/

theorem DcepOpen.deserialize_serialize {open' : DcepOpen} (hl : open'.label.length ≤ 65535)
    (hp : open'.protocol.length ≤ 65535) :
    DcepOpen.deserialize open'.serialize = some open' := by
  have hlabel : (UInt16.ofNat open'.label.length).toNat = open'.label.length := by
    rw [UInt16.toNat_ofNat']; omega
  have hprotocol : (UInt16.ofNat open'.protocol.length).toNat = open'.protocol.length := by
    rw [UInt16.toNat_ofNat']; omega
  simp only [serialize, toBe16, toBe32, List.cons_append, List.nil_append, deserialize,
    be16_toBe16, be32_toBe32, hlabel, hprotocol, List.length_append]
  rw [if_neg (by omega), List.take_left, List.drop_left, List.take_length]

/-- Packets, their checksum and the formats inside chunks are read back as they
were written. -/
theorem wire_round_trip :
    (∀ pkt : Packet, pkt.chunks ≠ [] →
      (pkt.chunks.flatMap Chunk.serialize).length ≤ maxChunkSize →
        ∃ chunks, Packet.deserialize pkt.serialize = .ok ⟨pkt.header, chunks⟩ ∧
          chunks.map Chunk.content = pkt.chunks.map Chunk.content) ∧
    (∀ data buf, signCrc32 data = some buf → (buf.drop 8).take 4 = toBe32 (checkCrc32 buf)) ∧
    (∀ (pkt : Packet) buf, pkt.chunks ≠ [] →
      (pkt.chunks.flatMap Chunk.serialize).length ≤ maxChunkSize →
        signCrc32 pkt.serialize = some buf →
          ∃ chunks, Packet.deserialize buf =
            .ok ⟨{ pkt.header with checksum := checkCrc32 buf }, chunks⟩) ∧
    (∀ chunk : DataChunk, chunk.serialize.length ≤ maxChunkSize →
      DataChunk.deserialize chunk.serialize = .ok chunk) ∧
    (∀ chunk : InitChunk, chunk.serialize.length ≤ maxChunkSize →
      InitChunk.deserialize chunk.serialize = .ok chunk) ∧
    (∀ open' : DcepOpen, open'.label.length ≤ 65535 → open'.protocol.length ≤ 65535 →
      DcepOpen.deserialize open'.serialize = some open') := by
  refine ⟨fun pkt hne hsize => ?_, fun data buf h => signCrc32_field h,
    fun pkt buf hne hsize hsign => ?_, fun chunk h => DataChunk.deserialize_serialize h,
    fun chunk h => InitChunk.deserialize_serialize h,
    fun open' hl hp => DcepOpen.deserialize_serialize hl hp⟩
  · refine ⟨_, Packet.deserialize_serialize hne hsize, ?_⟩
    rw [List.map_map]
    exact List.map_congr_left fun chunk _ => chunk.content_reread
  · obtain ⟨chunks, h⟩ : ∃ chunks, Packet.deserialize (Packet.serialize
        ⟨{ pkt.header with checksum := checkCrc32 buf }, pkt.chunks⟩) =
          .ok ⟨{ pkt.header with checksum := checkCrc32 buf }, chunks⟩ :=
      ⟨_, Packet.deserialize_serialize hne hsize⟩
    rw [← Packet.sign_serialize hsign] at h
    exact ⟨chunks, h⟩

/-- A packet of a COOKIE_ACK and a DATA chunk with one byte of padding. -/
theorem wire_round_trip_two_chunks :
    ∃ chunks, Packet.deserialize (Packet.serialize
        ⟨⟨5000, 5000, 7, 0⟩, [⟨.cookieAck, 0, 0, []⟩, ⟨.data, 3, 0, [1, 2, 3]⟩]⟩) =
          .ok ⟨⟨5000, 5000, 7, 0⟩, chunks⟩ ∧
      chunks.map Chunk.content = [(0x0b, 0, []), (0x00, 3, [1, 2, 3])] :=
  wire_round_trip.1 ⟨⟨5000, 5000, 7, 0⟩, [⟨.cookieAck, 0, 0, []⟩, ⟨.data, 3, 0, [1, 2, 3]⟩]⟩
    (by decide) (by decide)

/-! ### The SACK chunk -/

theorem SackChunk.size_of_deserialize {data : List UInt8} {chunk : SackChunk}
    (h : SackChunk.deserialize data = .ok chunk) : data.length ≤ maxChunkSize := by
  unfold SackChunk.deserialize at h
  split at h
  · by_contra hlen
    simp only [List.length_cons] at hlen
    rw [if_pos (by omega)] at h
    cases h
  · cases h

/-- A SACK is read back as it was written exactly if it lists neither gap blocks
nor duplicates. -/
theorem sack_round_trip_iff (chunk : SackChunk) :
    SackChunk.deserialize chunk.serialize = .ok chunk ↔ chunk.gaps = [] ∧ chunk.dups = [] := by
  constructor
  · intro h
    have hsize : chunk.serialize.length ≤ maxChunkSize := SackChunk.size_of_deserialize h
    rw [SackChunk.deserialize_serialize hsize] at h
    split at h
    · have hchunk : ⟨chunk.tsn, chunk.arwnd, [], []⟩ = chunk := Except.ok.inj h
      exact ⟨(congrArg SackChunk.gaps hchunk).symm, (congrArg SackChunk.dups hchunk).symm⟩
    · cases h
  · rintro ⟨hgaps, hdups⟩
    have hsize : chunk.serialize.length ≤ maxChunkSize := by
      simp [SackChunk.serialize, hgaps, hdups, maxChunkSize]
    have hchunk : ⟨chunk.tsn, chunk.arwnd, [], []⟩ = chunk := by rw [← hgaps, ← hdups]
    rw [SackChunk.deserialize_serialize hsize, hchunk, hgaps]
    rfl

/-- One gap block of one lost packet: the chunk has sixteen bytes and is refused. -/
theorem sack_gap_refused :
    SackChunk.serialize ⟨7, 65536, [⟨2, 2⟩], []⟩ =
        [0, 0, 0, 7, 0, 1, 0, 0, 0, 1, 0, 0, 0, 2, 0, 2] ∧
      SackChunk.deserialize (SackChunk.serialize ⟨7, 65536, [⟨2, 2⟩], []⟩) =
        .error .rejected := by
  decide

end CxxDeps.Sctp
