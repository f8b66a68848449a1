import CxxDeps.Sctp.Chunk
import CxxDeps.Sctp.Crc32c

/-! `rtpx::sctp_packet`: a common header and chunks. A packet of one chunk that
was signed is read back, unless its chunk is larger than `SCTP_MAX_CHUNK_SIZE`. -/

namespace CxxDeps.Sctp

open Library

/-- `sctp_header`. -/
structure Header where
  srcPort : UInt16
  dstPort : UInt16
  verificationTag : UInt32
  checksum : UInt32 := 0
  deriving DecidableEq, Repr

def Header.deserialize : List UInt8 → Except Fault Header
  | s₀ :: s₁ :: d₀ :: d₁ :: v₀ :: v₁ :: v₂ :: v₃ :: c₀ :: c₁ :: c₂ :: c₃ :: _ :: _ =>
    .ok ⟨be16 s₀ s₁, be16 d₀ d₁, be32 v₀ v₁ v₂ v₃, be32 c₀ c₁ c₂ c₃⟩
  | _ => .error .rejected

def Header.serialize (header : Header) : List UInt8 :=
  toBe16 header.srcPort ++ toBe16 header.dstPort ++ toBe32 header.verificationTag ++
    toBe32 header.checksum

/-- `sctp_packet`. -/
structure Packet where
  header : Header
  chunks : List Chunk
  deriving DecidableEq, Repr

def Packet.deserialize (data : List UInt8) : Except Fault Packet := do
  let header ← Header.deserialize data
  let chunks ← readUnits Chunk.deserialize data.length (data.drop 12)
  return ⟨header, chunks⟩

def Packet.serialize (pkt : Packet) : List UInt8 :=
  pkt.header.serialize ++ pkt.chunks.flatMap Chunk.serialize

/-! ### Reading back what was written -/

theorem Header.length_serialize (header : Header) : header.serialize.length = 12 := rfl

theorem Header.deserialize_serialize (header : Header) {rest : List UInt8} (h : rest ≠ []) :
    Header.deserialize (header.serialize ++ rest) = .ok header := by
  obtain ⟨b, rest, rfl⟩ := List.exists_cons_of_ne_nil h
  simp [Header.serialize, Header.deserialize, toBe16, toBe32]

/-- The chunk as the other end reads it: the length field is filled in. -/
def Chunk.sized (chunk : Chunk) : Chunk :=
  { chunk with len := UInt16.ofNat (4 + chunk.payload.length) }

theorem Chunk.length_serialize (chunk : Chunk) :
    chunk.serialize.length = 4 + chunk.payload.length +
      padding (UInt16.ofNat (4 + chunk.payload.length)).toNat := by
  simp [Chunk.serialize, toBe16]
  omega

theorem Chunk.serialize_ne_nil (chunk : Chunk) : chunk.serialize ≠ [] := by
  simp [Chunk.serialize]

/-- The other end reads a chunk of at most `maxChunkSize` bytes as it was. -/
theorem Chunk.deserialize_serialize {chunk : Chunk} (h : chunk.type.Named) :
    Chunk.deserialize chunk.serialize =
      if maxChunkSize < chunk.serialize.length then .error .rejected
      else .ok (chunk.sized, chunk.serialize.length) := by
  have hlen := chunk.length_serialize
  have hform : chunk.serialize = chunk.type.toByte :: chunk.flags ::
      (UInt16.ofNat (4 + chunk.payload.length) >>> 8).toUInt8 ::
      (UInt16.ofNat (4 + chunk.payload.length)).toUInt8 :: (chunk.payload ++
        List.replicate (padding (UInt16.ofNat (4 + chunk.payload.length)).toNat) 0) := by
    simp [Chunk.serialize, toBe16]
  rw [hlen, hform]
  simp only [Chunk.deserialize, be16_toBe16, List.length_append, List.length_replicate,
    ChunkType.ofByte_toByte h]
  by_cases hbig : maxChunkSize < 4 + chunk.payload.length +
      padding (UInt16.ofNat (4 + chunk.payload.length)).toNat
  · rw [if_pos (by omega), if_pos hbig]
  · -- the length field does not wrap
    have hsmall : (UInt16.ofNat (4 + chunk.payload.length)).toNat = 4 + chunk.payload.length := by
      rw [UInt16.toNat_ofNat']
      apply Nat.mod_eq_of_lt
      simp only [maxChunkSize] at hbig
      omega
    rw [hsmall] at hbig ⊢
    rw [if_neg (by omega), if_neg (by omega), if_neg (by omega), if_neg hbig]
    simp [Chunk.sized]

theorem Packet.length_serialize (pkt : Packet) : 12 ≤ pkt.serialize.length := by
  simp [Packet.serialize, Header.length_serialize]

/-- A signed packet is the packet with its checksum filled in. -/
theorem Packet.sign_serialize {pkt : Packet} {buf : List UInt8}
    (h : signCrc32 pkt.serialize = some buf) :
    buf = Packet.serialize ⟨{ pkt.header with checksum := checkCrc32 buf }, pkt.chunks⟩ := by
  rw [checkCrc32_sign h]
  obtain ⟨-, rfl⟩ := signCrc32_eq_some h
  generalize checkCrc32 pkt.serialize = crc
  simp [Packet.serialize, Header.serialize, toBe16, toBe32]

/-- What a signed packet of one chunk is to the other end. -/
theorem Packet.deserialize_sign {header : Header} {chunk : Chunk} {buf : List UInt8}
    (ht : chunk.type.Named) (h : signCrc32 (Packet.serialize ⟨header, [chunk]⟩) = some buf) :
    Packet.deserialize buf =
      if maxChunkSize < chunk.serialize.length then .error .rejected
      else .ok ⟨{ header with checksum := checkCrc32 buf }, [chunk.sized]⟩ := by
  have hbuf : buf = Header.serialize { header with checksum := checkCrc32 buf } ++
      chunk.serialize := by
    simpa [Packet.serialize] using sign_serialize h
  set header' : Header := { header with checksum := checkCrc32 buf }
  have hheader := header'.deserialize_serialize chunk.serialize_ne_nil
  have hunit := Chunk.deserialize_serialize ht
  have hdrop : buf.drop 12 = chunk.serialize := by
    rw [hbuf]
    exact List.drop_left' header'.length_serialize
  have hlen : chunk.serialize.length ≤ buf.length := by
    rw [← hdrop]
    simp
  rw [← hbuf] at hheader
  simp only [Packet.deserialize, bind, Except.bind, hheader, hdrop, pure, Except.pure]
  split_ifs at hunit ⊢
  · rw [readUnits_error hlen chunk.serialize_ne_nil hunit]
  · rw [readUnits_single hlen chunk.serialize_ne_nil hunit]

end CxxDeps.Sctp
