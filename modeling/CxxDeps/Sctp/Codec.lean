import CxxDeps.Sctp.Packet

/-! What the payloads of the chunks are to the other end. They come back as they
were, except the SACK: a SACK with gap blocks is refused, because its size is
checked for eight bytes a block and it is written with four. -/

namespace CxxDeps.Sctp

open Library

theorem toNat_ofNat_small {n : ℕ} (h : n ≤ maxChunkSize) : (UInt16.ofNat n).toNat = n := by
  rw [UInt16.toNat_ofNat']
  apply Nat.mod_eq_of_lt
  simp only [maxChunkSize] at h
  omega

theorem Tlv.length_serialize (tlv : Tlv) :
    tlv.serialize.length = 4 + tlv.value.length +
      padding (UInt16.ofNat (4 + tlv.value.length)).toNat := by
  simp [Tlv.serialize]
  omega

theorem Tlv.serialize_ne_nil (tlv : Tlv) : tlv.serialize ≠ [] := by
  simp [Tlv.serialize, toBe16]

theorem Tlv.deserialize_append (tlv : Tlv) {rest : List UInt8}
    (h : (tlv.serialize ++ rest).length ≤ maxChunkSize) :
    Tlv.deserialize (tlv.serialize ++ rest) = .ok (tlv, tlv.serialize.length) := by
  have hlen := tlv.length_serialize
  have hform : tlv.serialize ++ rest = (tlv.type >>> 8).toUInt8 :: tlv.type.toUInt8 ::
      (UInt16.ofNat (4 + tlv.value.length) >>> 8).toUInt8 ::
      (UInt16.ofNat (4 + tlv.value.length)).toUInt8 :: (tlv.value ++
        (List.replicate (padding (UInt16.ofNat (4 + tlv.value.length)).toNat) 0 ++ rest)) := by
    simp [Tlv.serialize, toBe16]
  have hsmall : (UInt16.ofNat (4 + tlv.value.length)).toNat = 4 + tlv.value.length := by
    apply toNat_ofNat_small
    rw [List.length_append] at h
    omega
  rw [List.length_append] at h
  rw [hlen] at h ⊢
  rw [hform]
  simp only [Tlv.deserialize, be16_toBe16, List.length_append, List.length_replicate]
  rw [hsmall] at h ⊢
  rw [if_neg (by omega), if_neg (by omega), if_neg (by omega), Nat.min_eq_right (by omega)]
  simp

theorem readParameters_serializeParameters {parameters : List Tlv}
    (h : (serializeParameters parameters).length ≤ maxChunkSize) :
    readParameters (serializeParameters parameters) = .ok parameters := by
  have hread : ∀ (tlv : Tlv) rest, (tlv.serialize ++ rest).length ≤ maxChunkSize →
      Tlv.deserialize (tlv.serialize ++ rest) = .ok (id tlv, tlv.serialize.length) :=
    fun tlv rest hle => tlv.deserialize_append hle
  have := readUnits_flatMap Tlv.serialize_ne_nil hread parameters le_rfl h
  rwa [List.map_id] at this

theorem InitChunk.deserialize_serialize {init : InitChunk}
    (h : init.serialize.length ≤ maxChunkSize) :
    InitChunk.deserialize init.serialize = .ok init := by
  have hsize : (serializeParameters init.parameters).length + 16 ≤ maxChunkSize := by
    simp only [InitChunk.serialize, List.length_append, length_toBe32, length_toBe16] at h
    omega
  have hp : readParameters (serializeParameters init.parameters) = .ok init.parameters :=
    readParameters_serializeParameters (by omega)
  simp only [InitChunk.serialize, toBe32, toBe16, List.cons_append, List.nil_append,
    InitChunk.deserialize, be32_toBe32, be16_toBe16]
  rw [if_neg (by omega), hp]
  rfl

theorem DataChunk.deserialize_serialize {chunk : DataChunk}
    (h : chunk.serialize.length ≤ maxChunkSize) :
    DataChunk.deserialize chunk.serialize = .ok chunk := by
  have hsize : chunk.payload.length + 12 ≤ maxChunkSize := by
    simp only [DataChunk.serialize, List.length_append, length_toBe32, length_toBe16] at h
    omega
  simp only [DataChunk.serialize, toBe32, toBe16, List.cons_append, List.nil_append,
    DataChunk.deserialize, be32_toBe32, be16_toBe16]
  rw [if_neg (by omega)]

/-- A chunk that is small enough says how long its payload is. -/
theorem Chunk.payloadLength_sized {chunk : Chunk} (h : chunk.serialize.length ≤ maxChunkSize) :
    chunk.sized.payloadLength.toNat = chunk.payload.length := by
  have hlen := chunk.length_serialize
  have hsmall : (UInt16.ofNat (4 + chunk.payload.length)).toNat = 4 + chunk.payload.length :=
    toNat_ofNat_small (by omega)
  simp only [payloadLength, sized, UInt16.toNat_sub, hsmall]
  rw [show (4 : UInt16).toNat = 4 from rfl]
  simp only [maxChunkSize] at h
  omega

/-- The cookie of a COOKIE_ECHO is its payload. -/
theorem CookieEchoChunk.deserialize_sized {chunk : Chunk}
    (h : chunk.serialize.length ≤ maxChunkSize) :
    CookieEchoChunk.deserialize chunk.sized.payload chunk.sized.payloadLength =
      .ok ⟨chunk.payload⟩ := by
  have hlen := chunk.length_serialize
  have hpayload : chunk.sized.payload = chunk.payload := rfl
  rw [deserialize, Chunk.payloadLength_sized h, hpayload, if_neg (by omega), List.take_length]

/-- A SACK with gap blocks is refused, and the duplicates are never read. -/
theorem SackChunk.deserialize_serialize {chunk : SackChunk}
    (h : chunk.serialize.length ≤ maxChunkSize) :
    SackChunk.deserialize chunk.serialize =
      if UInt16.ofNat chunk.gaps.length = 0 then .ok ⟨chunk.tsn, chunk.arwnd, [], []⟩
      else .error .rejected := by
  set g := UInt16.ofNat chunk.gaps.length
  set d := UInt16.ofNat chunk.dups.length
  set rest := ((chunk.gaps.take g.toNat).flatMap fun gap =>
      toBe16 gap.first.toUInt16 ++ toBe16 gap.last.toUInt16) ++
    (chunk.dups.take d.toNat).flatMap toBe32 with hrest
  have hg : g.toNat ≤ chunk.gaps.length := by
    rw [UInt16.toNat_ofNat']
    exact Nat.mod_le _ _
  have hd : d.toNat ≤ chunk.dups.length := by
    rw [UInt16.toNat_ofNat']
    exact Nat.mod_le _ _
  have hlen : rest.length = 4 * g.toNat + 4 * d.toNat := by
    simp [hrest, List.length_flatMap, Nat.mul_comm, Nat.min_eq_left hg, Nat.min_eq_left hd]
  have hform : chunk.serialize = toBe32 chunk.tsn ++ toBe32 chunk.arwnd ++ toBe16 g ++ toBe16 d ++
      rest := by
    simp [SackChunk.serialize, hrest, g, d]
  have hsize : rest.length + 12 ≤ maxChunkSize := by
    simp only [hform, List.length_append, length_toBe32, length_toBe16] at h
    omega
  rw [hform]
  simp only [toBe32, toBe16, List.cons_append, List.nil_append, SackChunk.deserialize,
    be32_toBe32, be16_toBe16]
  rw [if_neg (by omega)]
  by_cases hzero : g = 0
  · have hg0 : g.toNat = 0 := by
      rw [hzero]
      rfl
    rw [if_neg (by omega), if_pos hzero, hg0]
    rfl
  · have hpos : 0 < g.toNat := by
      apply Nat.pos_of_ne_zero
      intro h0
      exact hzero (UInt16.toNat_inj.mp h0)
    rw [if_pos (by omega), if_neg hzero]

end CxxDeps.Sctp
