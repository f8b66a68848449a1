import CxxDeps.Library.BigEndian
import CxxDeps.Sys.StringUtil

/-! BFCP messages: a header of twelve bytes, four more for a fragment, and attributes of a
type, a flag, a length and contents, without padding.

The type of an attribute is read with a mask that takes out one of its seven bits, and an
attribute without contents is not read at the end of a message. -/

namespace CxxDeps.Bfcp

open Library Sys

/-! ### Attributes -/

/-- `bfcp_attribute`, with its two bit-fields. -/
structure Attribute where
  type : BitVec 7 := 0
  m : BitVec 1 := 0
  contents : List UInt8 := []
  deriving DecidableEq, Repr

namespace Attribute

/-- The bit-fields that are read from the first byte. -/
def ofByte (b : UInt8) : Attribute where
  type := ((b &&& 0xEF) >>> 1).toBitVec.setWidth 7
  m := (b &&& 0x01).toBitVec.setWidth 1

/-- The bytes given are `len` bytes. -/
def deserialize (data : List UInt8) : ℤ × Attribute :=
  match data with
  | b :: clen :: rest =>
    if data.length ≤ 2 then (0, {})
    else if clen.toNat > data.length then (0, ofByte b)
    else if clen.toNat < 2 then (-1, ofByte b)
    else (clen.toNat, { ofByte b with contents := rest.take (clen.toNat - 2) })
  | _ => (0, {})

def serialize (a : Attribute) : List UInt8 :=
  let b := UInt8.ofBitVec (a.type.setWidth 8) <<< 1 ||| UInt8.ofBitVec (a.m.setWidth 8)
  let len := UInt8.ofNat a.contents.length + 2
  b :: len :: a.contents

end Attribute

/-! ### Messages -/

/-- `bfcp_packet`; the first four fields are bit-fields of one byte. -/
structure Packet where
  ver : BitVec 3 := 1
  r : BitVec 1 := 0
  f : BitVec 1 := 0
  res : BitVec 3 := 0
  primitive : UInt8 := 0
  conferenceId : UInt32 := 0
  transactionId : UInt16 := 0
  userId : UInt16 := 0
  fragmentOffset : UInt16 := 0
  fragmentLength : UInt16 := 0
  attributes : List Attribute := []
  deriving DecidableEq, Repr

namespace Packet

/-- The loop over the rest of a message. Each round takes a byte at least. -/
def readAttributes : ℕ → List UInt8 → List Attribute
  | 0, _ => []
  | n + 1, data =>
    if data.length = 0 then []
    else
      let (attrlen, attr) := Attribute.deserialize data
      if attrlen ≤ 0 then [] else attr :: readAttributes n (data.drop attrlen.toNat)

def readHeader (b : UInt8) (s : Packet) : Packet :=
  { s with
    ver := ((b &&& 0xE0) >>> 5).toBitVec.setWidth 3
    r := ((b &&& 0x10) >>> 4).toBitVec.setWidth 1
    f := ((b &&& 0x8) >>> 3).toBitVec.setWidth 1
    res := (b &&& 0x7).toBitVec.setWidth 3 }

/-- What follows on the header, from position `pos` of the message on. -/
def readPayload (data : List UInt8) (pos : ℕ) (payloadLen : UInt16) (s : Packet) : Bool × Packet :=
  if pos + payloadLen.toNat > data.length then (false, s)
  else (true, { s with attributes := readAttributes data.length (data.drop pos) })

/-- `deserialize` of so many bytes, into a packet that may have been used before. -/
def deserialize (buffer : List UInt8) (size : ℤ) (s : Packet) : Bool × Packet :=
  let s := { s with attributes := [] }
  if size < 12 then (false, s)
  else
    let data := buffer.take size.toNat
    match data with
    | b :: primitive :: l₀ :: l₁ :: c₀ :: c₁ :: c₂ :: c₃ :: t₀ :: t₁ :: u₀ :: u₁ :: rest =>
      let s := { s.readHeader b with
        primitive
        conferenceId := be32 c₀ c₁ c₂ c₃
        transactionId := be16 t₀ t₁
        userId := be16 u₀ u₁ }
      let payloadLen := be16 l₀ l₁
      if s.f ≠ 0 then
        match rest with
        | o₀ :: o₁ :: n₀ :: n₁ :: _ =>
          readPayload data 16 payloadLen
            { s with fragmentOffset := be16 o₀ o₁, fragmentLength := be16 n₀ n₁ }
        | _ => (false, s)
      else readPayload data 12 payloadLen s
    | _ => (false, s)

def payload (p : Packet) : List UInt8 := p.attributes.flatMap Attribute.serialize

def headerByte (ver : BitVec 3) (r f : BitVec 1) (res : BitVec 3) : UInt8 :=
  UInt8.ofBitVec (ver.setWidth 8) <<< 5 ||| UInt8.ofBitVec (r.setWidth 8) <<< 4 |||
    UInt8.ofBitVec (f.setWidth 8) <<< 3 ||| UInt8.ofBitVec (res.setWidth 8)

def serialize (p : Packet) : List UInt8 :=
  [headerByte p.ver p.r p.f p.res, p.primitive] ++ toBe16 (UInt16.ofNat p.payload.length) ++
    toBe32 p.conferenceId ++ toBe16 p.transactionId ++ toBe16 p.userId ++
    (if p.f ≠ 0 then toBe16 p.fragmentOffset ++ toBe16 p.fragmentLength else []) ++ p.payload

/-- The text of a message is given with its size as an `int`. -/
def received (text : List UInt8) (s : Packet) : Bool × Packet :=
  deserialize text (toInt32 text.length) s

/-- The same message: without the flag there are no fragment fields. -/
structure Same (p q : Packet) : Prop where
  ver : p.ver = q.ver
  r : p.r = q.r
  f : p.f = q.f
  res : p.res = q.res
  primitive : p.primitive = q.primitive
  conferenceId : p.conferenceId = q.conferenceId
  transactionId : p.transactionId = q.transactionId
  userId : p.userId = q.userId
  fragment : p.f ≠ 0 → p.fragmentOffset = q.fragmentOffset ∧ p.fragmentLength = q.fragmentLength
  attributes : p.attributes = q.attributes

end Packet

namespace Attribute

/-- What the mask leaves of the type. -/
def masked (a : Attribute) : Attribute := { a with type := a.type &&& 0x77 }

theorem masked_eq_self_iff (a : Attribute) : a.masked = a ↔ a.type &&& 8 = 0 := by
  obtain ⟨type, m, contents⟩ := a
  simp only [masked, Attribute.mk.injEq, and_true]
  revert type
  decide

theorem length_serialize (a : Attribute) : a.serialize.length = a.contents.length + 2 := rfl

theorem ofByte_byte (type : BitVec 7) (m : BitVec 1) :
    ofByte (UInt8.ofBitVec (type.setWidth 8) <<< 1 ||| UInt8.ofBitVec (m.setWidth 8)) =
      { type := type &&& 0x77, m } := by
  revert type m
  decide +kernel

theorem deserialize_cons (b clen : UInt8) (rest : List UInt8) :
    deserialize (b :: clen :: rest) =
      if rest.length + 2 ≤ 2 then ((0 : ℤ), ({} : Attribute))
      else if clen.toNat > rest.length + 2 then ((0 : ℤ), ofByte b)
      else if clen.toNat < 2 then ((-1 : ℤ), ofByte b)
      else ((clen.toNat : ℤ), { ofByte b with contents := rest.take (clen.toNat - 2) }) := rfl

/-- In front of anything, or with contents of its own, an attribute is read back but for a
bit of its type. -/
theorem deserialize_serialize {a : Attribute} (hlen : a.contents.length ≤ 253)
    {rest : List UInt8} (hrest : a.contents ≠ [] ∨ rest ≠ []) :
    deserialize (a.serialize ++ rest) = (((a.contents.length + 2 : ℕ) : ℤ), a.masked) := by
  have hbytes : a.serialize ++ rest =
      (UInt8.ofBitVec (a.type.setWidth 8) <<< 1 ||| UInt8.ofBitVec (a.m.setWidth 8)) ::
        (UInt8.ofNat a.contents.length + 2) :: (a.contents ++ rest) := rfl
  have hclen : (UInt8.ofNat a.contents.length + 2).toNat = a.contents.length + 2 := by
    rw [UInt8.toNat_add, UInt8.toNat_ofNat']
    simp only [UInt8.reduceToNat]
    omega
  have hsize : 2 < a.contents.length + rest.length + 2 := by
    rcases hrest with h | h <;> have := List.length_pos_of_ne_nil h <;> omega
  rw [hbytes, deserialize_cons, hclen, ofByte_byte, List.length_append, if_neg (by omega),
    if_neg (by omega), if_neg (by omega), Nat.add_sub_cancel, List.take_left]
  rfl

/-- Two bytes at the end of a message are not read. -/
theorem deserialize_serialize_nil {a : Attribute} (h : a.contents = []) :
    (deserialize a.serialize).1 = 0 := by
  obtain ⟨type, m, contents⟩ := a
  obtain rfl : contents = [] := h
  rfl

/-- What is read takes as many bytes as it tells. -/
theorem length_contents_deserialize {data : List UInt8} (h : 0 < (deserialize data).1) :
    (deserialize data).1.toNat ≤ data.length ∧
      (deserialize data).2.contents.length + 2 ≤ (deserialize data).1.toNat := by
  match data with
  | [] => exact absurd h (lt_irrefl 0)
  | [_] => exact absurd h (lt_irrefl 0)
  | b :: clen :: rest =>
    rw [deserialize_cons] at h ⊢
    by_cases h₁ : rest.length + 2 ≤ 2
    · rw [if_pos h₁] at h
      exact absurd h (lt_irrefl 0)
    by_cases h₂ : clen.toNat > rest.length + 2
    · rw [if_neg h₁, if_pos h₂] at h
      exact absurd h (lt_irrefl 0)
    by_cases h₃ : clen.toNat < 2
    · rw [if_neg h₁, if_neg h₂, if_pos h₃] at h
      exact absurd h (show ¬ (0 : ℤ) < -1 by decide)
    rw [if_neg h₁, if_neg h₂, if_neg h₃]
    refine ⟨Nat.not_lt.mp h₂, ?_⟩
    rw [List.length_take, Int.toNat_natCast]
    omega

end Attribute

namespace Packet

/-- The bytes of some attributes. -/
def attributeBytes (attributes : List Attribute) : List UInt8 :=
  attributes.flatMap Attribute.serialize

@[simp] theorem attributeBytes_nil : attributeBytes [] = [] := rfl

@[simp] theorem attributeBytes_cons (a : Attribute) (as : List Attribute) :
    attributeBytes (a :: as) = a.serialize ++ attributeBytes as := rfl

theorem attributeBytes_ne_nil {as : List Attribute} (h : as ≠ []) : attributeBytes as ≠ [] := by
  obtain ⟨a, as, rfl⟩ := List.exists_cons_of_ne_nil h
  exact List.cons_ne_nil _ _

theorem readAttributes_nil (n : ℕ) : readAttributes n [] = [] := by cases n <;> rfl

theorem readAttributes_succ (n : ℕ) {data : List UInt8} (h : data ≠ []) :
    readAttributes (n + 1) data =
      if (Attribute.deserialize data).1 ≤ 0 then []
      else (Attribute.deserialize data).2 ::
        readAttributes n (data.drop (Attribute.deserialize data).1.toNat) := by
  rw [readAttributes, if_neg (by simpa using h)]

/-- No more is read than there is. -/
theorem length_readAttributes (n : ℕ) (data : List UInt8) :
    (attributeBytes (readAttributes n data)).length ≤ data.length := by
  induction n generalizing data with
  | zero => exact Nat.zero_le _
  | succ n ih =>
    by_cases hdata : data = []
    · rw [hdata, readAttributes_nil]
      exact Nat.zero_le _
    rw [readAttributes_succ n hdata]
    by_cases hpos : (Attribute.deserialize data).1 ≤ 0
    · rw [if_pos hpos]
      exact Nat.zero_le _
    · rw [if_neg hpos]
      obtain ⟨htake, hcontents⟩ := Attribute.length_contents_deserialize (Int.not_le.mp hpos)
      have hrest := ih (data.drop (Attribute.deserialize data).1.toNat)
      rw [List.length_drop] at hrest
      rw [attributeBytes_cons, List.length_append, Attribute.length_serialize]
      omega

/-- The last attribute has contents. -/
def LastFilled (attributes : List Attribute) : Prop :=
  ∀ a ∈ attributes.getLast?, a.contents ≠ []

instance (attributes : List Attribute) : Decidable (LastFilled attributes) :=
  inferInstanceAs (Decidable (∀ a ∈ attributes.getLast?, a.contents ≠ []))

theorem lastFilled_cons {a : Attribute} {as : List Attribute} (h : as ≠ []) :
    LastFilled (a :: as) ↔ LastFilled as := by
  obtain ⟨b, as, rfl⟩ := List.exists_cons_of_ne_nil h
  rw [LastFilled, List.getLast?_cons_cons, LastFilled]

/-- The first attribute is read, where it is not an empty one at the end. -/
theorem readAttributes_cons {a : Attribute} {as : List Attribute} (hlen : a.contents.length ≤ 253)
    (h : a.contents ≠ [] ∨ as ≠ []) (n : ℕ) :
    readAttributes (n + 1) (attributeBytes (a :: as)) =
      a.masked :: readAttributes n (attributeBytes as) := by
  have hread := Attribute.deserialize_serialize hlen (h.imp_right attributeBytes_ne_nil)
  rw [readAttributes_succ n (attributeBytes_ne_nil (List.cons_ne_nil _ _)), attributeBytes_cons,
    hread, if_neg (by omega), Int.toNat_natCast, ← Attribute.length_serialize, List.drop_left]

/-- What is read of the attributes that were written. -/
theorem readAttributes_attributeBytes {attributes : List Attribute}
    (hlen : ∀ a ∈ attributes, a.contents.length ≤ 253) {n : ℕ} (hn : attributes.length ≤ n)
    (hlast : LastFilled attributes) :
    readAttributes n (attributeBytes attributes) = attributes.map Attribute.masked := by
  induction attributes generalizing n with
  | nil => exact readAttributes_nil n
  | cons a as ih =>
    obtain ⟨n, rfl⟩ := Nat.exists_eq_add_of_le' (Nat.one_le_of_lt hn)
    obtain ⟨ha, has⟩ := List.forall_mem_cons.mp hlen
    by_cases hnil : as = []
    · subst hnil
      rw [readAttributes_cons ha (.inl (hlast a rfl)), attributeBytes_nil, readAttributes_nil]
      rfl
    · rw [readAttributes_cons ha (.inr hnil),
        ih has (Nat.le_of_succ_le_succ hn) ((lastFilled_cons hnil).mp hlast)]
      rfl

/-- One less is read if the last one has no contents. -/
theorem length_readAttributes_lt {attributes : List Attribute}
    (hlen : ∀ a ∈ attributes, a.contents.length ≤ 253) (n : ℕ)
    (hlast : ¬ LastFilled attributes) :
    (readAttributes n (attributeBytes attributes)).length < attributes.length := by
  induction attributes generalizing n with
  | nil => exact absurd (fun a ha => by cases ha) hlast
  | cons a as ih =>
    obtain ⟨ha, has⟩ := List.forall_mem_cons.mp hlen
    cases n with
    | zero => exact Nat.succ_pos _
    | succ n =>
      by_cases hnil : as = []
      · subst hnil
        have hempty : a.contents = [] := by simpa [LastFilled] using hlast
        rw [readAttributes_succ n (attributeBytes_ne_nil (List.cons_ne_nil _ _)),
          attributeBytes_cons, attributeBytes_nil, List.append_nil,
          Attribute.deserialize_serialize_nil hempty, if_pos (le_refl 0)]
        exact Nat.one_pos
      · rw [readAttributes_cons ha (.inr hnil)]
        exact Nat.succ_lt_succ (ih has n fun h => hlast ((lastFilled_cons hnil).mpr h))

/-! ### The whole message -/

/-- The attributes come back, the message is short enough for an `int`. -/
structure Kept (p : Packet) : Prop where
  types : ∀ a ∈ p.attributes, a.type &&& 8 = 0
  last : LastFilled p.attributes
  size : p.serialize.length < 2 ^ 31

theorem readHeader_headerByte (s : Packet) (ver : BitVec 3) (r f : BitVec 1) (res : BitVec 3) :
    s.readHeader (headerByte ver r f res) = { s with ver, r, f, res } := by
  have h : ∀ (ver res : BitVec 3) (r f : BitVec 1),
      ((headerByte ver r f res &&& 0xE0) >>> 5).toBitVec.setWidth 3 = ver ∧
      ((headerByte ver r f res &&& 0x10) >>> 4).toBitVec.setWidth 1 = r ∧
      ((headerByte ver r f res &&& 0x8) >>> 3).toBitVec.setWidth 1 = f ∧
      (headerByte ver r f res &&& 0x7).toBitVec.setWidth 3 = res := by
    decide +kernel
  obtain ⟨hver, hr, hf, hres⟩ := h ver res r f
  rw [readHeader, hver, hr, hf, hres]

theorem length_serialize (p : Packet) :
    p.serialize.length = (if p.f ≠ 0 then 16 else 12) + p.payload.length := by
  rw [serialize]
  split <;> simp <;> omega

/-- What is read of a message that was written, as many bytes as it has. -/
theorem deserialize_serialize (p s : Packet) (h : p.serialize.length < 2 ^ 31) :
    received p.serialize s = (true, { p with
      fragmentOffset := if p.f ≠ 0 then p.fragmentOffset else s.fragmentOffset
      fragmentLength := if p.f ≠ 0 then p.fragmentLength else s.fragmentLength
      attributes := readAttributes p.serialize.length p.payload }) := by
  have hsize : toInt32 p.serialize.length = p.serialize.length := by
    rw [toInt32]
    exact Int.bmod_eq_of_le (by omega) (by omega)
  have hlen := length_serialize p
  have hpayload : (UInt16.ofNat p.payload.length).toNat ≤ p.payload.length := Nat.mod_le _ _
  have hbytes : p.serialize = headerByte p.ver p.r p.f p.res :: p.primitive ::
      (UInt16.ofNat p.payload.length >>> 8).toUInt8 :: (UInt16.ofNat p.payload.length).toUInt8 ::
      (p.conferenceId >>> 24).toUInt8 :: (p.conferenceId >>> 16).toUInt8 ::
      (p.conferenceId >>> 8).toUInt8 :: p.conferenceId.toUInt8 ::
      (p.transactionId >>> 8).toUInt8 :: p.transactionId.toUInt8 ::
      (p.userId >>> 8).toUInt8 :: p.userId.toUInt8 ::
      ((if p.f ≠ 0 then toBe16 p.fragmentOffset ++ toBe16 p.fragmentLength else []) ++
        p.payload) := by
    simp [serialize, toBe16, toBe32]
  rw [received, hsize, deserialize]
  dsimp only
  rw [if_neg (by split at hlen <;> omega), Int.toNat_natCast, List.take_length]
  rw [hbytes]
  dsimp only
  rw [readHeader_headerByte, be32_toBe32, be16_toBe16, be16_toBe16, be16_toBe16]
  by_cases hf : p.f ≠ 0
  · simp only [if_pos hf] at hlen ⊢
    have hpos : ¬ 16 + (UInt16.ofNat p.payload.length).toNat > p.serialize.length := by omega
    rw [hbytes, if_pos hf] at hpos
    simp only [toBe16, List.cons_append, List.nil_append] at hpos ⊢
    rw [readPayload, if_neg hpos, be16_toBe16, be16_toBe16]
    rfl
  · simp only [if_neg hf] at hlen ⊢
    have hpos : ¬ 12 + (UInt16.ofNat p.payload.length).toNat > p.serialize.length := by omega
    rw [hbytes, if_neg hf] at hpos
    simp only [List.nil_append] at hpos ⊢
    rw [readPayload, if_neg hpos]
    rfl

theorem length_readPayload {s : Packet} (hs : s.attributes = []) (data : List UInt8) (pos : ℕ)
    (payloadLen : UInt16) :
    (attributeBytes (readPayload data pos payloadLen s).2.attributes).length ≤ data.length := by
  rw [readPayload]
  split
  · rw [hs]
    exact Nat.zero_le _
  · refine (length_readAttributes _ _).trans ?_
    rw [List.length_drop]
    exact Nat.sub_le _ _

/-- The attributes that are read have no more bytes than were given. -/
theorem length_deserialize (buffer : List UInt8) (size : ℤ) (s : Packet) :
    (attributeBytes (deserialize buffer size s).2.attributes).length ≤ size.toNat := by
  have htake : (buffer.take size.toNat).length ≤ size.toNat := List.length_take_le _ _
  rw [deserialize]
  dsimp only
  split
  · exact Nat.zero_le _
  · split
    · split
      · split
        · exact (length_readPayload rfl _ _ _).trans htake
        · exact Nat.zero_le _
      · exact (length_readPayload rfl _ _ _).trans htake
    · exact Nat.zero_le _

theorem length_attributes_le (as : List Attribute) : as.length ≤ (attributeBytes as).length := by
  induction as with
  | nil => exact Nat.le_refl 0
  | cons a as ih =>
    rw [attributeBytes_cons, List.length_append, Attribute.length_serialize, List.length_cons]
    omega

/-- A text of 2^31 bytes or more is given with another size, so that no message of all its
attributes is read. -/
theorem size_of_same {p s : Packet} (h : Same p (received p.serialize s).2) :
    p.serialize.length < 2 ^ 31 := by
  have hread := length_deserialize p.serialize (toInt32 p.serialize.length) s
  rw [← received, ← h.attributes] at hread
  have hlen := length_serialize p
  have hpayload : p.payload.length = (attributeBytes p.attributes).length := rfl
  by_contra hbig
  have hsize : toInt32 p.serialize.length + 2 ^ 32 ≤ p.serialize.length ∨
      toInt32 p.serialize.length < 0 := by
    rw [toInt32, Int.bmod_def]
    split <;> omega
  split at hlen <;> omega

/-- A message comes back exactly if every type has bit 3 clear, the last attribute has
contents and its size is an `int`. -/
theorem reads_back_iff {p : Packet} (hlen : ∀ a ∈ p.attributes, a.contents.length ≤ 253)
    (s : Packet) :
    ((received p.serialize s).1 = true ∧ Same p (received p.serialize s).2) ↔ Kept p := by
  have hfuel : p.attributes.length ≤ p.serialize.length := by
    have := length_attributes_le p.attributes
    have hpayload : p.payload.length = (attributeBytes p.attributes).length := rfl
    rw [length_serialize]
    omega
  constructor
  · rintro ⟨-, hsame⟩
    have hsize := size_of_same hsame
    have hattributes := hsame.attributes
    rw [deserialize_serialize p s hsize] at hattributes
    have hlast : LastFilled p.attributes := by
      by_contra hlast
      exact absurd (congrArg List.length hattributes.symm)
        (length_readAttributes_lt hlen _ hlast).ne
    refine ⟨fun a ha => ?_, hlast, hsize⟩
    have hmasked : p.attributes.map Attribute.masked = p.attributes.map id :=
      ((readAttributes_attributeBytes hlen hfuel hlast).symm.trans hattributes.symm).trans
        (List.map_id _).symm
    exact (Attribute.masked_eq_self_iff a).mp (List.map_inj_left.mp hmasked a ha)
  · rintro ⟨htypes, hlast, hsize⟩
    rw [deserialize_serialize p s hsize]
    have hmasked : p.attributes.map Attribute.masked = p.attributes :=
      (List.map_inj_left.mpr fun a ha =>
        (Attribute.masked_eq_self_iff a).mpr (htypes a ha)).trans (List.map_id _)
    have hattributes : p.attributes = readAttributes p.serialize.length p.payload :=
      ((readAttributes_attributeBytes hlen hfuel hlast).trans hmasked).symm
    exact ⟨rfl, rfl, rfl, rfl, rfl, rfl, rfl, rfl, rfl,
      fun hf => ⟨(if_pos hf).symm, (if_pos hf).symm⟩, hattributes⟩

/-- A fragment with one attribute of two bytes. -/
private def fragment : Packet := { f := 1, fragmentLength := 4, attributes := [⟨2, 1, [0, 7]⟩] }

theorem reads_back_iff_fragment :
    (received fragment.serialize {}).1 = true ∧ Same fragment (received fragment.serialize {}).2 :=
  (reads_back_iff (by decide) {}).mpr ⟨by decide, by decide, by decide⟩

private def participantInfo : Packet := { attributes := [⟨8, 0, [0, 7]⟩] }

private def emptyLast : Packet := { attributes := [⟨2, 0, [0, 7]⟩, ⟨7, 0, []⟩] }

/-- An attribute of type 8 comes back with type 0, and one without contents at the end does
not come back. -/
theorem reads_back_fails :
    ¬ Same participantInfo (received participantInfo.serialize {}).2 ∧
    ¬ Same emptyLast (received emptyLast.serialize {}).2 :=
  ⟨fun h => absurd h.attributes (by decide), fun h => absurd h.attributes (by decide)⟩

end Packet

end CxxDeps.Bfcp
