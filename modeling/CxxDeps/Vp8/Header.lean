import CxxDeps.Library.Bits

/-! The VP8 payload descriptor of `vpx/vpx_header.cpp`: `vp8_header_deserialize`
and `vp8_header_serialize`. The writer puts the start bit in the place of the
partition index and loses the first byte of the payload header behind an
extension, and neither function counts all optional bytes in `*header_size`. -/

namespace CxxDeps.Vp8

/-- `vp8_header`; every field has the width of its bit-field. -/
structure Header where
  extendedPresent : BitVec 1 := 0
  reserved : BitVec 1 := 0
  nonReference : BitVec 1 := 0
  startofVp8Partition : BitVec 1 := 0
  partIndex : BitVec 4 := 0
  picIdxPresent : BitVec 1 := 0
  tl0PicIdxPresent : BitVec 1 := 0
  tidPresent : BitVec 1 := 0
  keyIdxPresent : BitVec 1 := 0
  reserved2 : BitVec 4 := 0
  picIdxLen : BitVec 1 := 0
  picIdx : BitVec 15 := 0
  tl0PicIdx : UInt8 := 0
  tid : BitVec 2 := 0
  layer : BitVec 1 := 0
  keyIdx : BitVec 5 := 0
  h : BitVec 1 := 0
  version : BitVec 3 := 0
  p : BitVec 1 := 0
  firstPartitionSize : BitVec 19 := 0
  deriving DecidableEq, Repr

/-! ### `vp8_header_deserialize` -/

/-- What the reader has filled in, with `pos` and the bytes from `pos` on. -/
structure Reading where
  hdr : Header := {}
  headerSize : ℕ
  pos : ℕ
  rest : List UInt8
  deriving DecidableEq, Repr

/-- `(v & mask) >> shift`, stored in a bit-field. -/
def field (w : ℕ) (v mask shift : UInt8) : BitVec w := BitVec.ofNat w ((v &&& mask) >>> shift).toNat

def readFirstByte (v : UInt8) : Header where
  extendedPresent := field 1 v 0x80 7
  reserved := field 1 v 0x40 6
  nonReference := field 1 v 0x20 5
  startofVp8Partition := field 1 v 0x10 4
  partIndex := field 4 v 0x0F 0

def readExtension (r : Reading) : Except Reading Reading :=
  let r := { r with headerSize := 2 }
  match r.rest with
  | [] => .error r
  | v :: rest => .ok { r with
      hdr := { r.hdr with
        picIdxPresent := field 1 v 0x80 7
        tl0PicIdxPresent := field 1 v 0x40 6
        tidPresent := field 1 v 0x20 5
        keyIdxPresent := field 1 v 0x10 4
        reserved2 := field 4 v 0x0F 0 }
      pos := r.pos + 1
      rest }

def readPicIdx (r : Reading) : Except Reading Reading :=
  if r.hdr.picIdxPresent ≠ 0 then
    match r.rest with
    | [] => .error r
    | v0 :: rest =>
      let hdr := { r.hdr with picIdxLen := field 1 v0 0x80 7 }
      if hdr.picIdxLen = 0 then
        .ok { hdr := { hdr with picIdx := field 15 v0 0x7F 0 }, headerSize := 3, pos := r.pos + 1,
              rest }
      else
        match rest with
        | [] => .error { r with hdr, pos := r.pos + 1, rest }
        | v1 :: rest => .ok {
            hdr := { hdr with
              picIdx := BitVec.ofNat 15 ((v0 &&& 0x7F).toNat <<< 8 ||| v1.toNat) }
            headerSize := 4
            pos := r.pos + 2
            rest }
  else .ok r

def readTl0PicIdx (r : Reading) : Except Reading Reading :=
  if r.hdr.tl0PicIdxPresent ≠ 0 then
    match r.rest with
    | [] => .error r
    | v :: rest => .ok { r with hdr := { r.hdr with tl0PicIdx := v }, pos := r.pos + 1, rest }
  else .ok r

def readKeyIdx (r : Reading) : Except Reading Reading :=
  if r.hdr.keyIdxPresent ≠ 0 then
    match r.rest with
    | [] => .error r
    | v :: rest => .ok { r with
        hdr := { r.hdr with
          tid := field 2 v 0xC0 6
          layer := field 1 v 0x20 5
          keyIdx := field 5 v 0x1F 0 }
        pos := r.pos + 1
        rest }
  else .ok r

/-- The first bytes of the VP8 payload, which both branches read alike. -/
def readPayloadHeader (r : Reading) : Except Reading Reading :=
  if r.hdr.startofVp8Partition = 1 ∧ r.hdr.partIndex = 0 then
    match r.rest with
    | v :: v1 :: v2 :: rest => .ok { r with
        hdr := { r.hdr with
          h := field 1 v 0x10 4
          version := field 3 v 0x0E 1
          p := field 1 v 0x01 0
          firstPartitionSize :=
            BitVec.ofNat 19 ((v &&& 0xE0).toNat <<< 11 ||| v1.toNat <<< 8 ||| v2.toNat) }
        pos := r.pos + 3
        rest }
    | _ => .error r
  else .ok r

/-- `vp8_header_deserialize`; `headerSize` is what `*header_size` holds before
the call, and `Except.error` is the result `-1`. -/
def headerDeserialize (headerSize : ℕ) (buffer : List UInt8) : Except Reading Reading :=
  match buffer with
  | [] => .error { headerSize, pos := 0, rest := [] }
  | v :: rest =>
    let r : Reading := { hdr := readFirstByte v, headerSize := 1, pos := 1, rest }
    if r.hdr.extendedPresent = 0 then readPayloadHeader r
    else do
      let r ← readExtension r
      let r ← readPicIdx r
      let r ← readTl0PicIdx r
      let r ← readKeyIdx r
      readPayloadHeader r

/-! ### `vp8_header_serialize` -/

/-- The bytes written so far into a buffer of zeros, in which `|=` stores, with
`*header_size`. -/
structure Writing where
  headerSize : ℕ
  bytes : List UInt8
  deriving DecidableEq, Repr

inductive Stop
  /-- The result `-1`. -/
  | tooSmall
  /-- A write behind the end of the buffer, at a place without `CHECK_SIZE`. -/
  | overrun
  deriving DecidableEq, Repr

/-- `CHECK_SIZE(size, pos + need)`, then the bytes. -/
def Writing.put (w : Writing) (size need : ℕ) (bytes : List UInt8) : Except Stop Writing :=
  if size < w.bytes.length + need then .error .tooSmall
  else if size < w.bytes.length + bytes.length then .error .overrun
  else .ok { w with bytes := w.bytes ++ bytes }

/-- A bit-field shifted into its place. -/
def place {w : ℕ} (x : BitVec w) (shift : ℕ) : UInt8 := UInt8.ofNat (x.toNat <<< shift)

/-- The low bits come from the start bit a second time. -/
def firstByte (hdr : Header) : UInt8 :=
  place hdr.extendedPresent 7 ||| place (hdr.nonReference &&& 0x01) 5 |||
    place (hdr.startofVp8Partition &&& 0x01) 4 ||| (place hdr.startofVp8Partition 0 &&& 0x0F)

def extensionByte (hdr : Header) : UInt8 :=
  place hdr.picIdxPresent 7 ||| place (hdr.tl0PicIdxPresent &&& 0x01) 6 |||
    place (hdr.tidPresent &&& 0x01) 5 ||| place (hdr.keyIdxPresent &&& 0x01) 4

def picIdxBytes (hdr : Header) : List UInt8 :=
  if hdr.picIdxLen = 0 then [place hdr.picIdxLen 7 ||| (place hdr.picIdx 0 &&& 0x7F)]
  else [place hdr.picIdxLen 7 ||| UInt8.ofNat ((hdr.picIdx.toNat &&& 0x7FFF) >>> 8),
    UInt8.ofNat (hdr.picIdx.toNat &&& 0x00FF)]

def writePicIdx (hdr : Header) (size : ℕ) (w : Writing) : Except Stop Writing :=
  if hdr.picIdxPresent ≠ 0 then
    if hdr.picIdxLen = 0 then { w with headerSize := 3 }.put size 1 (picIdxBytes hdr)
    else { w with headerSize := 4 }.put size 2 (picIdxBytes hdr)
  else .ok w

def writeTl0PicIdx (hdr : Header) (size : ℕ) (w : Writing) : Except Stop Writing :=
  if hdr.tl0PicIdxPresent ≠ 0 then w.put size 1 [hdr.tl0PicIdx] else .ok w

def keyIdxByte (hdr : Header) : UInt8 :=
  place hdr.tid 6 ||| place (hdr.layer &&& 0x01) 5 ||| (place hdr.keyIdx 0 &&& 0x0F)

def writeKeyIdx (hdr : Header) (size : ℕ) (w : Writing) : Except Stop Writing :=
  if hdr.keyIdxPresent ≠ 0 then w.put size 0 [keyIdxByte hdr] else .ok w

/-- `v0`, `v1` and `v2`. -/
def payloadHeaderBytes (hdr : Header) : List UInt8 :=
  let n := hdr.firstPartitionSize.toNat
  [place hdr.h 4 ||| place hdr.version 1 ||| place hdr.p 0 |||
      UInt8.ofNat ((n &&& 0x00070000) >>> 11),
    UInt8.ofNat ((n &&& 0x0000FF00) >>> 8), UInt8.ofNat (n &&& 0x000000FF)]

/-- `vp8_header_serialize` into a buffer of `size` zeros. The branch with the
extension leaves out `v0`. -/
def headerSerialize (hdr : Header) (size : ℕ) : Except Stop Writing := do
  let w ← { headerSize := 1, bytes := [] : Writing }.put size 1 [firstByte hdr]
  if hdr.extendedPresent = 0 then
    if hdr.startofVp8Partition = 1 then w.put size 3 (payloadHeaderBytes hdr) else .ok w
  else
    let w ← { w with headerSize := 2 }.put size 0 [extensionByte hdr]
    let w ← writePicIdx hdr size w
    let w ← writeTl0PicIdx hdr size w
    let w ← writeKeyIdx hdr size w
    if hdr.startofVp8Partition = 1 then w.put size 3 (payloadHeaderBytes hdr).tail else .ok w

/-! ### What is written -/

theorem Writing.put_eq_ok {w w' : Writing} {size need : ℕ} {bytes : List UInt8}
    (h : w.put size need bytes = .ok w') : w' = { w with bytes := w.bytes ++ bytes } := by
  unfold Writing.put at h
  split_ifs at h
  exact (Except.ok.inj h).symm

theorem bind_eq_ok {ε α β : Type} {x : Except ε α} {f : α → Except ε β} {b : β}
    (h : x >>= f = .ok b) : ∃ a, x = .ok a ∧ f a = .ok b := by
  cases x with
  | error e => cases h
  | ok a => exact ⟨a, rfl, h⟩

def picIdxPart (hdr : Header) : List UInt8 := if hdr.picIdxPresent ≠ 0 then picIdxBytes hdr else []

def tl0PicIdxPart (hdr : Header) : List UInt8 :=
  if hdr.tl0PicIdxPresent ≠ 0 then [hdr.tl0PicIdx] else []

def keyIdxPart (hdr : Header) : List UInt8 :=
  if hdr.keyIdxPresent ≠ 0 then [keyIdxByte hdr] else []

/-- The bytes before the payload header. -/
def descriptor (hdr : Header) : List UInt8 :=
  firstByte hdr :: if hdr.extendedPresent = 0 then []
    else extensionByte hdr :: (picIdxPart hdr ++ (tl0PicIdxPart hdr ++ keyIdxPart hdr))

/-- What is written of the payload header. -/
def payloadPart (hdr : Header) : List UInt8 :=
  if hdr.startofVp8Partition = 1 then
    if hdr.extendedPresent = 0 then payloadHeaderBytes hdr else (payloadHeaderBytes hdr).tail
  else []

/-- `*header_size` behind the picture id; no later byte is counted. -/
def countedSize (hdr : Header) : ℕ :=
  if hdr.extendedPresent = 0 then 1
  else if hdr.picIdxPresent = 0 then 2
  else if hdr.picIdxLen = 0 then 3
  else 4

theorem writePicIdx_eq {hdr : Header} {size : ℕ} {w w' : Writing}
    (h : writePicIdx hdr size w = .ok w') :
    w'.bytes = w.bytes ++ picIdxPart hdr ∧
      w'.headerSize = if hdr.picIdxPresent = 0 then w.headerSize
        else if hdr.picIdxLen = 0 then 3 else 4 := by
  unfold writePicIdx at h
  unfold picIdxPart
  by_cases hI : hdr.picIdxPresent = 0
  · rw [if_neg (not_not_intro hI)] at h ⊢
    rw [if_pos hI]
    cases h
    exact ⟨(List.append_nil _).symm, rfl⟩
  · rw [if_pos hI] at h ⊢
    rw [if_neg hI]
    split_ifs at h ⊢ with hM
    · rw [Writing.put_eq_ok h]; exact ⟨rfl, rfl⟩
    · rw [Writing.put_eq_ok h]; exact ⟨rfl, rfl⟩

theorem writeTl0PicIdx_eq {hdr : Header} {size : ℕ} {w w' : Writing}
    (h : writeTl0PicIdx hdr size w = .ok w') :
    w' = { w with bytes := w.bytes ++ tl0PicIdxPart hdr } := by
  unfold writeTl0PicIdx at h
  unfold tl0PicIdxPart
  split_ifs at h ⊢ with hL
  · exact Writing.put_eq_ok h
  · cases h; rw [List.append_nil]

theorem writeKeyIdx_eq {hdr : Header} {size : ℕ} {w w' : Writing}
    (h : writeKeyIdx hdr size w = .ok w') :
    w' = { w with bytes := w.bytes ++ keyIdxPart hdr } := by
  unfold writeKeyIdx at h
  unfold keyIdxPart
  split_ifs at h ⊢ with hK
  · exact Writing.put_eq_ok h
  · cases h; rw [List.append_nil]

theorem headerSerialize_eq {hdr : Header} {size : ℕ} {w : Writing}
    (h : headerSerialize hdr size = .ok w) :
    w = ⟨countedSize hdr, descriptor hdr ++ payloadPart hdr⟩ := by
  obtain ⟨w₁, h₁, h⟩ := bind_eq_ok h
  obtain rfl := Writing.put_eq_ok h₁
  by_cases hX : hdr.extendedPresent = 0
  · rw [if_pos hX] at h
    simp only [countedSize, descriptor, payloadPart, if_pos hX]
    split_ifs at h ⊢ with hS
    · exact Writing.put_eq_ok h
    · cases h; rfl
  rw [if_neg hX] at h
  obtain ⟨w₂, h₂, h⟩ := bind_eq_ok h
  obtain rfl := Writing.put_eq_ok h₂
  obtain ⟨w₃, h₃, h⟩ := bind_eq_ok h
  obtain ⟨hb, hsize⟩ := writePicIdx_eq h₃
  obtain ⟨w₄, h₄, h⟩ := bind_eq_ok h
  obtain rfl := writeTl0PicIdx_eq h₄
  obtain ⟨w₅, h₅, h⟩ := bind_eq_ok h
  obtain rfl := writeKeyIdx_eq h₅
  simp only [countedSize, descriptor, payloadPart, if_neg hX, ← hsize]
  split_ifs at h ⊢ with hS
  · rw [Writing.put_eq_ok h]
    simp [hb]
  · cases h
    simp [hb]

/-! ### What comes back -/

theorem bit_eq (b : BitVec 1) : b = 0 ∨ b = 1 := by revert b; decide

/-- A header as it comes back from the bytes. -/
def survives (hdr : Header) : Header :=
  let first : Header := {
    extendedPresent := hdr.extendedPresent
    nonReference := hdr.nonReference
    startofVp8Partition := hdr.startofVp8Partition
    partIndex := hdr.startofVp8Partition.setWidth 4 }
  if hdr.extendedPresent = 0 then first
  else { first with
    picIdxPresent := hdr.picIdxPresent
    tl0PicIdxPresent := hdr.tl0PicIdxPresent
    tidPresent := hdr.tidPresent
    keyIdxPresent := hdr.keyIdxPresent
    picIdxLen := if hdr.picIdxPresent = 0 then 0 else hdr.picIdxLen
    picIdx := if hdr.picIdxPresent = 0 then 0
      else if hdr.picIdxLen = 0 then hdr.picIdx &&& 0x7F else hdr.picIdx
    tl0PicIdx := if hdr.tl0PicIdxPresent = 0 then 0 else hdr.tl0PicIdx
    tid := if hdr.keyIdxPresent = 0 then 0 else hdr.tid
    layer := if hdr.keyIdxPresent = 0 then 0 else hdr.layer
    keyIdx := if hdr.keyIdxPresent = 0 then 0 else hdr.keyIdx &&& 0x0F }

theorem readFirstByte_firstByte (hdr : Header) :
    readFirstByte (firstByte hdr) = {
      extendedPresent := hdr.extendedPresent
      nonReference := hdr.nonReference
      startofVp8Partition := hdr.startofVp8Partition
      partIndex := hdr.startofVp8Partition.setWidth 4 } := by
  have h : ∀ x n s : BitVec 1,
      readFirstByte (place x 7 ||| place (n &&& 0x01) 5 ||| place (s &&& 0x01) 4 |||
        (place s 0 &&& 0x0F)) = {
          extendedPresent := x, nonReference := n, startofVp8Partition := s,
          partIndex := s.setWidth 4 } := by decide
  exact h _ _ _

theorem readExtension_extensionByte (hdr : Header) (r : Reading) (rest : List UInt8)
    (hr : r.rest = extensionByte hdr :: rest) :
    readExtension r = .ok { r with
      hdr := { r.hdr with
        picIdxPresent := hdr.picIdxPresent
        tl0PicIdxPresent := hdr.tl0PicIdxPresent
        tidPresent := hdr.tidPresent
        keyIdxPresent := hdr.keyIdxPresent
        reserved2 := 0 }
      headerSize := 2
      pos := r.pos + 1
      rest } := by
  have h : ∀ i l t k : BitVec 1,
      let v := place i 7 ||| place (l &&& 0x01) 6 ||| place (t &&& 0x01) 5 ||| place (k &&& 0x01) 4
      field 1 v 0x80 7 = i ∧ field 1 v 0x40 6 = l ∧ field 1 v 0x20 5 = t ∧ field 1 v 0x10 4 = k ∧
        field 4 v 0x0F 0 = 0 := by decide
  obtain ⟨hi, hl, ht, hk, hrsv⟩ :=
    h hdr.picIdxPresent hdr.tl0PicIdxPresent hdr.tidPresent hdr.keyIdxPresent
  simp only [readExtension, hr, extensionByte, hi, hl, ht, hk, hrsv]

theorem shortPicIdx (b : UInt8) :
    field 1 (place (0 : BitVec 1) 7 ||| (b &&& 0x7F)) 0x80 7 = 0 ∧
      field 15 (place (0 : BitVec 1) 7 ||| (b &&& 0x7F)) 0x7F 0 =
        BitVec.ofNat 15 b.toNat &&& 0x7F := by
  revert b; exact Library.forall_uint8 (by decide +kernel)

theorem longPicIdx (b : UInt8) (h : b.toNat < 128) :
    field 1 (place (1 : BitVec 1) 7 ||| b) 0x80 7 = 1 ∧
      (place (1 : BitVec 1) 7 ||| b) &&& 0x7F = b := by
  revert b; exact Library.forall_uint8 (by decide +kernel)

theorem low_picIdx (x : BitVec 15) : BitVec.ofNat 15 (place x 0).toNat &&& 0x7F = x &&& 0x7F := by
  apply BitVec.eq_of_toNat_eq
  have h127 : (0x7F : BitVec 15).toNat = 2 ^ 7 - 1 := rfl
  simp only [place, BitVec.toNat_and, BitVec.toNat_ofNat, UInt8.toNat_ofNat', Nat.shiftLeft_zero,
    h127, Nat.and_two_pow_sub_one_eq_mod]
  omega

theorem high_picIdx_lt (x : BitVec 15) :
    (UInt8.ofNat ((x.toNat &&& 0x7FFF) >>> 8)).toNat < 128 := by
  have hmask : x.toNat &&& 0x7FFF = x.toNat % 2 ^ 15 := Nat.and_two_pow_sub_one_eq_mod _ 15
  rw [hmask, UInt8.toNat_ofNat', Nat.shiftRight_eq_div_pow]
  omega

theorem join_picIdx (x : BitVec 15) :
    BitVec.ofNat 15 ((UInt8.ofNat ((x.toNat &&& 0x7FFF) >>> 8)).toNat <<< 8 |||
      (UInt8.ofNat (x.toNat &&& 0x00FF)).toNat) = x := by
  apply BitVec.eq_of_toNat_eq
  have hx := x.isLt
  have hhigh : x.toNat &&& 0x7FFF = x.toNat % 2 ^ 15 := Nat.and_two_pow_sub_one_eq_mod _ 15
  have hlow : x.toNat &&& 0x00FF = x.toNat % 2 ^ 8 := Nat.and_two_pow_sub_one_eq_mod _ 8
  rw [hhigh, hlow, UInt8.toNat_ofNat', UInt8.toNat_ofNat', Nat.shiftRight_eq_div_pow,
    ← Nat.shiftLeft_add_eq_or_of_lt (Nat.mod_lt _ (by norm_num)), Nat.shiftLeft_eq,
    BitVec.toNat_ofNat]
  omega

theorem readPicIdx_picIdxPart (hdr : Header) {r : Reading} {rest : List UInt8}
    (hI : r.hdr.picIdxPresent = hdr.picIdxPresent) (hM : r.hdr.picIdxLen = 0)
    (hpic : r.hdr.picIdx = 0) (hr : r.rest = picIdxPart hdr ++ rest) :
    readPicIdx r = .ok {
      hdr := { r.hdr with
        picIdxLen := if hdr.picIdxPresent = 0 then 0 else hdr.picIdxLen
        picIdx := if hdr.picIdxPresent = 0 then 0
          else if hdr.picIdxLen = 0 then hdr.picIdx &&& 0x7F else hdr.picIdx }
      headerSize := if hdr.picIdxPresent = 0 then r.headerSize
        else if hdr.picIdxLen = 0 then 3 else 4
      pos := r.pos + (picIdxPart hdr).length
      rest } := by
  unfold readPicIdx picIdxPart at *
  by_cases hI0 : hdr.picIdxPresent = 0
  · simp only [hI, hI0, ne_eq, not_true_eq_false, if_false, if_true, List.nil_append] at hr ⊢
    rcases r with ⟨⟨⟩, size, pos, tail⟩
    simp_all
  simp only [hI, hI0, ne_eq, not_false_eq_true, if_true, if_false, picIdxBytes] at hr ⊢
  rcases bit_eq hdr.picIdxLen with h0 | h1
  · obtain ⟨hlen, hval⟩ := shortPicIdx (place hdr.picIdx 0)
    simp only [h0, if_true, List.cons_append, List.nil_append] at hr ⊢
    simp only [hr, hlen, hval, low_picIdx, if_true, List.length_singleton]
  · obtain ⟨hlen, hval⟩ := longPicIdx _ (high_picIdx_lt hdr.picIdx)
    simp only [h1, if_neg (show ¬ (1 : BitVec 1) = 0 by decide), List.cons_append,
      List.nil_append] at hr ⊢
    simp only [hr, hlen, hval, join_picIdx, if_neg (show ¬ (1 : BitVec 1) = 0 by decide),
      List.length_cons, List.length_nil, Nat.zero_add, Nat.reduceAdd]

theorem readTl0PicIdx_tl0PicIdxPart (hdr : Header) {r : Reading} {rest : List UInt8}
    (hL : r.hdr.tl0PicIdxPresent = hdr.tl0PicIdxPresent) (h0 : r.hdr.tl0PicIdx = 0)
    (hr : r.rest = tl0PicIdxPart hdr ++ rest) :
    readTl0PicIdx r = .ok { r with
      hdr := { r.hdr with tl0PicIdx := if hdr.tl0PicIdxPresent = 0 then 0 else hdr.tl0PicIdx }
      pos := r.pos + (tl0PicIdxPart hdr).length
      rest } := by
  unfold readTl0PicIdx tl0PicIdxPart at *
  by_cases hL0 : hdr.tl0PicIdxPresent = 0
  · simp only [hL, hL0, ne_eq, not_true_eq_false, if_false, if_true, List.nil_append] at hr ⊢
    rcases r with ⟨⟨⟩, size, pos, tail⟩
    simp_all
  · simp only [hL, hL0, ne_eq, not_false_eq_true, if_true, if_false, List.cons_append,
      List.nil_append] at hr ⊢
    simp only [hr, List.length_singleton]

theorem readKeyIdx_keyIdxPart (hdr : Header) {r : Reading} {rest : List UInt8}
    (hK : r.hdr.keyIdxPresent = hdr.keyIdxPresent) (htid : r.hdr.tid = 0)
    (hlayer : r.hdr.layer = 0) (hkey : r.hdr.keyIdx = 0)
    (hr : r.rest = keyIdxPart hdr ++ rest) :
    readKeyIdx r = .ok { r with
      hdr := { r.hdr with
        tid := if hdr.keyIdxPresent = 0 then 0 else hdr.tid
        layer := if hdr.keyIdxPresent = 0 then 0 else hdr.layer
        keyIdx := if hdr.keyIdxPresent = 0 then 0 else hdr.keyIdx &&& 0x0F }
      pos := r.pos + (keyIdxPart hdr).length
      rest } := by
  unfold readKeyIdx keyIdxPart at *
  by_cases hK0 : hdr.keyIdxPresent = 0
  · simp only [hK, hK0, ne_eq, not_true_eq_false, if_false, if_true, List.nil_append] at hr ⊢
    rcases r with ⟨⟨⟩, size, pos, tail⟩
    simp_all
  · have h : ∀ (t : BitVec 2) (y : BitVec 1) (k : BitVec 5),
        let v := place t 6 ||| place (y &&& 0x01) 5 ||| (place k 0 &&& 0x0F)
        field 2 v 0xC0 6 = t ∧ field 1 v 0x20 5 = y ∧ field 5 v 0x1F 0 = k &&& 0x0F := by
      decide +kernel
    obtain ⟨ht, hy, hk⟩ := h hdr.tid hdr.layer hdr.keyIdx
    simp only [hK, hK0, ne_eq, not_false_eq_true, if_true, if_false, List.cons_append,
      List.nil_append] at hr ⊢
    simp only [hr, keyIdxByte, ht, hy, hk, List.length_singleton]

theorem readPayloadHeader_of_startbit {r : Reading}
    (h : r.hdr.partIndex = r.hdr.startofVp8Partition.setWidth 4) : readPayloadHeader r = .ok r := by
  refine if_neg fun hS => ?_
  rw [h, hS.1] at hS
  exact absurd hS.2 (by decide)

/-- Everything before the payload header is read where it was written. The start
bit is also read as the partition index, so no payload header is looked for. -/
theorem headerDeserialize_written (hdr : Header) (headerSize : ℕ) :
    headerDeserialize headerSize (descriptor hdr ++ payloadPart hdr) =
      .ok ⟨survives hdr, countedSize hdr, (descriptor hdr).length, payloadPart hdr⟩ := by
  unfold headerDeserialize descriptor
  simp only [List.cons_append, readFirstByte_firstByte]
  by_cases hX : hdr.extendedPresent = 0
  · simp only [hX, if_true, List.nil_append, List.length_singleton]
    rw [readPayloadHeader_of_startbit rfl]
    simp only [survives, countedSize, hX, if_true]
  simp only [hX, if_false, List.cons_append, List.append_assoc]
  rw [readExtension_extensionByte hdr _ _ rfl]
  simp only [bind, Except.bind]
  rw [readPicIdx_picIdxPart hdr rfl rfl rfl rfl]
  simp only
  rw [readTl0PicIdx_tl0PicIdxPart hdr rfl rfl rfl]
  simp only
  rw [readKeyIdx_keyIdxPart hdr rfl rfl rfl rfl rfl]
  simp only
  rw [readPayloadHeader_of_startbit rfl]
  simp only [survives, countedSize, hX, if_false, List.length_cons, List.length_append,
    Except.ok.injEq, Reading.mk.injEq, true_and, and_true]
  omega

/-! ### When the codec is right -/

/-- The descriptor bytes of RFC 7741. -/
def descriptorSize (hdr : Header) : ℕ :=
  1 + if hdr.extendedPresent = 0 then 0
    else 1 + (if hdr.picIdxPresent = 0 then 0 else if hdr.picIdxLen = 0 then 1 else 2) +
      (if hdr.tl0PicIdxPresent = 0 then 0 else 1) +
      if hdr.tidPresent = 0 ∧ hdr.keyIdxPresent = 0 then 0 else 1

/-- The reserved bits are zero, and so is every field whose byte is absent. -/
structure Canonical (hdr : Header) : Prop where
  reserved : hdr.reserved = 0 ∧ hdr.reserved2 = 0
  extension : hdr.extendedPresent = 0 → hdr.picIdxPresent = 0 ∧ hdr.tl0PicIdxPresent = 0 ∧
    hdr.tidPresent = 0 ∧ hdr.keyIdxPresent = 0
  picIdx : hdr.picIdxPresent = 0 → hdr.picIdxLen = 0 ∧ hdr.picIdx = 0
  shortPicIdx : hdr.picIdxLen = 0 → hdr.picIdx.toNat < 128
  tl0PicIdx : hdr.tl0PicIdxPresent = 0 → hdr.tl0PicIdx = 0
  keyIdx : hdr.tidPresent = 0 → hdr.keyIdxPresent = 0 →
    hdr.tid = 0 ∧ hdr.layer = 0 ∧ hdr.keyIdx = 0
  payloadHeader : ¬ (hdr.startofVp8Partition = 1 ∧ hdr.partIndex = 0) →
    hdr.h = 0 ∧ hdr.version = 0 ∧ hdr.p = 0 ∧ hdr.firstPartitionSize = 0

/-- No start bit and no partition index; a key index of four bits, and the
temporal fields only where the key index is present. -/
structure Survives (hdr : Header) : Prop where
  canonical : Canonical hdr
  startofVp8Partition : hdr.startofVp8Partition = 0
  partIndex : hdr.partIndex = 0
  keyIdx : hdr.keyIdx.toNat < 16
  absent : hdr.keyIdxPresent = 0 → hdr.tid = 0 ∧ hdr.layer = 0 ∧ hdr.keyIdx = 0

theorem and_mask_eq_self {w : ℕ} (x m : BitVec w) (k : ℕ) (hm : m.toNat = 2 ^ k - 1) :
    x &&& m = x ↔ x.toNat < 2 ^ k := by
  rw [← BitVec.toNat_inj, BitVec.toNat_and, hm, Nat.and_two_pow_sub_one_eq_mod]
  exact Nat.mod_eq_iff_lt (Nat.two_pow_pos k).ne'

theorem survives_of (hdr : Header) (h : Survives hdr) : survives hdr = hdr := by
  have hshort := (and_mask_eq_self hdr.picIdx 0x7F 7 rfl).mpr
  have hmask := (and_mask_eq_self hdr.keyIdx 0x0F 4 rfl).mpr h.keyIdx
  obtain ⟨⟨hreserved, hX, hI, hM, hL, -, hpayload⟩, hS, hpid, -, hK⟩ := h
  have hpayload := hpayload (by simp [hS])
  rcases hdr with ⟨X, reserved, N, S, pid, I, L, T, K, reserved2, M, pic, tl0, tid, layer, key⟩
  dsimp only at *
  obtain ⟨rfl, rfl⟩ := hreserved
  obtain ⟨rfl, rfl, rfl, rfl⟩ := hpayload
  subst hS hpid
  by_cases hX0 : X = 0
  · obtain ⟨rfl, rfl, rfl, rfl⟩ := hX hX0
    obtain ⟨rfl, rfl⟩ := hI rfl
    obtain ⟨rfl, rfl, rfl⟩ := hK rfl
    obtain rfl := hL rfl
    rw [survives, if_pos hX0]
    rfl
  · have hlen : (if I = 0 then 0 else M) = M := by
      split_ifs with hI0
      · exact (hI hI0).1.symm
      · rfl
    have hidx : (if I = 0 then 0 else if M = 0 then pic &&& 0x7F else pic) = pic := by
      split_ifs with hI0 hM0
      · exact (hI hI0).2.symm
      · exact hshort (hM hM0)
      · rfl
    have htl0 : (if L = 0 then 0 else tl0) = tl0 := by
      split_ifs with hL0
      · exact (hL hL0).symm
      · rfl
    have htid : (if K = 0 then 0 else tid) = tid := by
      split_ifs with hK0
      · exact (hK hK0).1.symm
      · rfl
    have hlayer : (if K = 0 then 0 else layer) = layer := by
      split_ifs with hK0
      · exact (hK hK0).2.1.symm
      · rfl
    have hkey : (if K = 0 then 0 else key &&& 0x0F) = key := by
      split_ifs with hK0
      · exact (hK hK0).2.2.symm
      · exact hmask
    simp only [survives, hX0, if_false, hlen, hidx, htl0, htid, hlayer, hkey]
    rfl

theorem survives_imp {hdr : Header} (h : survives hdr = hdr) (hS : hdr.startofVp8Partition = 0) :
    Survives hdr := by
  have hpic := (and_mask_eq_self hdr.picIdx 0x7F 7 rfl).mp
  have hkey := (and_mask_eq_self hdr.keyIdx 0x0F 4 rfl).mp
  rcases hdr with ⟨X, reserved, N, S, pid, I, L, T, K, reserved2, M, pic, tl0, tid, layer, key⟩
  simp only at hS hpic hkey
  subst hS
  by_cases hX : X = 0
  · simp only [survives, hX, if_true, Header.mk.injEq] at h
    obtain ⟨-, rfl, -, -, rfl, rfl, rfl, rfl, rfl, rfl, rfl, rfl, rfl, rfl, rfl, rfl, rfl, rfl, rfl,
      rfl⟩ := h
    exact ⟨⟨⟨rfl, rfl⟩, fun _ => ⟨rfl, rfl, rfl, rfl⟩, fun _ => ⟨rfl, rfl⟩, fun _ => by simp,
      fun _ => rfl, fun _ _ => ⟨rfl, rfl, rfl⟩, fun _ => ⟨rfl, rfl, rfl, rfl⟩⟩, rfl, rfl, by simp,
      fun _ => ⟨rfl, rfl, rfl⟩⟩
  · simp only [survives, hX, if_false, Header.mk.injEq, true_and] at h
    obtain ⟨rfl, rfl, rfl, hM, hpicEq, htl0, htid, hlayer, hkeyEq, rfl, rfl, rfl, rfl⟩ := h
    have habsent : K = 0 → tid = 0 ∧ layer = 0 ∧ key = 0 := by
      intro hK
      rw [if_pos hK] at htid hlayer hkeyEq
      exact ⟨htid.symm, hlayer.symm, hkeyEq.symm⟩
    refine ⟨⟨⟨rfl, rfl⟩, fun h0 => absurd h0 hX, ?_, ?_, ?_, fun _ => habsent, fun _ => ?_⟩, rfl,
      rfl, ?_, habsent⟩
    · intro hI
      rw [if_pos hI] at hM hpicEq
      exact ⟨hM.symm, hpicEq.symm⟩
    · intro hM0
      by_cases hI : I = 0
      · rw [if_pos hI] at hpicEq
        rw [← hpicEq]
        exact show (0 : BitVec 15).toNat < 128 by decide
      · rw [if_neg hI, if_pos hM0] at hpicEq
        exact hpic hpicEq
    · intro hL
      rw [if_pos hL] at htl0
      exact htl0.symm
    · exact ⟨rfl, rfl, rfl, rfl⟩
    · by_cases hK : K = 0
      · rw [(habsent hK).2.2]
        exact show (0 : BitVec 5).toNat < 16 by decide
      · rw [if_neg hK] at hkeyEq
        exact hkey hkeyEq

theorem readBack_iff (hdr : Header) (headerSize : ℕ) :
    (∃ r, headerDeserialize headerSize (descriptor hdr ++ payloadPart hdr) = .ok r ∧
      r.hdr = hdr ∧ r.pos = (descriptor hdr ++ payloadPart hdr).length) ↔ Survives hdr := by
  rw [headerDeserialize_written]
  constructor
  · rintro ⟨r, ⟨⟩, hhdr, hpos⟩
    refine survives_imp hhdr ?_
    rcases bit_eq hdr.startofVp8Partition with h0 | h1
    · exact h0
    · have hpart : payloadPart hdr = [] := by simpa using hpos
      rw [payloadPart, if_pos h1] at hpart
      split_ifs at hpart <;> simp [payloadHeaderBytes] at hpart
  · intro h
    have hpart : payloadPart hdr = [] := by
      rw [payloadPart, if_neg (by rw [h.startofVp8Partition]; decide)]
    exact ⟨_, rfl, survives_of hdr h, by rw [hpart, List.append_nil]⟩

/-- Neither function counts the bytes behind the picture id. -/
theorem countedSize_iff (hdr : Header) :
    countedSize hdr = descriptorSize hdr ↔ (hdr.extendedPresent = 1 →
      hdr.tl0PicIdxPresent = 0 ∧ hdr.tidPresent = 0 ∧ hdr.keyIdxPresent = 0) := by
  unfold countedSize descriptorSize
  rcases bit_eq hdr.extendedPresent with hX | hX
  · simp [hX]
  have h10 : ¬ (1 : BitVec 1) = 0 := by decide
  have hpic : (if hdr.picIdxPresent = 0 then 2 else if hdr.picIdxLen = 0 then 3 else 4) =
      2 + if hdr.picIdxPresent = 0 then 0 else if hdr.picIdxLen = 0 then 1 else 2 := by
    split_ifs <;> rfl
  simp only [hX, h10, if_false, true_implies, hpic]
  by_cases hL : hdr.tl0PicIdxPresent = 0
  · by_cases hT : hdr.tidPresent = 0 ∧ hdr.keyIdxPresent = 0
    · simp only [hL, hT, and_self, if_true, iff_true]
      omega
    · simp only [hL, hT, and_false, if_true, if_false, iff_false]
      omega
  · simp only [hL, false_and, if_false, iff_false]
    omega

/-! ### `*header_size` of any input -/

theorem readPicIdx_eq_ok {r r' : Reading} (h : readPicIdx r = .ok r') :
    ∃ len idx, r'.hdr = { r.hdr with picIdxLen := len, picIdx := idx } ∧
      r'.headerSize =
        if r.hdr.picIdxPresent = 0 then r.headerSize else if len = 0 then 3 else 4 := by
  unfold readPicIdx at h
  by_cases hI : r.hdr.picIdxPresent = 0
  · rw [if_neg (not_not_intro hI)] at h
    cases h
    exact ⟨r.hdr.picIdxLen, r.hdr.picIdx, rfl, (if_pos hI).symm⟩
  rw [if_pos hI] at h
  split at h
  · cases h
  dsimp only at h
  split_ifs at h with h0
  · cases h
    exact ⟨_, _, rfl, by rw [if_neg hI, if_pos h0]⟩
  · split at h
    · cases h
    · cases h
      exact ⟨_, _, rfl, by rw [if_neg hI, if_neg h0]⟩

theorem readTl0PicIdx_eq_ok {r r' : Reading} (h : readTl0PicIdx r = .ok r') :
    (∃ idx, r'.hdr = { r.hdr with tl0PicIdx := idx }) ∧ r'.headerSize = r.headerSize := by
  unfold readTl0PicIdx at h
  split_ifs at h
  · split at h
    · cases h
    · cases h; exact ⟨⟨_, rfl⟩, rfl⟩
  · cases h; exact ⟨⟨_, rfl⟩, rfl⟩

theorem readKeyIdx_eq_ok {r r' : Reading} (h : readKeyIdx r = .ok r') :
    (∃ tid layer keyIdx, r'.hdr = { r.hdr with tid, layer, keyIdx }) ∧
      r'.headerSize = r.headerSize := by
  unfold readKeyIdx at h
  split_ifs at h
  · split at h
    · cases h
    · cases h; exact ⟨⟨_, _, _, rfl⟩, rfl⟩
  · cases h; exact ⟨⟨_, _, _, rfl⟩, rfl⟩

theorem readPayloadHeader_eq_ok {r r' : Reading} (h : readPayloadHeader r = .ok r') :
    (∃ h version p firstPartitionSize, r'.hdr = { r.hdr with h, version, p, firstPartitionSize }) ∧
      r'.headerSize = r.headerSize := by
  unfold readPayloadHeader at h
  split_ifs at h
  · split at h
    · cases h; exact ⟨⟨_, _, _, _, rfl⟩, rfl⟩
    · cases h
  · cases h; exact ⟨⟨_, _, _, _, rfl⟩, rfl⟩

/-- The extension byte has no bit for a part behind the picture id. -/
def CountedWhole : List UInt8 → Prop
  | v :: x :: _ => v &&& 0x80 = 0 ∨ x &&& 0x70 = 0
  | _ => True

theorem field_eq_zero (v : UInt8) :
    (field 1 v 0x80 7 = 0 ↔ v &&& 0x80 = 0) ∧
      (field 1 v 0x40 6 = 0 ∧ field 1 v 0x20 5 = 0 ∧ field 1 v 0x10 4 = 0 ↔ v &&& 0x70 = 0) := by
  revert v; exact Library.forall_uint8 (by decide +kernel)

theorem headerDeserialize_size_iff {headerSize : ℕ} {buffer : List UInt8} {r : Reading}
    (h : headerDeserialize headerSize buffer = .ok r) :
    r.headerSize = descriptorSize r.hdr ↔ CountedWhole buffer := by
  rcases buffer with _ | ⟨v, rest⟩
  · cases h
  unfold headerDeserialize at h
  by_cases hX : (readFirstByte v).extendedPresent = 0
  · have hv : v &&& 0x80 = 0 := (field_eq_zero v).1.mp hX
    simp only [hX, if_true] at h
    obtain ⟨⟨_, _, _, _, hhdr⟩, hsize⟩ := readPayloadHeader_eq_ok h
    have hwhole : CountedWhole (v :: rest) := by
      cases rest with
      | nil => trivial
      | cons x rest => exact .inl hv
    simp only [hsize, hhdr, descriptorSize, hX, if_true, hwhole]
  have hv : ¬ v &&& 0x80 = 0 := fun h0 => hX ((field_eq_zero v).1.mpr h0)
  simp only [hX, if_false] at h
  obtain ⟨r₁, h₁, h⟩ := bind_eq_ok h
  rcases rest with _ | ⟨x, rest⟩
  · cases h₁
  cases h₁
  obtain ⟨r₂, h₂, h⟩ := bind_eq_ok h
  obtain ⟨_, _, hhdr₂, hsize₂⟩ := readPicIdx_eq_ok h₂
  obtain ⟨r₃, h₃, h⟩ := bind_eq_ok h
  obtain ⟨⟨_, hhdr₃⟩, hsize₃⟩ := readTl0PicIdx_eq_ok h₃
  obtain ⟨r₄, h₄, h⟩ := bind_eq_ok h
  obtain ⟨⟨_, _, _, hhdr₄⟩, hsize₄⟩ := readKeyIdx_eq_ok h₄
  obtain ⟨⟨_, _, _, _, hhdr⟩, hsize⟩ := readPayloadHeader_eq_ok h
  have hcounted : r.headerSize = countedSize r.hdr := by
    rw [hsize, hsize₄, hsize₃, hsize₂, hhdr, hhdr₄, hhdr₃, hhdr₂]
    simp only [countedSize, hX, if_false]
  have hX1 : (readFirstByte v).extendedPresent = 1 := (bit_eq _).resolve_left hX
  rw [hcounted, countedSize_iff, hhdr, hhdr₄, hhdr₃, hhdr₂]
  simp only [hX1, true_implies, CountedWhole, hv, false_or]
  exact (field_eq_zero x).2

/-- The written bytes are read back as the header, and the reader goes as far as
the writer, exactly for the headers with `Survives`; `*header_size` is the number
of descriptor bytes exactly where no part follows the picture id. -/
theorem header_codec_iff (hdr : Header) (size headerSize : ℕ) (w : Writing)
    (hw : headerSerialize hdr size = .ok w) :
    ((∃ r, headerDeserialize headerSize w.bytes = .ok r ∧ r.hdr = hdr ∧ r.pos = w.bytes.length) ↔
        Survives hdr) ∧
      (w.headerSize = descriptorSize hdr ↔ (hdr.extendedPresent = 1 →
        hdr.tl0PicIdxPresent = 0 ∧ hdr.tidPresent = 0 ∧ hdr.keyIdxPresent = 0)) ∧
      ∀ buffer r, headerDeserialize headerSize buffer = .ok r →
        (r.headerSize = descriptorSize r.hdr ↔ CountedWhole buffer) := by
  rw [headerSerialize_eq hw]
  exact ⟨readBack_iff hdr headerSize, countedSize_iff hdr,
    fun _ _ h => headerDeserialize_size_iff h⟩

/-- A picture id of fifteen bits. -/
theorem header_codec_longPicIdx :
    let hdr : Header := { extendedPresent := 1, picIdxPresent := 1, picIdxLen := 1, picIdx := 300 }
    let w : Writing := ⟨4, [0x80, 0x80, 0x81, 0x2C]⟩
    headerSerialize hdr 9 = .ok w ∧
      ((∃ r, headerDeserialize 0 w.bytes = .ok r ∧ r.hdr = hdr ∧ r.pos = w.bytes.length) ↔
        Survives hdr) ∧
      (w.headerSize = descriptorSize hdr ↔ (hdr.extendedPresent = 1 →
        hdr.tl0PicIdxPresent = 0 ∧ hdr.tidPresent = 0 ∧ hdr.keyIdxPresent = 0)) ∧
      ∀ buffer r, headerDeserialize 0 buffer = .ok r →
        (r.headerSize = descriptorSize r.hdr ↔ CountedWhole buffer) :=
  ⟨by decide, header_codec_iff _ 9 0 _ (by decide)⟩

/-- The start of a partition comes back with partition index one and without its
payload header, and a temporal index is not counted. -/
theorem header_codec_loses :
    let start : Header := { startofVp8Partition := 1, firstPartitionSize := 7 }
    let temporal : Header := { extendedPresent := 1, tl0PicIdxPresent := 1, tl0PicIdx := 5 }
    Canonical start ∧ Canonical temporal ∧
      headerSerialize start 9 = .ok ⟨1, [0x11, 0, 0, 7]⟩ ∧
      headerDeserialize 0 [0x11, 0, 0, 7] =
        .ok ⟨{ startofVp8Partition := 1, partIndex := 1 }, 1, 1, [0, 0, 7]⟩ ∧
      headerSerialize temporal 9 = .ok ⟨2, [0x80, 0x40, 5]⟩ ∧
      headerDeserialize 0 [0x80, 0x40, 5] = .ok ⟨temporal, 2, 3, []⟩ ∧
      descriptorSize temporal = 3 := by
  refine ⟨?_, ?_, by decide, by decide, by decide, by decide, by decide⟩
  · constructor <;> decide
  · constructor <;> decide

end CxxDeps.Vp8
