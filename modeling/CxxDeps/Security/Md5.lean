import CxxDeps.Library.Rfc1321

/-! `md5.c` of `sys2/security`, on a little-endian host. -/

namespace CxxDeps.Security

open Library
open Library.Rfc1321 (Words)

/-! ### `md5_cycle` -/

/-- `ROTATE_LEFT`. -/
def rotateLeft (x n : UInt32) : UInt32 := (x <<< n) ||| (x >>> (32 - n))

/-- The lines of `md5_cycle`: the word of the block, by how many bits to rotate, and the
constant. -/
def lines : List (ℕ × UInt32 × UInt32) :=
  [(0, 7, 0xd76aa478), (1, 12, 0xe8c7b756), (2, 17, 0x242070db), (3, 22, 0xc1bdceee),
   (4, 7, 0xf57c0faf), (5, 12, 0x4787c62a), (6, 17, 0xa8304613), (7, 22, 0xfd469501),
   (8, 7, 0x698098d8), (9, 12, 0x8b44f7af), (10, 17, 0xffff5bb1), (11, 22, 0x895cd7be),
   (12, 7, 0x6b901122), (13, 12, 0xfd987193), (14, 17, 0xa679438e), (15, 22, 0x49b40821),
   (1, 5, 0xf61e2562), (6, 9, 0xc040b340), (11, 14, 0x265e5a51), (0, 20, 0xe9b6c7aa),
   (5, 5, 0xd62f105d), (10, 9, 0x02441453), (15, 14, 0xd8a1e681), (4, 20, 0xe7d3fbc8),
   (9, 5, 0x21e1cde6), (14, 9, 0xc33707d6), (3, 14, 0xf4d50d87), (8, 20, 0x455a14ed),
   (13, 5, 0xa9e3e905), (2, 9, 0xfcefa3f8), (7, 14, 0x676f02d9), (12, 20, 0x8d2a4c8a),
   (5, 4, 0xfffa3942), (8, 11, 0x8771f681), (11, 16, 0x6d9d6122), (14, 23, 0xfde5380c),
   (1, 4, 0xa4beea44), (4, 11, 0x4bdecfa9), (7, 16, 0xf6bb4b60), (10, 23, 0xbebfbc70),
   (13, 4, 0x289b7ec6), (0, 11, 0xeaa127fa), (3, 16, 0xd4ef3085), (6, 23, 0x04881d05),
   (9, 4, 0xd9d4d039), (12, 11, 0xe6db99e5), (15, 16, 0x1fa27cf8), (2, 23, 0xc4ac5665),
   (0, 6, 0xf4292244), (7, 10, 0x432aff97), (14, 15, 0xab9423a7), (5, 21, 0xfc93a039),
   (12, 6, 0x655b59c3), (3, 10, 0x8f0ccc92), (10, 15, 0xffeff47d), (1, 21, 0x85845dd1),
   (8, 6, 0x6fa87e4f), (15, 10, 0xfe2ce6e0), (6, 15, 0xa3014314), (13, 21, 0x4e0811a1),
   (4, 6, 0xf7537e82), (11, 10, 0xbd3af235), (2, 15, 0x2ad7d2bb), (9, 21, 0xeb86d391)]

/-- What `FF`, `GG`, `HH` or `II` of a line assigns to `a`. -/
def assigned (i : ℕ) (a b c d mi s ti : UInt32) : UInt32 :=
  let f :=
    if i < 16 then (b &&& c) ||| (~~~b &&& d)
    else if i < 32 then (b &&& d) ||| (c &&& ~~~d)
    else if i < 48 then b ^^^ c ^^^ d
    else c ^^^ (b ||| ~~~d)
  b + rotateLeft (a + f + mi + ti) s

/-- The line `i` of the 64. The four names go round. -/
def line (m : ℕ → UInt32) (words : Words) (i : ℕ) : Words :=
  let (k, s, ti) := lines.getD i (0, 0, 0)
  let ⟨a, b, c, d⟩ := words
  match i % 4 with
  | 0 => ⟨assigned i a b c d (m k) s ti, b, c, d⟩
  | 1 => ⟨a, b, c, assigned i d a b c (m k) s ti⟩
  | 2 => ⟨a, b, assigned i c d a b (m k) s ti, d⟩
  | _ => ⟨a, assigned i b c d a (m k) s ti, c, d⟩

def md5Cycle (mc : List UInt8) (words : Words) : Words :=
  words.add ((List.range 64).foldl (line (Rfc1321.word mc)) words)

/-! ### `md5_fill` -/

/-- `MD5_CYCLE`, with the bytes of its words. -/
structure Md5Cycle where
  m : List UInt8
  nOddOffset : ℕ := 0
  deriving DecidableEq, Repr

/-- `add_data`. -/
def addData : List UInt8 := 0x80 :: List.replicate 63 0

def md5CalcAddSize (nSize : ℕ) : ℕ :=
  let nRemainder := nSize % 64
  if nRemainder < 56 then 56 - nRemainder
  else if 56 < nRemainder then if nRemainder = 0 then 56 else 120 - nRemainder
  else 0

/-- `nBitSize` as it is copied. -/
def bitSize (nSize : ℕ) : List UInt8 :=
  let nBitSize := nSize * 8 % 2 ^ 64
  toLe32 (UInt32.ofNat nBitSize) ++ toLe32 (UInt32.ofNat (nBitSize / 2 ^ 32))

/-- `md5_fill`: the cycle, the offset behind it, and whether there is one more. -/
def md5Fill (mc : Md5Cycle) (pData : List UInt8) (nOffset : ℕ) : Md5Cycle × ℕ × Bool :=
  let nSize := pData.length
  if nOffset < nSize then
    let nFillSize := nSize - nOffset
    if 64 ≤ nFillSize then (⟨(pData.drop nOffset).take 64, 0⟩, nOffset + 64, true)
    else
      let nAddSize := md5CalcAddSize nFillSize
      let m := overwrite mc.m (pData.drop nOffset) 0
      let nOffset := nOffset + nFillSize
      let iLeaveSize : ℤ := 64 - nFillSize
      if (nAddSize : ℤ) ≤ iLeaveSize - 8 ∧ nAddSize ≠ 0 then
        let m := overwrite m (addData.take nAddSize) nFillSize
        let m := overwrite m (bitSize nSize) (nFillSize + nAddSize)
        (⟨m, mc.nOddOffset⟩, nOffset + 64, false)
      else
        let iLeaveSize := iLeaveSize.toNat
        let m := overwrite m (addData.take iLeaveSize) nFillSize
        (⟨m, iLeaveSize⟩, nOffset + iLeaveSize, true)
  else
    let m := overwrite mc.m ((addData.drop mc.nOddOffset).take 56) 0
    (⟨overwrite m (bitSize nSize) 56, mc.nOddOffset⟩, nOffset + 64, false)

/-- The loop of `md5`. -/
def md5Loop (pData : List UInt8) : ℕ → Md5Cycle → Words → ℕ → Option Words
  | 0, _, _, _ => none
  | fuel + 1, mc, words, nOffset =>
    let (mc, nOffset, more) := md5Fill mc pData nOffset
    let words := md5Cycle mc.m words
    if more then md5Loop pData fuel mc words nOffset else some words

/-- `md5`. -/
def md5 (pData : List UInt8) : Option Words :=
  md5Loop pData (pData.length / 64 + 2) ⟨List.replicate 64 0, 0⟩
    ⟨0x67452301, 0xefcdab89, 0x98badcfe, 0x10325476⟩ 0

/-! ### The lines and the steps -/

/-- The four variables in the places that they have before the line `i`. -/
def md5Places (i : ℕ) (s : Words) : Words :=
  match i % 4 with
  | 0 => s
  | 1 => ⟨s.d, s.a, s.b, s.c⟩
  | 2 => ⟨s.c, s.d, s.a, s.b⟩
  | _ => ⟨s.b, s.c, s.d, s.a⟩

theorem lines_eq : ∀ i < 64,
    lines.getD i (0, 0, 0) = (Rfc1321.index i, Rfc1321.shift i, Rfc1321.sines.getD i 0) := by
  decide

theorem assigned_eq (i : ℕ) (a b c d mi s ti : UInt32) : assigned i a b c d mi s ti =
    b + Fips180.rotl (a + Rfc1321.f i b c d + mi + ti) s := rfl

theorem places_line {i : ℕ} (hi : i < 64) (m : ℕ → UInt32) (s : Words) :
    md5Places (i + 1) (line m s i) = Rfc1321.round m (md5Places i s) i := by
  unfold line md5Places Rfc1321.round
  rw [lines_eq i hi]
  obtain h4 | h4 | h4 | h4 : i % 4 = 0 ∨ i % 4 = 1 ∨ i % 4 = 2 ∨ i % 4 = 3 := by omega
  all_goals
    simp only [Nat.add_mod i 1 4, h4, assigned_eq]

theorem md5Cycle_eq (mc : List UInt8) (words : Words) :
    md5Cycle mc words = Rfc1321.compress words mc := by
  have hrun : ∀ n ≤ 64, md5Places n ((List.range n).foldl (line (Rfc1321.word mc)) words) =
      (List.range n).foldl (Rfc1321.round (Rfc1321.word mc)) words := by
    intro n hn
    induction n with
    | zero => rfl
    | succ n ih =>
      rw [List.range_succ, List.foldl_append, List.foldl_append, List.foldl_cons, List.foldl_nil,
        List.foldl_cons, List.foldl_nil, ← ih (by omega)]
      exact places_line (by omega) _ _
  rw [md5Cycle, Rfc1321.compress, ← hrun 64 (Nat.le_refl _)]
  rfl

/-! ### The last cycles -/

theorem bitSize_eq (n : ℕ) : bitSize n = Rfc1321.lengthBytes (8 * n) := by
  have hlow : UInt32.ofNat (n * 8 % 2 ^ 64) = UInt32.ofNat (8 * n) := by
    rw [← UInt32.toNat_inj, UInt32.toNat_ofNat', UInt32.toNat_ofNat']
    omega
  have hhigh : UInt32.ofNat (n * 8 % 2 ^ 64 / 2 ^ 32) = UInt32.ofNat (8 * n / 2 ^ 32) := by
    rw [← UInt32.toNat_inj, UInt32.toNat_ofNat', UInt32.toNat_ofNat']
    omega
  rw [bitSize, Rfc1321.lengthBytes, hlow, hhigh]

theorem take_addData {k : ℕ} (hpos : 0 < k) (hle : k ≤ 64) :
    addData.take k = 0x80 :: List.replicate (k - 1) 0 := by
  obtain ⟨k, rfl⟩ := Nat.exists_eq_add_of_lt hpos
  rw [addData, Nat.zero_add, List.take_succ_cons, List.take_replicate, Nat.add_sub_cancel,
    Nat.min_eq_left (by omega)]

theorem take_drop_addData {k : ℕ} (hpos : 0 < k) (hle : k ≤ 8) :
    (addData.drop k).take 56 = List.replicate 56 0 := by
  obtain ⟨k, rfl⟩ := Nat.exists_eq_add_of_lt hpos
  rw [addData, Nat.zero_add, List.drop_succ_cons, List.drop_replicate, List.take_replicate,
    Nat.min_eq_left (by omega)]

/-- The padding, where it fits into the block that has begun. -/
theorem padding_of_lt {n : ℕ} (hlt : n % 64 < 56) :
    Rfc1321.padding n = addData.take (56 - n % 64) ++ bitSize n := by
  rw [Rfc1321.padding, take_addData (by omega) (by omega), bitSize_eq,
    show (119 - n % 64) % 64 = 56 - n % 64 - 1 by omega]

/-- The padding, where it takes one more block. -/
theorem padding_of_le {n : ℕ} (hle : 56 ≤ n % 64) : Rfc1321.padding n =
    addData.take (64 - n % 64) ++ ((addData.drop (64 - n % 64)).take 56 ++ bitSize n) := by
  rw [Rfc1321.padding, take_addData (by omega) (by omega), take_drop_addData (by omega) (by omega),
    bitSize_eq, show (119 - n % 64) % 64 = 64 - n % 64 - 1 + 56 by omega, List.replicate_add]
  simp only [List.cons_append, List.append_assoc]

variable {pData : List UInt8} {mc : Md5Cycle} {nOffset : ℕ}

theorem md5Fill_of_le (h : nOffset + 64 ≤ pData.length) :
    md5Fill mc pData nOffset = (⟨(pData.drop nOffset).take 64, 0⟩, nOffset + 64, true) := by
  unfold md5Fill
  dsimp only
  rw [if_pos (by omega), if_pos (by omega)]

theorem length_take_addData {k : ℕ} (hle : k ≤ 64) : (addData.take k).length = k := by
  rw [addData, List.length_take, List.length_cons, List.length_replicate]
  omega

theorem length_bitSize (n : ℕ) : (bitSize n).length = 8 := rfl

/-- The end of the message, with the padding behind it. -/
theorem md5Fill_of_lt (hm : mc.m.length = 64) (hlt : nOffset < pData.length)
    (hroom : pData.length < nOffset + 56) (hmod : nOffset % 64 = 0) :
    ∃ off, md5Fill mc pData nOffset =
      (⟨pData.drop nOffset ++ Rfc1321.padding pData.length, mc.nOddOffset⟩, off, false) := by
  obtain ⟨r, hr⟩ : ∃ r, r = pData.length - nOffset := ⟨_, rfl⟩
  have hdrop : (pData.drop nOffset).length = r := by rw [List.length_drop, hr]
  have hrest : pData.length % 64 = r := by omega
  have hadd : md5CalcAddSize r = 56 - r := by
    unfold md5CalcAddSize
    dsimp only
    rw [if_pos (by omega), Nat.mod_eq_of_lt (by omega)]
  have htake : (addData.take (56 - r)).length = 56 - r := length_take_addData (by omega)
  have hfirst : (overwrite mc.m (pData.drop nOffset) 0).length = 64 := by
    rw [length_overwrite (by omega), hm]
  have hsecond : (overwrite (overwrite mc.m (pData.drop nOffset) 0)
      (addData.take (56 - r)) r).length = 64 := by
    rw [length_overwrite (by omega), hfirst]
  have hdata : (overwrite mc.m (pData.drop nOffset) 0).take r = pData.drop nOffset := by
    have := @take_overwrite _ mc.m (pData.drop nOffset) 0 (Nat.zero_le _)
    rwa [Nat.zero_add, hdrop, List.take_zero, List.nil_append] at this
  have hmark := @take_overwrite _ (overwrite mc.m (pData.drop nOffset) 0) (addData.take (56 - r)) r
    (by omega)
  rw [htake, hdata] at hmark
  unfold md5Fill
  dsimp only
  rw [← hr, if_pos hlt, if_neg (by omega), hadd, if_pos (by omega),
    overwrite_of_eq (by rw [length_bitSize]; omega), hmark, padding_of_lt (by omega), hrest,
    List.append_assoc]
  exact ⟨_, rfl⟩

/-- The end of the message, where the padding goes on in the next block. -/
theorem md5Fill_of_room (hm : mc.m.length = 64) (hlt : nOffset + 56 ≤ pData.length)
    (hroom : pData.length < nOffset + 64) :
    md5Fill mc pData nOffset =
      (⟨pData.drop nOffset ++ addData.take (nOffset + 64 - pData.length),
        nOffset + 64 - pData.length⟩, nOffset + 64, true) := by
  obtain ⟨r, hr⟩ : ∃ r, r = pData.length - nOffset := ⟨_, rfl⟩
  have hdrop : (pData.drop nOffset).length = r := by rw [List.length_drop, hr]
  have hleave : ((64 : ℤ) - r).toNat = nOffset + 64 - pData.length := by omega
  have hadd : ¬ ((md5CalcAddSize r : ℤ) ≤ 64 - r - 8 ∧ md5CalcAddSize r ≠ 0) := by
    unfold md5CalcAddSize
    dsimp only
    split_ifs <;> omega
  have htake : (addData.take (nOffset + 64 - pData.length)).length =
      nOffset + 64 - pData.length := length_take_addData (by omega)
  have hfirst : (overwrite mc.m (pData.drop nOffset) 0).length = 64 := by
    rw [length_overwrite (by omega), hm]
  have hdata := @take_overwrite _ mc.m (pData.drop nOffset) 0 (Nat.zero_le _)
  rw [Nat.zero_add, hdrop, List.take_zero, List.nil_append] at hdata
  have hoff : nOffset + r + (nOffset + 64 - pData.length) = nOffset + 64 := by omega
  unfold md5Fill
  dsimp only
  rw [← hr, if_pos (by omega), if_neg (by omega), if_neg hadd, hleave,
    overwrite_of_eq (by omega), hdata, hoff]

/-- The cycle behind the end of the message. -/
theorem md5Fill_of_ge (hm : mc.m.length = 64) (hodd : mc.nOddOffset ≤ 8)
    (h : pData.length ≤ nOffset) :
    md5Fill mc pData nOffset =
      (⟨(addData.drop mc.nOddOffset).take 56 ++ bitSize pData.length, mc.nOddOffset⟩,
        nOffset + 64, false) := by
  have htake : ((addData.drop mc.nOddOffset).take 56).length = 56 := by
    rw [List.length_take, List.length_drop, addData, List.length_cons, List.length_replicate]
    omega
  have hzeros := @take_overwrite _ mc.m ((addData.drop mc.nOddOffset).take 56) 0 (Nat.zero_le _)
  rw [Nat.zero_add, htake, List.take_zero, List.nil_append] at hzeros
  unfold md5Fill
  dsimp only
  rw [if_neg (by omega), overwrite_of_eq, hzeros]
  rw [length_overwrite (by omega), length_bitSize, hm]

/-! ### `md5` -/

theorem md5Loop_of_more {fuel off : ℕ} {words : Words} {mc' : Md5Cycle}
    (h : md5Fill mc pData nOffset = (mc', off, true)) :
    md5Loop pData (fuel + 1) mc words nOffset =
      md5Loop pData fuel mc' (Rfc1321.compress words mc'.m) off := by
  rw [md5Loop, h]
  dsimp only
  rw [if_pos rfl, md5Cycle_eq]

theorem md5Loop_of_last {fuel off : ℕ} {words : Words} {mc' : Md5Cycle}
    (h : md5Fill mc pData nOffset = (mc', off, false)) :
    md5Loop pData (fuel + 1) mc words nOffset = some (Rfc1321.compress words mc'.m) := by
  rw [md5Loop, h]
  dsimp only
  rw [if_neg Bool.false_ne_true, md5Cycle_eq]

/-- A block, and what is behind it. -/
theorem feed_block (words : Words) {block data : List UInt8} (h : block.length = 64) :
    feed Rfc1321.compress 64 (words, []) (block ++ data) =
      feed Rfc1321.compress 64 (Rfc1321.compress words block, []) data := by
  have hblock : feed Rfc1321.compress 64 (words, []) block =
      (Rfc1321.compress words block, []) :=
    feed_of_eq words (by rw [h, List.length_nil]) (Nat.zero_lt_succ 63)
  rw [feed_append, hblock]

theorem feed_last (words : Words) {block : List UInt8} (h : block.length = 64) :
    feed Rfc1321.compress 64 (words, []) block = (Rfc1321.compress words block, []) := by
  have := @feed_block words block [] h
  rwa [List.append_nil, feed_nil] at this

/-- The last block of the message, with what the padding takes. -/
theorem md5Loop_of_lt (fuel : ℕ) (hm : mc.m.length = 64) (hodd : mc.nOddOffset = 0)
    (words : Words) (hmod : nOffset % 64 = 0) (hle : nOffset ≤ pData.length)
    (hlt : pData.length < nOffset + 64) :
    md5Loop pData (fuel + 2) mc words nOffset =
      some (feed Rfc1321.compress 64 (words, [])
        (pData.drop nOffset ++ Rfc1321.padding pData.length)).1 := by
  have hpadding := Rfc1321.length_padding pData.length
  rcases Nat.lt_or_ge nOffset pData.length with hdata | hnone
  · rcases Nat.lt_or_ge pData.length (nOffset + 56) with hroom | hroom
    · obtain ⟨off, hfill⟩ := md5Fill_of_lt hm hdata hroom hmod
      rw [md5Loop_of_last hfill, feed_last]
      rw [List.length_append, List.length_drop]
      omega
    · have hblock : (pData.drop nOffset ++
          addData.take (nOffset + 64 - pData.length)).length = 64 := by
        rw [List.length_append, List.length_drop, length_take_addData (by omega)]
        omega
      have hlast : ((addData.drop (nOffset + 64 - pData.length)).take 56 ++
          bitSize pData.length).length = 64 := by
        rw [List.length_append, take_drop_addData (by omega) (by omega), List.length_replicate,
          length_bitSize]
      have hrest : 64 - pData.length % 64 = nOffset + 64 - pData.length := by omega
      rw [md5Loop_of_more (md5Fill_of_room hm hroom hlt),
        md5Loop_of_last (md5Fill_of_ge hblock (by dsimp only; omega) (by omega)),
        padding_of_le (by omega), hrest, ← List.append_assoc, feed_block words hblock,
        feed_last _ hlast]
  · have hfill := md5Fill_of_ge hm (by omega) hnone
    have hrest : pData.length % 64 = 0 := by omega
    have hblock : (addData.take 56 ++ bitSize pData.length).length = 64 := by
      rw [List.length_append, length_take_addData (by omega), length_bitSize]
    rw [hodd, List.drop_zero] at hfill
    rw [md5Loop_of_last hfill, List.drop_of_length_le hnone, List.nil_append,
      padding_of_lt (by omega), hrest, Nat.sub_zero, feed_last words hblock]

/-- The loop from the start of a block on. -/
theorem md5Loop_eq (fuel : ℕ) (hm : mc.m.length = 64) (hodd : mc.nOddOffset = 0) (words : Words)
    (hmod : nOffset % 64 = 0) (hle : nOffset ≤ pData.length)
    (hfuel : pData.length - nOffset < 64 * (fuel + 1)) :
    md5Loop pData (fuel + 2) mc words nOffset =
      some (feed Rfc1321.compress 64 (words, [])
        (pData.drop nOffset ++ Rfc1321.padding pData.length)).1 := by
  induction fuel generalizing mc words nOffset with
  | zero => exact md5Loop_of_lt 0 hm hodd words hmod hle (by omega)
  | succ fuel ih =>
    rcases Nat.lt_or_ge pData.length (nOffset + 64) with hlt | hmore
    · exact md5Loop_of_lt (fuel + 1) hm hodd words hmod hle hlt
    · have hblock : ((pData.drop nOffset).take 64).length = 64 := by
        rw [List.length_take, List.length_drop]
        omega
      have hsplit : pData.drop nOffset =
          (pData.drop nOffset).take 64 ++ pData.drop (nOffset + 64) := by
        rw [← List.drop_drop, List.take_append_drop]
      have hrest : md5Loop pData (fuel + 2) ⟨(pData.drop nOffset).take 64, 0⟩
          (Rfc1321.compress words ((pData.drop nOffset).take 64)) (nOffset + 64) = _ :=
        ih hblock rfl _ (by omega) hmore (by omega)
      rw [md5Loop_of_more (md5Fill_of_le hmore), hrest]
      conv_rhs => rw [hsplit, List.append_assoc, feed_block words hblock]

/-- The hash of RFC 1321. -/
theorem md5_eq_rfc (pData : List UInt8) : md5 pData = some (Rfc1321.md5 pData) := by
  have hloop := @md5Loop_eq pData ⟨List.replicate 64 0, 0⟩ 0 (pData.length / 64)
    (List.length_replicate ..) rfl Rfc1321.initial rfl (Nat.zero_le _) (by omega)
  rw [List.drop_zero, Rfc1321.feed_padded] at hloop
  exact hloop

end CxxDeps.Security
