import CxxDeps.H264.AnnexB

/-! The two-byte NAL header and the Annex-B scanner of `h265/h265.cpp`. The FU
header functions are, byte for byte, those of `h264/h264.cpp`. -/

namespace CxxDeps.H265

open H264 (FoundNal Delimited Splits annexB foundAt findNextNal_end loop_nalRound)

/-- `nal_header_t`: one, six, six and three bits. -/
structure NalHeader where
  f : UInt8 := 0
  type : UInt8 := 0
  layer : UInt8 := 0
  tid : UInt8 := 0
  deriving DecidableEq, Repr

/-- `nal_header_set`, which leaves the header alone when there are fewer than two
bytes. The layer is cut to its six bits. -/
def nalHeaderSet (nal : NalHeader) : List UInt8 → NalHeader
  | v0 :: v1 :: _ =>
    ⟨(v0 &&& 0x80) >>> 7, (v0 &&& 0x7e) >>> 1, (v0 &&& 0x01 ||| v1 &&& 0xf8) &&& 0x3f, v1 &&& 0x07⟩
  | _ => nal

/-- The type is `reserved` where there is no header. -/
def getNalType (v : List UInt8) : UInt8 := if v.length < 2 then 0 else (nalHeaderSet {} v).type

/-- `nal_header_get` into two bytes. The temporal id stands where the type
belongs. -/
def nalHeaderGet (nal : NalHeader) : List UInt8 :=
  [nal.f <<< 7 ||| nal.tid <<< 1 ||| (nal.layer &&& 0x20) >>> 5,
    (nal.layer &&& 0x1f) <<< 3 ||| nal.tid]

/-- `h265::find_next_nal`: the scanner of `h264`, which gives up at a NAL unit
of fewer than two bytes. -/
def findNextNal (buffer : List UInt8) (offset : ℕ) : Option FoundNal :=
  (H264.findNextNal buffer offset).filter fun nal => 2 ≤ nal.nalSize

/-- `while (find_next_nal(...)) nals.push_back(...)`, in at most the given
number of rounds. -/
def findNals (buffer : List UInt8) : ℕ → ℕ → List (List UInt8)
  | 0, _ => []
  | n + 1, offset =>
    match findNextNal buffer offset with
    | none => []
    | some nal => nal.bytes buffer :: findNals buffer n nal.offset

/-- Up to the first NAL unit that is too short the scanner is the one of H.264. -/
theorem findNals_prefix (buffer : List UInt8) (fuel offset : ℕ) :
    findNals buffer fuel offset <+: H264.findNals buffer fuel offset := by
  induction fuel generalizing offset with
  | zero => exact List.prefix_refl _
  | succ fuel ih =>
    rw [findNals, H264.findNals, findNextNal]
    cases H264.findNextNal buffer offset with
    | none => exact List.prefix_refl _
    | some nal =>
      by_cases hsize : 2 ≤ nal.nalSize
      · simp only [Option.filter_some, hsize, decide_true, if_true]
        exact (List.prefix_cons_inj _).mpr (ih nal.offset)
      · simp only [Option.filter_some, hsize, decide_false, Bool.false_eq_true, if_false]
        exact List.nil_prefix

/-- Where the two scanners see the same NAL units. -/
theorem findNals_eq {buffer : List UInt8} {fuel offset : ℕ}
    (h : ∀ nal ∈ H264.findNals buffer fuel offset, 2 ≤ nal.length) :
    findNals buffer fuel offset = H264.findNals buffer fuel offset := by
  induction fuel generalizing offset with
  | zero => rfl
  | succ fuel ih =>
    simp only [findNals, findNextNal, H264.findNals] at h ⊢
    rcases hn : H264.findNextNal buffer offset with _ | nal
    · rfl
    · simp only [hn, List.forall_mem_cons] at h
      have hsize : 2 ≤ nal.nalSize := h.1.trans (List.length_take_le _ _)
      simp only [Option.filter_some, decide_eq_true hsize, if_true]
      rw [ih h.2]

theorem findNals_annexB {nals : List (Bool × List UInt8)} (hn : ∀ n ∈ nals, H264.Delimited n.2)
    (h2 : ∀ n ∈ nals, 2 ≤ n.2.length) :
    findNals (H264.annexB nals) ((H264.annexB nals).length + 1) 0 = nals.map Prod.snd := by
  have h := H264.findNals_annexB hn
  rw [findNals_eq, h]
  rw [h]
  exact List.forall_mem_map.mpr h2

theorem splits_annexB {nals : List (Bool × List UInt8)} (hne : nals ≠ [])
    (hn : ∀ n ∈ nals, Delimited n.2 ∧ 2 ≤ n.2.length) :
    Splits (findNextNal (annexB nals)) (annexB nals) (nals.map Prod.snd) := by
  have hfind : ∀ offset n rest, (annexB nals).drop offset = annexB (n :: rest) →
      Delimited n.2 ∧ 2 ≤ n.2.length →
      findNextNal (annexB nals) offset = some (foundAt offset n rest) := by
    intro offset n rest h ⟨hn, hsize⟩
    rw [findNextNal, H264.findNextNal_eq h hn]
    exact Option.filter_some_pos (decide_eq_true hsize)
  have hend : ∀ offset, (annexB nals).drop offset = [] →
      findNextNal (annexB nals) offset = none := by
    intro offset h
    rw [findNextNal, findNextNal_end h, Option.filter_none]
  obtain ⟨founds, hloop, hbytes, hlast⟩ :=
    loop_nalRound (P := fun nal => Delimited nal ∧ 2 ≤ nal.length) hfind hend
      (show (annexB nals).drop 0 = annexB nals from rfl) hn
  rw [if_neg hne] at hlast
  exact ⟨_, founds, hloop, hbytes, by rwa [List.length_map]⟩

/-- Repeated calls of either scanner, from the beginning of a stream of NAL units on, find
these in order, say of the last alone that it is the last, and then find nothing. -/
theorem findNextNal_splits {nals : List (Bool × List UInt8)} (hne : nals ≠ [])
    (hn : ∀ n ∈ nals, Delimited n.2) :
    Splits (H264.findNextNal (annexB nals)) (annexB nals) (nals.map Prod.snd) ∧
    ((∀ n ∈ nals, 2 ≤ n.2.length) →
      Splits (H265.findNextNal (annexB nals)) (annexB nals) (nals.map Prod.snd)) :=
  ⟨H264.splits_annexB hne hn, fun h2 => H265.splits_annexB hne fun n hmem => ⟨hn n hmem, h2 n hmem⟩⟩

private def twoNals : List (Bool × List UInt8) := [(true, [0, 0, 2]), (false, [0, 1])]

/-- Two NAL units that begin with zero bytes. -/
theorem findNextNal_splits_two :
    Splits (H264.findNextNal (annexB twoNals)) (annexB twoNals) [[0, 0, 2], [0, 1]] ∧
    Splits (H265.findNextNal (annexB twoNals)) (annexB twoNals) [[0, 0, 2], [0, 1]] := by
  have hn : ∀ n ∈ twoNals, Delimited n.2 :=
    List.forall_mem_cons.mpr ⟨⟨by decide, 2, rfl, by decide⟩,
      List.forall_mem_singleton.mpr ⟨by decide, 1, rfl, by decide⟩⟩
  have h := findNextNal_splits (List.cons_ne_nil _ _) hn
  exact ⟨h.1, h.2 (by decide)⟩

end CxxDeps.H265
