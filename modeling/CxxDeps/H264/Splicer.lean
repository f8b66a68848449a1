import CxxDeps.H264.BitReader
import CxxDeps.H264.Depacketize
import Mathlib.Data.List.Chain

/-! The `nal_splicer`: the slices of a picture are put together into one frame. A slice with
`first_mb_in_slice` 0 begins a picture, and every other NAL unit is a frame of its own.

The bit reader is given the size of the whole NAL unit for what stands behind its first
byte, so that it may go on with one byte that does not belong to it. -/

namespace CxxDeps.H264

open Library

/-- `nal_splicer`; the NAL units are kept with their start codes. -/
structure NalSplicer where
  nals : List (List UInt8) := []
  deriving DecidableEq, Repr

namespace NalSplicer

def combin (s : NalSplicer) : List UInt8 := s.nals.flatten

/-- What `combin` gives, if it is anything. -/
def combined (s : NalSplicer) : List (List UInt8) :=
  if s.combin.length > 0 then [s.combin] else []

/-- A non-IDR or an IDR slice. -/
def isSlice (nal : List UInt8) : Bool :=
  getNalType (nal.headD 0) == 1 || getNalType (nal.headD 0) == 5

/-- `insert_nal`, with the byte that the memory holds behind the NAL unit: what is used, and
the frames. -/
def insertNal (nal : List UInt8) (past : UInt8) (s : NalSplicer) :
    List Use × NalSplicer × List (List UInt8) :=
  if nal.length = 0 then ([], {}, s.combined)
  else
    let newNal := startCode ++ nal
    if !isSlice nal then ([], {}, s.combined ++ [newNal])
    else
      let firstMbs := BitReader.readUe (nal.length - 1) (nal.tail ++ [past]) 0
      match firstMbs.2 with
      | none => (firstMbs.1, s, [])
      | some (val, _) =>
        if val = 0 then (firstMbs.1, ⟨[newNal]⟩, s.combined)
        else (firstMbs.1, ⟨s.nals ++ [newNal]⟩, [])

/-- One call after the other, and then one without a NAL unit. -/
def splice : List (List UInt8 × UInt8) → NalSplicer → List Use × List (List UInt8)
  | [], s => ((s.insertNal [] 0).1, (s.insertNal [] 0).2.2)
  | (nal, past) :: rest, s =>
    let (uses, t, frames) := s.insertNal nal past
    let (uses', frames') := splice rest t
    (uses ++ uses', frames ++ frames')

/-! ### The pictures -/

/-- The `first_mb_in_slice` of a slice. -/
def firstMb (nal : List UInt8) : Option ℕ := ue (bitsOf nal.tail)

/-- No frame ends between a slice and a slice behind it that goes on with the picture. -/
def Cut (frame next : List (List UInt8)) : Prop :=
  ∀ a ∈ frame.getLast?, ∀ b ∈ next.head?, isSlice a → isSlice b → firstMb b = some 0

/-- The frames are groups of the NAL units, each with its start code, in order. -/
structure Spliced (nals frames : List (List UInt8)) : Prop where
  concat : frames.flatten = nals.flatMap (startCode ++ ·)
  groups : ∃ groups : List (List (List UInt8)), groups.flatten = nals ∧
    frames = groups.map (List.flatMap (startCode ++ ·)) ∧ [] ∉ groups ∧ groups.IsChain Cut

/-- The `first_mb_in_slice` of a slice ends in it, and has fewer than 31 zero bits in front. -/
def Readable (nal : List UInt8) : Prop :=
  isSlice nal → ∃ v ∈ firstMb nal, v + 1 < 2 ^ 31

/-- The NAL units of a picture that is not complete, if there are any. -/
def close (pending : List (List UInt8)) : List (List (List UInt8)) :=
  if pending = [] then [] else [pending]

/-- The pictures and the other NAL units, behind some slices of a picture. -/
def groupsFrom : List (List UInt8) → List (List UInt8) → List (List (List UInt8))
  | pending, [] => close pending
  | pending, nal :: rest =>
    if !isSlice nal then close pending ++ [nal] :: groupsFrom [] rest
    else if firstMb nal = some 0 then close pending ++ groupsFrom [nal] rest
    else groupsFrom (pending ++ [nal]) rest

@[simp] theorem flatten_close (pending : List (List UInt8)) :
    (close pending).flatten = pending := by
  rw [close]
  split <;> simp_all

theorem flatten_groupsFrom (pending nals : List (List UInt8)) :
    (groupsFrom pending nals).flatten = pending ++ nals := by
  induction nals generalizing pending with
  | nil => rw [groupsFrom, flatten_close, List.append_nil]
  | cons nal rest ih =>
    rw [groupsFrom]
    split_ifs
    · rw [List.flatten_append, flatten_close, List.flatten_cons, ih]
      rfl
    · rw [List.flatten_append, flatten_close, ih]
      rfl
    · rw [ih, List.append_assoc]
      rfl

theorem nil_notMem_close (pending : List (List UInt8)) : [] ∉ close pending := by
  rw [close]
  split_ifs with h
  · exact List.not_mem_nil
  · exact fun hmem => h (List.mem_singleton.mp hmem).symm

theorem nil_notMem_groupsFrom (pending nals : List (List UInt8)) :
    [] ∉ groupsFrom pending nals := by
  induction nals generalizing pending with
  | nil => exact nil_notMem_close pending
  | cons nal rest ih =>
    rw [groupsFrom]
    split_ifs
    · simp [nil_notMem_close, ih]
    · simp [nil_notMem_close, ih]
    · exact ih _

/-- The first group begins where the NAL units do. -/
theorem head_groupsFrom {pending nals first : List (List UInt8)}
    (h : first ∈ (groupsFrom pending nals).head?) : first.head? = (pending ++ nals).head? := by
  obtain ⟨rest, hrest⟩ := List.head?_eq_some_iff.mp h
  have hne : first ≠ [] := by
    rintro rfl
    exact nil_notMem_groupsFrom pending nals (hrest ▸ List.mem_cons_self)
  rw [← flatten_groupsFrom, hrest, List.flatten_cons, List.head?_append_of_ne_nil _ hne]

theorem isChain_close_append {pending : List (List UInt8)} {groups : List (List (List UInt8))}
    (hchain : groups.IsChain Cut) (hcut : ∀ next ∈ groups.head?, Cut pending next) :
    (close pending ++ groups).IsChain Cut := by
  rw [close]
  split_ifs
  · exact hchain
  · exact List.isChain_cons.mpr ⟨hcut, hchain⟩

theorem isChain_groupsFrom (pending nals : List (List UInt8)) :
    (groupsFrom pending nals).IsChain Cut := by
  induction nals generalizing pending with
  | nil =>
    rw [groupsFrom, close]
    split_ifs <;> simp
  | cons nal rest ih =>
    rw [groupsFrom]
    split_ifs with hslice hfirst
    · -- a NAL unit that is no slice may be cut off on both sides
      have hnot : ¬ isSlice nal := by simpa using hslice
      refine isChain_close_append (List.isChain_cons.mpr ⟨?_, ih []⟩) ?_
      · intro next _ a ha b _ hslice'
        obtain rfl := Option.some.inj ha
        exact absurd hslice' hnot
      · intro next hnext a _ b hb _ hslice'
        obtain rfl := Option.some.inj hnext
        obtain rfl := Option.some.inj hb
        exact absurd hslice' hnot
    · refine isChain_close_append (ih [nal]) ?_
      intro next hnext a _ b hb _ _
      rw [head_groupsFrom hnext] at hb
      obtain rfl := Option.some.inj hb
      exact hfirst
    · exact ih _

theorem flatten_map_flatMap {α β : Type*} (f : α → List β) (groups : List (List α)) :
    (groups.map (List.flatMap f)).flatten = groups.flatten.flatMap f := by
  induction groups with
  | nil => rfl
  | cons group groups ih => rw [List.map_cons, List.flatten_cons, ih, List.flatten_cons,
      List.flatMap_append]

theorem spliced_groupsFrom (nals : List (List UInt8)) :
    Spliced nals ((groupsFrom [] nals).map (List.flatMap (startCode ++ ·))) where
  concat := by
    rw [flatten_map_flatMap, flatten_groupsFrom]
    rfl
  groups := ⟨groupsFrom [] nals, flatten_groupsFrom [] nals, rfl, nil_notMem_groupsFrom [] nals,
    isChain_groupsFrom [] nals⟩

/-! ### What the splicer does -/

/-- The slices of a picture are kept with their start codes. -/
def Holds (s : NalSplicer) (pending : List (List UInt8)) : Prop :=
  s.nals = pending.map (startCode ++ ·)

theorem Holds.combined {s : NalSplicer} {pending : List (List UInt8)} (h : s.Holds pending) :
    s.combined = (close pending).map (List.flatMap (startCode ++ ·)) := by
  rw [NalSplicer.combined, combin, h, close]
  cases pending with
  | nil => rfl
  | cons nal pending => simp [startCode, List.flatMap_def]

/-- A NAL unit that is no slice. -/
theorem insertNal_other {nal : List UInt8} (hne : nal ≠ []) (hslice : isSlice nal = false)
    (past : UInt8) (s : NalSplicer) :
    s.insertNal nal past = ([], {}, s.combined ++ [startCode ++ nal]) := by
  rw [insertNal, if_neg (by simpa using hne), hslice]
  rfl

/-- A slice whose `first_mb_in_slice` is read. -/
theorem insertNal_slice {nal : List UInt8} (hne : nal ≠ []) (hslice : isSlice nal = true) {v : ℕ}
    (hfirst : firstMb nal = some v) (hv : v + 1 < 2 ^ 31) (past : UInt8) (s : NalSplicer) :
    AllOk (s.insertNal nal past).1 ∧ (s.insertNal nal past).2 =
      if v = 0 then (⟨[startCode ++ nal]⟩, s.combined)
      else (⟨s.nals ++ [startCode ++ nal]⟩, []) := by
  obtain ⟨huses, val, pos, hvalue, hnat⟩ := BitReader.readUe_eq past hfirst hv
  rw [List.length_tail] at huses hvalue
  have hval : val = 0 ↔ v = 0 := by
    rw [← hnat]
    exact UInt32.toNat_inj.symm
  have hinsert : s.insertNal nal past =
      ((BitReader.readUe (nal.length - 1)).uses (nal.tail ++ [past]) 0,
        if val = 0 then (⟨[startCode ++ nal]⟩, s.combined)
        else (⟨s.nals ++ [startCode ++ nal]⟩, [])) := by
    rw [insertNal, if_neg (by simpa using hne), hslice]
    simp only [Reader.value] at hvalue
    simp only [Bool.not_true, Bool.false_eq_true, if_false, hvalue]
    split_ifs <;> rfl
  rw [hinsert]
  exact ⟨huses, if_congr hval rfl rfl⟩

/-- What is used of a slice that cannot be read is not in order. -/
theorem readable_of_uses {nal : List UInt8} (hne : nal ≠ []) (hlen : nal.length ≤ 2 ^ 29)
    {past : UInt8} {s : NalSplicer} (h : AllOk (s.insertNal nal past).1) : Readable nal := by
  intro hslice
  have hpos := List.length_pos_of_ne_nil hne
  have huses : AllOk ((BitReader.readUe nal.tail.length).uses (nal.tail ++ [past]) 0) := by
    have hsame : (s.insertNal nal past).1 =
        (BitReader.readUe (nal.length - 1)).uses (nal.tail ++ [past]) 0 := by
      rw [insertNal, if_neg (by simpa using hne), hslice]
      simp only [Bool.not_true, Bool.false_eq_true, if_false, Reader.uses]
      split
      · rfl
      · split_ifs <;> rfl
    rwa [hsame, ← List.length_tail] at h
  exact BitReader.readUe_in_order past (by rw [List.length_tail]; omega) huses

theorem splice_cons (nal : List UInt8) (past : UInt8) (rest : List (List UInt8 × UInt8))
    (s : NalSplicer) : splice ((nal, past) :: rest) s =
      ((s.insertNal nal past).1 ++ (splice rest (s.insertNal nal past).2.1).1,
        (s.insertNal nal past).2.2 ++ (splice rest (s.insertNal nal past).2.1).2) := rfl

/-- With slices that can be read, the frames are the pictures and the other NAL units. -/
theorem splice_eq {inputs : List (List UInt8 × UInt8)} (hne : ∀ n ∈ inputs, n.1 ≠ [])
    (hread : ∀ n ∈ inputs, Readable n.1) {s : NalSplicer} {pending : List (List UInt8)}
    (hs : s.Holds pending) :
    AllOk (splice inputs s).1 ∧ (splice inputs s).2 =
      (groupsFrom pending (inputs.map Prod.fst)).map (List.flatMap (startCode ++ ·)) := by
  induction inputs generalizing s pending with
  | nil => exact ⟨allOk_nil, hs.combined⟩
  | cons input rest ih =>
    obtain ⟨nal, past⟩ := input
    obtain ⟨hnal, hne⟩ := List.forall_mem_cons.mp hne
    obtain ⟨hreadable, hread⟩ := List.forall_mem_cons.mp hread
    rw [splice_cons, List.map_cons, groupsFrom]
    cases hslice : isSlice nal with
    | false =>
      obtain ⟨huses, hframes⟩ := ih hne hread (show Holds {} [] from rfl)
      rw [insertNal_other hnal hslice]
      refine ⟨huses, ?_⟩
      simp [hframes, hs.combined]
    | true =>
      obtain ⟨v, hfirst, hv⟩ := hreadable hslice
      obtain ⟨huses, hinsert⟩ := insertNal_slice hnal hslice hfirst hv past s
      rw [hinsert, allOk_append]
      by_cases hzero : v = 0
      · obtain ⟨hrest, hframes⟩ := ih hne hread
          (show Holds ⟨[startCode ++ nal]⟩ [nal] from rfl)
        have hmb : firstMb nal = some 0 := by rw [hzero] at hfirst; exact hfirst
        simp only [if_pos hzero, Bool.not_true, Bool.false_eq_true, if_false, if_pos hmb]
        exact ⟨⟨huses, hrest⟩, by rw [hframes, hs.combined, List.map_append]⟩
      · obtain ⟨hrest, hframes⟩ := ih hne hread
          (show Holds ⟨s.nals ++ [startCode ++ nal]⟩ (pending ++ [nal]) by
            rw [Holds, hs, List.map_append]; rfl)
        have hmb : ¬ firstMb nal = some 0 := by
          rw [Option.mem_def.mp hfirst]
          exact fun h => hzero (Option.some.inj h)
        simp only [if_neg hzero, Bool.not_true, Bool.false_eq_true, if_false, if_neg hmb]
        exact ⟨⟨huses, hrest⟩, hframes⟩

theorem readable_of_splice {inputs : List (List UInt8 × UInt8)} (hne : ∀ n ∈ inputs, n.1 ≠ [])
    (hlen : ∀ n ∈ inputs, n.1.length ≤ 2 ^ 29) {s : NalSplicer} (h : AllOk (splice inputs s).1) :
    ∀ n ∈ inputs, Readable n.1 := by
  induction inputs generalizing s with
  | nil => exact fun n hn => absurd hn List.not_mem_nil
  | cons input rest ih =>
    obtain ⟨nal, past⟩ := input
    obtain ⟨hnal, hne⟩ := List.forall_mem_cons.mp hne
    obtain ⟨hshort, hlen⟩ := List.forall_mem_cons.mp hlen
    rw [splice_cons, allOk_append] at h
    exact List.forall_mem_cons.mpr ⟨readable_of_uses hnal hshort h.1, ih hne hlen h.2⟩

/-- The splicer loses nothing, cuts no picture and reads no other byte, if every slice has
its `first_mb_in_slice` in it, below 2^31 - 1; and only then, of NAL units up to 2^29 bytes. -/
theorem splice_iff {inputs : List (List UInt8 × UInt8)} (hne : ∀ n ∈ inputs, n.1 ≠ []) :
    ((∀ n ∈ inputs, Readable n.1) → AllOk (splice inputs {}).1 ∧
      Spliced (inputs.map Prod.fst) (splice inputs {}).2) ∧
    ((∀ n ∈ inputs, n.1.length ≤ 2 ^ 29) → AllOk (splice inputs {}).1 ∧
      Spliced (inputs.map Prod.fst) (splice inputs {}).2 → ∀ n ∈ inputs, Readable n.1) := by
  constructor
  · intro hread
    obtain ⟨huses, hframes⟩ := splice_eq hne hread (show Holds {} [] from rfl)
    rw [hframes]
    exact ⟨huses, spliced_groupsFrom _⟩
  · rintro hlen ⟨huses, -⟩
    exact readable_of_splice hne hlen huses

/-- A parameter set, and a picture of two slices. -/
private def twoSlices : List (List UInt8 × UInt8) :=
  [([0x67], 0), ([0x65, 0x80], 0), ([0x65, 0x40], 0)]

theorem splice_iff_two_slices : AllOk (splice twoSlices {}).1 ∧
    Spliced [[0x67], [0x65, 0x80], [0x65, 0x40]] (splice twoSlices {}).2 := by
  refine (splice_iff (by decide)).1 (List.forall_mem_cons.mpr ⟨?_, List.forall_mem_cons.mpr
    ⟨?_, List.forall_mem_singleton.mpr ?_⟩⟩)
  · exact fun h => absurd h (by decide)
  · exact fun _ => ⟨0, by decide, by decide⟩
  · exact fun _ => ⟨1, by decide, by decide⟩

/-- An IDR slice of one byte is lost, with the byte behind it read for its
`first_mb_in_slice`. -/
theorem splice_fails : ¬ AllOk (splice [([0x65], 0)] {}).1 ∧
    ¬ Spliced [[0x65]] (splice [([0x65], 0)] {}).2 := by
  refine ⟨by decide, fun h => ?_⟩
  exact absurd h.concat (by decide)

end NalSplicer

end CxxDeps.H264
