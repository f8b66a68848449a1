import Mathlib.Data.List.Infix
import Mathlib.Tactic.SplitIfs
import CxxDeps.H264.Nal
import CxxDeps.Library.Loop

/-! Annex-B byte streams. Each NAL unit stands behind a start code of three or
four bytes, contains no start code and does not end in a zero byte. The scanner
of `find_next_nal` recovers the NAL units of such a stream in order. -/

namespace CxxDeps.H264

/-- A start code of four or of three bytes. -/
def code (four : Bool) : List UInt8 := if four then [0, 0, 0, 1] else [0, 0, 1]

/-- The byte stream of NAL units, each with the choice of its start code. -/
def annexB (nals : List (Bool × List UInt8)) : List UInt8 :=
  nals.flatMap fun n => code n.1 ++ n.2

/-- A NAL unit whose borders the scanner can see. -/
structure Delimited (nal : List UInt8) : Prop where
  noStartCode : ¬ [0, 0, 1] <:+: nal
  last : ∃ b ∈ nal.getLast?, b ≠ 0

@[simp] theorem annexB_nil : annexB [] = [] := rfl

@[simp] theorem annexB_cons (n : Bool × List UInt8) (nals : List (Bool × List UInt8)) :
    annexB (n :: nals) = code n.1 ++ (n.2 ++ annexB nals) := by simp [annexB]

theorem length_code (four : Bool) : (code four).length = if four then 4 else 3 := by
  cases four <;> rfl

theorem Delimited.ne_nil {nal : List UInt8} (h : Delimited nal) : nal ≠ [] := by
  rintro rfl
  obtain ⟨b, hb, -⟩ := h.last
  cases hb

/-- What the counter of zero bytes says about the bytes before it. -/
structure ZeroesOk (z : ℤ) (pre : List UInt8) : Prop where
  one : 1 ≤ z → [0] <:+ pre
  two : 2 ≤ z → [0, 0] <:+ pre

theorem zeroesOk_zero (pre : List UInt8) : ZeroesOk 0 pre := ⟨by omega, by omega⟩

/-- The counter after a zero byte; on overflow it says nothing. -/
theorem ZeroesOk.inc {z : ℤ} {pre : List UInt8} (h : ZeroesOk z pre) :
    ZeroesOk (incZeroes z) (pre ++ [0]) := by
  unfold incZeroes
  split_ifs
  · exact ⟨by omega, by omega⟩
  · refine ⟨fun _ => List.suffix_append _ _, fun hz => ?_⟩
    obtain ⟨p, rfl⟩ := h.one (by omega)
    exact ⟨p, by simp⟩

/-- The scanner runs through a NAL unit and ends with no zero byte counted. -/
theorem findNalLoop_body (size : ℕ) {nal : List UInt8} (h : Delimited nal) (rest : List UInt8)
    {suf : List UInt8} (hne : suf ≠ []) (pre : List UInt8) (hsplit : nal = pre ++ suf) {z : ℤ}
    (hz : ZeroesOk z pre) (i nalStart curPos : ℕ) :
    findNalLoop size (suf ++ rest) i z nalStart curPos =
      findNalLoop size rest (i + suf.length) 0 nalStart curPos := by
  induction suf generalizing pre z i with
  | nil => exact absurd rfl hne
  | cons b suf ih =>
    have hnot : ¬ (b = 1 ∧ z ≥ 2) := by
      rintro ⟨rfl, h2⟩
      obtain ⟨p, rfl⟩ := hz.two h2
      exact h.noStartCode ⟨p, suf, by simp [hsplit]⟩
    rcases suf with _ | ⟨c, suf⟩
    · have hb : b ≠ 0 := by
        obtain ⟨x, hx, hx0⟩ := h.last
        rw [hsplit, List.getLast?_append] at hx
        cases hx
        exact hx0
      simp only [List.cons_append, List.nil_append, findNalLoop, if_neg hb, if_neg hnot,
        List.length_cons, List.length_nil]
    · rw [List.cons_append, findNalLoop]
      split_ifs with hb
      · subst hb
        rw [ih (List.cons_ne_nil _ _) (pre ++ [0]) (by simp [hsplit]) hz.inc]
        simp only [List.length_cons]
        congr 1
        omega
      · rw [ih (List.cons_ne_nil _ _) (pre ++ [b]) (by simp [hsplit]) (zeroesOk_zero _)]
        simp only [List.length_cons]
        congr 1
        omega

/-- The first start code of a call. -/
theorem findNalLoop_first (size : ℕ) (four : Bool) (rest : List UInt8) (i curPos : ℕ) :
    findNalLoop size (code four ++ rest) i 0 0 curPos =
      findNalLoop size rest (i + (code four).length) 0 (i + (code four).length)
        (i + (code four).length) := by
  cases four <;> simp [code, findNalLoop, incZeroes]

/-- The second start code ends the NAL unit. -/
theorem findNalLoop_second (size : ℕ) (four : Bool) (rest : List UInt8) {i nalStart curPos : ℕ}
    (hs : 0 < nalStart) (hi : curPos < i) :
    findNalLoop size (code four ++ rest) i 0 nalStart curPos =
      some ⟨i, nalStart, i - curPos, curPos + (i - curPos) = size⟩ := by
  cases four <;>
    simp [code, findNalLoop, incZeroes, hs, show ¬ i ≤ curPos by omega]

/-- One call of `find_next_nal` in front of a NAL unit. -/
theorem findNextNal_eq {buffer : List UInt8} {offset : ℕ} {n : Bool × List UInt8}
    {nals : List (Bool × List UInt8)} (h : buffer.drop offset = annexB (n :: nals))
    (hn : Delimited n.2) :
    findNextNal buffer offset =
      some ⟨offset + (code n.1).length + n.2.length, offset + (code n.1).length, n.2.length,
        decide (nals = [])⟩ := by
  have hlen := congrArg List.length h
  have hpos := List.length_pos_of_ne_nil hn.ne_nil
  simp only [List.length_drop, annexB_cons, List.length_append] at hlen
  have hcode : 0 < (code n.1).length := by rw [length_code]; split <;> omega
  rw [findNextNal, h, annexB_cons, findNalLoop_first,
    findNalLoop_body _ hn _ hn.ne_nil [] rfl (zeroesOk_zero _)]
  rcases nals with _ | ⟨m, nals⟩
  · simp only [annexB_nil, List.length_nil] at hlen ⊢
    rw [findNalLoop, if_pos (by omega)]
    simp only [Option.some.injEq, FoundNal.mk.injEq, decide_true, and_true, true_and]
    omega
  · rw [annexB_cons, findNalLoop_second _ _ _ (by omega) (by omega)]
    have hm : 0 < (code m.1).length := by rw [length_code]; split <;> omega
    simp only [annexB_cons, List.length_append] at hlen
    simp only [Option.some.injEq, FoundNal.mk.injEq, Nat.add_sub_cancel_left, true_and,
      reduceCtorEq, decide_false, decide_eq_false_iff_not]
    omega

theorem length_le_of_mem_findNals {buffer nal : List UInt8} {fuel offset : ℕ}
    (h : nal ∈ findNals buffer fuel offset) : nal.length ≤ buffer.length := by
  induction fuel generalizing offset with
  | zero => cases h
  | succ fuel ih =>
    rw [findNals] at h
    split at h
    · cases h
    · rcases List.mem_cons.mp h with rfl | h
      · exact (List.length_take_le' _ _).trans (by rw [List.length_drop]; omega)
      · exact ih h

/-- Repeated calls return the NAL units of the stream in order. -/
theorem findNals_drop {buffer : List UInt8} {offset : ℕ} {nals : List (Bool × List UInt8)}
    (h : buffer.drop offset = annexB nals) (hn : ∀ n ∈ nals, Delimited n.2) {fuel : ℕ}
    (hf : nals.length < fuel) : findNals buffer fuel offset = nals.map Prod.snd := by
  induction nals generalizing offset fuel with
  | nil =>
    obtain ⟨fuel, rfl⟩ : ∃ k, fuel = k + 1 := ⟨fuel - 1, by omega⟩
    have hlen := congrArg List.length h
    simp only [List.length_drop, annexB_nil, List.length_nil] at hlen
    have : findNextNal buffer offset = none := by
      rw [findNextNal, h, annexB_nil, findNalLoop, if_neg (by omega)]
    simp [findNals, this]
  | cons n nals ih =>
    obtain ⟨fuel, rfl⟩ : ∃ k, fuel = k + 1 := ⟨fuel - 1, by omega⟩
    have hdrop : buffer.drop (offset + (code n.1).length) = n.2 ++ annexB nals := by
      rw [← List.drop_drop, h, annexB_cons, List.drop_left]
    simp only [findNals, findNextNal_eq h (hn n (by simp)), FoundNal.bytes, hdrop, List.take_left,
      List.map_cons]
    rw [ih _ (fun m hm => hn m (by simp [hm])) (by simpa using hf)]
    rw [← List.drop_drop, hdrop, List.drop_left]

theorem length_le_annexB (nals : List (Bool × List UInt8)) :
    nals.length ≤ (annexB nals).length := by
  induction nals with
  | nil => simp
  | cons n nals ih =>
    rw [annexB_cons, List.length_append, List.length_append, List.length_cons, length_code]
    split <;> omega

theorem findNals_annexB {nals : List (Bool × List UInt8)} (hn : ∀ n ∈ nals, Delimited n.2) :
    findNals (annexB nals) ((annexB nals).length + 1) 0 = nals.map Prod.snd :=
  findNals_drop rfl hn (Nat.lt_succ_of_le (length_le_annexB nals))

/-! ### All calls on a stream -/

/-- A round of `while (find_next_nal(...))`, from an offset. -/
def nalRound (find : ℕ → Option FoundNal) (offset : ℕ) : Option (FoundNal × ℕ) :=
  (find offset).map fun nal => (nal, nal.offset)

/-- The NAL units are found in order, the last of them is said to be the last, and then
nothing is found. -/
def Splits (find : ℕ → Option FoundNal) (buffer : List UInt8) (nals : List (List UInt8)) : Prop :=
  ∃ rounds founds, Library.loop (nalRound find) rounds 0 = some founds ∧
    founds.map (FoundNal.bytes buffer) = nals ∧
    founds.map FoundNal.islast = List.replicate (nals.length - 1) false ++ [true]

/-- What a call in front of a NAL unit finds. -/
def foundAt (offset : ℕ) (n : Bool × List UInt8) (nals : List (Bool × List UInt8)) : FoundNal :=
  ⟨offset + (code n.1).length + n.2.length, offset + (code n.1).length, n.2.length,
    decide (nals = [])⟩

theorem bytes_foundAt {buffer : List UInt8} {offset : ℕ} {n : Bool × List UInt8}
    {nals : List (Bool × List UInt8)} (h : buffer.drop offset = annexB (n :: nals)) :
    (foundAt offset n nals).bytes buffer = n.2 := by
  simp only [foundAt, FoundNal.bytes]
  rw [← List.drop_drop, h, annexB_cons, List.drop_left, List.take_left]

theorem drop_foundAt {buffer : List UInt8} {offset : ℕ} {n : Bool × List UInt8}
    {nals : List (Bool × List UInt8)} (h : buffer.drop offset = annexB (n :: nals)) :
    buffer.drop (foundAt offset n nals).offset = annexB nals := by
  simp only [foundAt]
  rw [← List.drop_drop, ← List.drop_drop, h, annexB_cons, List.drop_left, List.drop_left]

/-- Behind the last NAL unit nothing is found. -/
theorem findNextNal_end {buffer : List UInt8} {offset : ℕ} (h : buffer.drop offset = []) :
    findNextNal buffer offset = none := by
  have hlen : buffer.length ≤ offset := List.drop_eq_nil_iff.mp h
  rw [findNextNal, h, findNalLoop, if_neg (by omega)]

/-- The calls, where each finds the NAL unit that it is in front of. -/
theorem loop_nalRound {find : ℕ → Option FoundNal} {buffer : List UInt8} {P : List UInt8 → Prop}
    (hfind : ∀ offset n nals, buffer.drop offset = annexB (n :: nals) → P n.2 →
      find offset = some (foundAt offset n nals))
    (hend : ∀ offset, buffer.drop offset = [] → find offset = none)
    {offset : ℕ} {nals : List (Bool × List UInt8)} (h : buffer.drop offset = annexB nals)
    (hn : ∀ n ∈ nals, P n.2) :
    ∃ founds, Library.loop (nalRound find) (nals.length + 1) offset = some founds ∧
      founds.map (FoundNal.bytes buffer) = nals.map Prod.snd ∧
      founds.map FoundNal.islast =
        if nals = [] then [] else List.replicate (nals.length - 1) false ++ [true] := by
  induction nals generalizing offset with
  | nil =>
    refine ⟨[], Library.loop_of_none 0 ?_, rfl, rfl⟩
    rw [nalRound, hend offset h, Option.map_none]
  | cons n nals ih =>
    obtain ⟨hn, hns⟩ := List.forall_mem_cons.mp hn
    obtain ⟨founds, hloop, hbytes, hlast⟩ := ih (drop_foundAt h) hns
    have hround : nalRound find offset =
        some (foundAt offset n nals, (foundAt offset n nals).offset) := by
      rw [nalRound, hfind offset n nals h hn, Option.map_some]
    refine ⟨foundAt offset n nals :: founds, ?_, ?_, ?_⟩
    · rw [Library.loop_of_some _ hround]
      rw [List.length_cons, hloop, Option.map_some]
    · rw [List.map_cons, hbytes, bytes_foundAt h, List.map_cons]
    · rw [List.map_cons, hlast]
      cases nals with
      | nil => rfl
      | cons m nals => rfl

theorem splits_annexB {nals : List (Bool × List UInt8)} (hne : nals ≠ [])
    (hn : ∀ n ∈ nals, Delimited n.2) :
    Splits (findNextNal (annexB nals)) (annexB nals) (nals.map Prod.snd) := by
  obtain ⟨founds, hloop, hbytes, hlast⟩ := loop_nalRound
    (fun _ _ _ h hn => findNextNal_eq h hn) (fun _ h => findNextNal_end h)
    (show (annexB nals).drop 0 = annexB nals from rfl) hn
  rw [if_neg hne] at hlast
  exact ⟨_, founds, hloop, hbytes, by rwa [List.length_map]⟩

end CxxDeps.H264
