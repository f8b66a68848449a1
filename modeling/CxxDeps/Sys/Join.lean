import CxxDeps.Sys.Split

/-! `sys::string_util::join`, and what it makes of the parts of `split`. It writes the
separator behind every part and then cuts the text at the last byte that is one of the
separator's bytes, which is the last byte of the text: of a separator of several bytes all
but one stay. -/

namespace CxxDeps.Sys

/-- `find_last_of`: the last position of one of the characters. -/
def findLastOf (chars s : Text) : Option ℕ :=
  (s.reverse.findIdx? chars.contains).map fun i => s.length - 1 - i

/-- The loop of `join`. -/
def appendSegments (separator : Text) : List Text → Text → Text
  | [], s => s
  | segment :: segments, s => appendSegments separator segments (s ++ segment ++ separator)

/-- The text is cut at the last of the characters. -/
def eraseLastOf (chars s : Text) : Text :=
  match findLastOf chars s with
  | some pos => s.take pos
  | none => s

def join (separator : Text) (segments : List Text) : Text :=
  let s := appendSegments separator segments []
  if segments.length > 0 then eraseLastOf separator s else s

/-! ### What is cut off -/

theorem eraseLastOf_append {chars : Text} {c : UInt8} (h : c ∈ chars) (s : Text) :
    eraseLastOf chars (s ++ [c]) = s := by
  have hc : chars.contains c = true := by simpa using h
  have hpos : findLastOf chars (s ++ [c]) = some s.length := by
    rw [findLastOf, List.reverse_append, List.reverse_singleton, List.singleton_append,
      List.findIdx?_cons, if_pos hc]
    simp
  rw [eraseLastOf, hpos]
  exact List.take_left

theorem appendSegments_eq (separator : Text) (segments : List Text) (s : Text) :
    appendSegments separator segments s = s ++ segments.flatMap (· ++ separator) := by
  induction segments generalizing s with
  | nil => simp [appendSegments]
  | cons segment segments ih => simp [appendSegments, ih]

/-- Only the last byte of the last separator is cut off. -/
theorem join_eq {separator : Text} (h : separator ≠ []) (segments : List Text) :
    join separator segments = (segments.flatMap (· ++ separator)).dropLast := by
  rw [join]
  simp only [appendSegments_eq, List.nil_append]
  rcases List.eq_nil_or_concat segments with rfl | ⟨segments, segment, rfl⟩
  · rfl
  · have hsep := List.dropLast_append_getLast h
    have hwritten : (segments ++ [segment]).flatMap (· ++ separator) =
        segments.flatMap (· ++ separator) ++ segment ++ separator.dropLast ++
          [separator.getLast h] := by
      simp [hsep]
    rw [List.concat_eq_append, hwritten, if_pos (by simp), eraseLastOf_append (List.getLast_mem h),
      List.dropLast_concat]

/-- Segments that have a separator of one byte behind them, and one that has none. -/
theorem flatMap_append_segment (c : UInt8) (segments : List Text) (last : Text) :
    segments.flatMap (· ++ [c]) ++ last = [c].intercalate (segments ++ [last]) := by
  induction segments with
  | nil => simp
  | cons segment segments ih =>
    rw [List.flatMap_cons, List.append_assoc, ih, List.cons_append,
      List.intercalate_cons_of_ne_nil (by simp)]

theorem flatMap_append_separator (c : UInt8) {segments : List Text} (h : segments ≠ []) :
    segments.flatMap (· ++ [c]) = [c].intercalate segments ++ [c] := by
  obtain ⟨front, last, rfl⟩ := (List.eq_nil_or_concat segments).resolve_left h
  rw [List.concat_eq_append, ← flatMap_append_segment]
  simp

/-! ### The parts of a text -/

/-- With the separator behind each of them the parts are the text with one more separator. -/
theorem splitLoop_joined {pattern : Text} (hp : pattern ≠ []) {n : ℕ} {src : Text}
    (hn : src.length < n) :
    (splitLoop pattern none false n src []).flatMap (· ++ pattern) = src ++ pattern := by
  induction n generalizing src with
  | zero => omega
  | succ n ih =>
    rw [splitLoop]
    simp only [Option.any_none, Bool.false_eq_true, if_false]
    cases hbreak : breakOn pattern src with
    | none => simp [keepPart]
    | some r =>
      obtain ⟨s, rest⟩ := r
      have hshort := breakOn_shorter hp hbreak
      show (splitLoop pattern none false n rest [s]).flatMap _ = _
      rw [splitLoop_eq, List.flatMap_append, ih (by omega), breakOn_spec hbreak]
      simp

theorem join_split_eq {s separator : Text} (hs : s ≠ []) (hsep : separator ≠ []) :
    join separator (split s separator none false) = s ++ separator.dropLast := by
  rw [join_eq hsep, split, if_neg (by simp [hs, hsep]), splitLoop_joined hsep (by omega),
    List.dropLast_append_of_ne_nil hsep]

/-- The parts of a text, joined again, are the text just when the separator is one byte. -/
theorem join_split_iff {s separator : Text} (hs : s ≠ []) (hsep : separator ≠ []) :
    join separator (split s separator none false) = s ↔ separator.length = 1 := by
  have hpos := List.length_pos_of_ne_nil hsep
  rw [join_split_eq hs hsep, List.append_right_eq_self, ← List.length_eq_zero_iff,
    List.length_dropLast]
  omega

theorem join_split_iff_csv :
    join (text ",") (split (text ",a,,b") (text ",") none false) = text ",a,,b" :=
  (join_split_iff (by decide) (by decide)).mpr rfl

/-- A text of two lines gets a carriage return behind it. -/
theorem join_split_lines :
    ¬ ∀ s separator : Text, s ≠ [] → separator ≠ [] →
      join separator (split s separator none false) = s := by
  intro h
  have hlines := h (text "a\r\nb") (text "\r\n") (by decide) (by decide)
  revert hlines
  decide

/-! ### Parts, joined and split again -/

/-- Parts that are not empty and do not have the separator. -/
theorem split_intercalate {c : UInt8} {parts : List Text} (h : ∀ a ∈ parts, a ≠ [] ∧ c ∉ a) :
    split ([c].intercalate parts) [c] none true = parts := by
  induction parts with
  | nil => rfl
  | cons a parts ih =>
    obtain ⟨⟨ha, hc⟩, hparts⟩ := List.forall_mem_cons.mp h
    cases parts with
    | nil => simpa using split_of_notMem hc ha
    | cons b parts =>
      rw [List.intercalate_cons_cons, List.append_assoc, List.singleton_append,
        split_append hc ha, ih hparts]

/-- Parts, each with the separator in front. -/
theorem append_flatMap_cons (c : UInt8) (head : Text) (parts : List Text) :
    head ++ parts.flatMap (c :: ·) = [c].intercalate (head :: parts) := by
  induction parts generalizing head with
  | nil => simp
  | cons part parts ih =>
    rw [List.flatMap_cons, List.intercalate_cons_cons, ← ih]
    simp

/-- A head, and what is written behind it, each with the separator in front. -/
theorem split_append_flatMap {α : Type*} {c : UInt8} {head : Text} (hhead : head ≠ [] ∧ c ∉ head)
    {write : α → Text} {items : List α} (h : ∀ a ∈ items, write a ≠ [] ∧ c ∉ write a) :
    split (head ++ items.flatMap fun a => c :: write a) [c] none true =
      head :: items.map write := by
  have hparts : ∀ part ∈ head :: items.map write, part ≠ [] ∧ c ∉ part := by
    refine List.forall_mem_cons.mpr ⟨hhead, ?_⟩
    intro part hpart
    obtain ⟨a, ha, rfl⟩ := List.mem_map.mp hpart
    exact h a ha
  have hwritten : head ++ items.flatMap (fun a => c :: write a) =
      [c].intercalate (head :: items.map write) := by
    rw [← append_flatMap_cons, List.flatMap_map]
  rw [hwritten]
  exact split_intercalate hparts

end CxxDeps.Sys
