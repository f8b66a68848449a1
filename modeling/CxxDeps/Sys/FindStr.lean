import CxxDeps.Sys.StringUtil

/-! `sys::string_util::find_str`, which looks for a text among `size` bytes. After a
mismatch it goes on with the next byte and the first character of the text, and does
not compare the byte of the mismatch again. Where `size` is more than there is, it may
read outside, which is the outer `none`. -/

namespace CxxDeps.Sys

/-- The loop of `find_str`, at byte `i` and character `j` of the text. -/
def findStrFrom (substr : Text) : ℕ → Text → ℕ → ℕ → Option (Option ℕ)
  | 0, _, _, _ => some none
  | _ + 1, [], _, _ => none
  | size + 1, c :: str, i, j =>
    if substr[j]? = some c then
      if j + 1 ≥ substr.length then some (some (i + 1 - substr.length))
      else findStrFrom substr size str (i + 1) (j + 1)
    else findStrFrom substr size str (i + 1) 0

/-- The offset of the text, if it is found. -/
def findStr (str : Text) (size : ℕ) (substr : Text) : Option (Option ℕ) :=
  if size < substr.length then some none else findStrFrom substr size str 0 0

/-! ### Bytes that have not arrived yet -/

variable {substr : Text}

/-- What is found among some bytes is found when there are more. -/
theorem findStrFrom_append {a : Text} {i j k : ℕ}
    (h : findStrFrom substr a.length a i j = some (some k)) (n : ℕ) (b : Text) :
    findStrFrom substr (a.length + n) (a ++ b) i j = some (some k) := by
  induction a generalizing i j with
  | nil => cases h
  | cons c a ih =>
    rw [List.length_cons, findStrFrom] at h
    rw [List.cons_append, List.length_cons, Nat.add_right_comm, findStrFrom]
    split_ifs at h ⊢
    · exact h
    · exact ih h
    · exact ih h

/-- What ends in a part of the text that is not there yet is not found. -/
theorem findStrFrom_take {a b : Text} {i j k : ℕ} (hj : j ≤ i)
    (h : findStrFrom substr (a ++ b).length (a ++ b) i j = some (some k))
    (hend : i + a.length < k + substr.length) :
    findStrFrom substr a.length a i j = some none := by
  induction a generalizing i j with
  | nil => rfl
  | cons c a ih =>
    rw [List.cons_append, List.length_cons, findStrFrom] at h
    rw [List.length_cons, findStrFrom]
    rw [List.length_cons] at hend
    split_ifs at h ⊢ with hc hlast
    · -- the text would end here
      cases h
      omega
    · exact ih (by omega) h (by omega)
    · exact ih (by omega) h (by omega)

theorem findStr_append {a : Text} {k : ℕ} (h : findStr a a.length substr = some (some k))
    (n : ℕ) (b : Text) : findStr (a ++ b) (a.length + n) substr = some (some k) := by
  unfold findStr at h ⊢
  split_ifs at h with ha
  · cases h
  · rw [if_neg (by omega)]
    exact findStrFrom_append h n b

theorem findStr_take {a b : Text} {k : ℕ}
    (h : findStr (a ++ b) (a ++ b).length substr = some (some k))
    (hend : a.length < k + substr.length) : findStr a a.length substr = some none := by
  unfold findStr at h ⊢
  split_ifs at h with hshort
  · cases h
  · split_ifs
    · rfl
    · exact findStrFrom_take (Nat.le_refl 0) h (by omega)

/-! ### Text that the loop passes over -/

/-- From character `j` of the text the loop passes over `a` and is at character `j'`. -/
def Passes (substr : Text) (j : ℕ) (a : Text) (j' : ℕ) : Prop :=
  ∀ (size : ℕ) (b : Text) (i : ℕ),
    findStrFrom substr (a.length + size) (a ++ b) i j =
      findStrFrom substr size b (i + a.length) j'

theorem Passes.append {j j' j'' : ℕ} {a b : Text} (h : Passes substr j a j')
    (h' : Passes substr j' b j'') : Passes substr j (a ++ b) j'' := by
  intro size c i
  rw [List.append_assoc, List.length_append, Nat.add_assoc, h, h', Nat.add_assoc]

theorem Passes.nil (j : ℕ) : Passes substr j [] j := by
  intro size b i
  simp

/-- A byte that is not the next character takes the loop back to the first one. -/
theorem Passes.miss {j : ℕ} {c : UInt8} (h : substr[j]? ≠ some c) : Passes substr j [c] 0 := by
  intro size b i
  rw [List.singleton_append, List.length_singleton, Nat.add_comm 1, findStrFrom, if_neg h]

/-- The next character, but for the last one. -/
theorem Passes.hit {j : ℕ} {c : UInt8} (h : substr[j]? = some c) (hlast : j + 1 < substr.length) :
    Passes substr j [c] (j + 1) := by
  intro size b i
  rw [List.singleton_append, List.length_singleton, Nat.add_comm 1, findStrFrom, if_pos h,
    if_neg (by omega)]

/-- Text without the first character. -/
theorem Passes.of_notMem {first : UInt8} {a : Text} (h : first ∉ a) :
    Passes (first :: substr) 0 a 0 := by
  induction a with
  | nil => exact Passes.nil 0
  | cons c a ih =>
    obtain ⟨hc, ha⟩ := List.ne_and_not_mem_of_not_mem_cons h
    have hmiss : (first :: substr)[0]? ≠ some c := by
      rw [List.getElem?_cons_zero]
      exact fun h => hc (Option.some.inj h)
    exact (Passes.miss hmiss).append (ih ha)

/-! ### Where the text is found -/

/-- With `j` characters of the text read last, what is found is the text. -/
theorem findStrFrom_spec {size : ℕ} {seen str : Text} {j k : ℕ}
    (hseen : substr.take j <:+ seen)
    (h : findStrFrom substr size str seen.length j = some (some k)) :
    ∃ a t, seen ++ str = a ++ (substr ++ t) ∧ a.length = k := by
  induction size generalizing seen str j with
  | zero => cases h
  | succ size ih =>
    cases str with
    | nil => cases h
    | cons c str =>
      have hlen : seen.length + 1 = (seen ++ [c]).length := by simp
      have happend : seen ++ c :: str = seen ++ [c] ++ str := by simp
      rw [findStrFrom, hlen] at h
      rw [happend]
      split_ifs at h with hc hlast
      · -- the last character of the text
        obtain ⟨a, rfl⟩ := hseen
        have hj : substr.take j ++ [c] = substr := by
          have htake : substr.take (j + 1) = substr.take j ++ [c] := by
            rw [List.take_add_one, hc, Option.toList_some]
          rw [← htake, List.take_of_length_le hlast]
        rw [List.append_assoc a, hj] at h ⊢
        refine ⟨a, str, List.append_assoc _ _ _, ?_⟩
        rw [List.length_append, Nat.add_sub_cancel] at h
        exact Option.some.inj (Option.some.inj h)
      · apply ih _ h
        obtain ⟨a, rfl⟩ := hseen
        rw [List.take_add_one, hc, Option.toList_some, List.append_assoc]
        exact List.suffix_append a _
      · exact ih (by rw [List.take_zero]; exact List.nil_suffix) h

/-- Where something is found, the text stands. -/
theorem findStr_spec {str : Text} {size k : ℕ} (h : findStr str size substr = some (some k)) :
    ∃ a t, str = a ++ (substr ++ t) ∧ a.length = k := by
  unfold findStr at h
  split_ifs at h
  · cases h
  · have hnil : substr.take 0 <:+ ([] : Text) := List.nil_suffix
    exact findStrFrom_spec hnil h

/-- Among the bytes that are there the search stays inside. -/
theorem findStrFrom_ne_none {size : ℕ} {str : Text} (h : size ≤ str.length) (i j : ℕ) :
    findStrFrom substr size str i j ≠ none := by
  induction size generalizing str i j with
  | zero => rw [findStrFrom]; exact Option.some_ne_none _
  | succ size ih =>
    cases str with
    | nil => cases h
    | cons c str =>
      have hsize : size ≤ str.length := Nat.le_of_succ_le_succ h
      rw [findStrFrom]
      split_ifs
      · exact Option.some_ne_none _
      · exact ih hsize _ _
      · exact ih hsize _ _

theorem findStr_ne_none (str substr : Text) : findStr str str.length substr ≠ none := by
  unfold findStr
  split_ifs
  · exact Option.some_ne_none _
  · exact findStrFrom_ne_none (Nat.le_refl _) 0 0

/-- Also among bytes that are too few for the text the loop does not find it. -/
theorem findStrFrom_of_findStr {str : Text} (h : findStr str str.length substr = some none) :
    findStrFrom substr str.length str 0 0 = some none := by
  unfold findStr at h
  split_ifs at h with hshort
  · cases hloop : findStrFrom substr str.length str 0 0 with
    | none => exact absurd hloop (findStrFrom_ne_none (Nat.le_refl _) 0 0)
    | some found =>
      cases found with
      | none => rfl
      | some k =>
        have hnil : substr.take 0 <:+ ([] : Text) := List.nil_suffix
        obtain ⟨a, t, hstr, -⟩ := findStrFrom_spec hnil hloop
        rw [List.nil_append] at hstr
        rw [hstr] at hshort
        simp only [List.length_append] at hshort
        omega
  · exact h

/-- A search beyond the bytes leaves them, unless the text is found before. -/
theorem findStrFrom_beyond {str : Text} {i j : ℕ}
    (h : findStrFrom substr str.length str i j = some none) (n : ℕ) :
    findStrFrom substr (str.length + (n + 1)) str i j = none := by
  induction str generalizing i j with
  | nil => rw [List.length_nil, Nat.zero_add, findStrFrom]
  | cons c str ih =>
    rw [List.length_cons, findStrFrom] at h
    rw [List.length_cons, Nat.add_right_comm, findStrFrom]
    split_ifs at h ⊢
    · cases h
    · exact ih h
    · exact ih h

end CxxDeps.Sys
