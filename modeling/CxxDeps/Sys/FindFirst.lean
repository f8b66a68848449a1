import Mathlib.Data.Nat.Find
import CxxDeps.Sys.FindStr

/-! When `find_str` finds the first occurrence. The byte of a mismatch is not compared with
the first character, so an occurrence that begins inside a failed attempt, or at the byte
that ends it, is passed over. -/

namespace CxxDeps.Sys

variable {substr str : Text}

/-- What a search has to give: the first position of the text, or nothing if it has none. -/
def IsFirst (substr str : Text) : Option ℕ → Prop
  | some k => substr <+: str.drop k ∧ ∀ m < k, ¬ substr <+: str.drop m
  | none => ∀ m, ¬ substr <+: str.drop m

/-- Bytes that are failed attempts, one behind the other: each has the first `j` characters
of the text and then a byte that is not the next one. -/
inductive Attempts (substr : Text) : Text → Prop
  | nil : Attempts substr []
  | snoc {a : Text} {j : ℕ} {c : UInt8} (h : Attempts substr a) (hj : j < substr.length)
      (hc : substr[j]? ≠ some c) : Attempts substr (a ++ substr.take j ++ [c])

/-! ### The loop on failed attempts -/

theorem Passes.take {j : ℕ} (hj : j < substr.length) : Passes substr 0 (substr.take j) j := by
  induction j with
  | zero => exact Passes.nil 0
  | succ j ih =>
    have hget : substr[j]? = some substr[j] := List.getElem?_eq_getElem (by omega)
    rw [List.take_add_one, hget, Option.toList_some]
    exact (ih (by omega)).append (Passes.hit hget hj)

theorem Attempts.passes {a : Text} (h : Attempts substr a) : Passes substr 0 a 0 := by
  induction h with
  | nil => exact Passes.nil 0
  | snoc _ hj hc ih => exact (ih.append (Passes.take hj)).append (Passes.miss hc)

/-- Behind failed attempts the text is found. -/
theorem findStr_of_attempts {a : Text} (h : substr ≠ []) (ha : Attempts substr a) (b : Text) :
    findStr (a ++ (substr ++ b)) (a ++ (substr ++ b)).length substr = some (some a.length) := by
  have hpos := List.length_pos_of_ne_nil h
  obtain ⟨front, last, hcut⟩ := List.eq_nil_or_concat substr |>.resolve_left h
  rw [List.concat_eq_append] at hcut
  have hlen : substr.length = front.length + 1 := by rw [hcut]; simp
  have hfront : substr.take front.length = front := by rw [hcut]; simp
  have hlast : substr[front.length]? = some last := by rw [hcut]; simp
  have hpass := ha.passes.append (Passes.take (j := front.length) (by omega))
  have hbytes : a ++ (substr ++ b) = a ++ substr.take front.length ++ (last :: b) := by
    rw [hfront]
    conv_lhs => rw [hcut]
    simp
  unfold findStr
  rw [if_neg (by simp only [List.length_append]; omega), hbytes, List.length_append, hpass,
    List.length_cons, findStrFrom, if_pos hlast, if_pos (by omega), List.length_append, hfront]
  congr 2
  omega

/-- What is found stands behind failed attempts. -/
theorem attempts_of_findStrFrom {size : ℕ} {seen str : Text} {j k : ℕ}
    (hseen : Attempts substr seen) (hj : j < substr.length)
    (h : findStrFrom substr size str (seen.length + j) j = some (some k)) :
    ∃ a b, Attempts substr a ∧ seen ++ substr.take j ++ str = a ++ (substr ++ b) ∧
      a.length = k := by
  induction size generalizing seen str j with
  | zero => cases h
  | succ size ih =>
    cases str with
    | nil => cases h
    | cons c str =>
      rw [findStrFrom] at h
      split_ifs at h with hc hlast
      · -- the last character of the text
        have hwhole : substr.take j ++ [c] = substr := by
          have htake : substr.take (j + 1) = substr.take j ++ [c] := by
            rw [List.take_add_one, hc, Option.toList_some]
          rw [← htake, List.take_of_length_le hlast]
        refine ⟨seen, str, hseen, ?_, ?_⟩
        · rw [← List.append_assoc seen substr, ← List.singleton_append, ← List.append_assoc,
            List.append_assoc seen, hwhole]
        · have := Option.some.inj (Option.some.inj h)
          omega
      · rw [Nat.add_assoc] at h
        obtain ⟨a, b, ha, hbytes, hk⟩ := ih hseen (by omega) h
        refine ⟨a, b, ha, ?_, hk⟩
        rw [← hbytes, List.take_add_one, hc, Option.toList_some]
        simp
      · have hlen : seen.length + j + 1 = (seen ++ substr.take j ++ [c]).length + 0 := by
          simp only [List.length_append, List.length_take, List.length_singleton]
          omega
        rw [hlen] at h
        obtain ⟨a, b, ha, hbytes, hk⟩ := ih (hseen.snoc hj hc) (by omega) h
        refine ⟨a, b, ha, ?_, hk⟩
        rw [← hbytes]
        simp

/-! ### The first occurrence -/

theorem prefix_drop_iff {k : ℕ} (h : substr ≠ []) :
    substr <+: str.drop k ↔ ∃ a b, str = a ++ (substr ++ b) ∧ a.length = k := by
  constructor
  · rintro ⟨b, hb⟩
    refine ⟨str.take k, b, by rw [hb, List.take_append_drop], ?_⟩
    have hne : str.drop k ≠ [] := by
      intro hnil
      rw [hnil] at hb
      exact h (List.append_eq_nil_iff.mp hb).1
    have := List.length_pos_of_ne_nil hne
    rw [List.length_drop] at this
    rw [List.length_take]
    omega
  · rintro ⟨a, b, rfl, rfl⟩
    rw [List.drop_left]
    exact ⟨b, rfl⟩

theorem exists_isFirst {m : ℕ} (h : substr <+: str.drop m) :
    ∃ k, IsFirst substr str (some k) := by
  have hex : ∃ m, substr <+: str.drop m := ⟨m, h⟩
  exact ⟨Nat.find hex, Nat.find_spec hex, fun _ hm => Nat.find_min hex hm⟩

theorem IsFirst.unique {m k : ℕ} (hm : IsFirst substr str (some m))
    (hk : IsFirst substr str (some k)) : m = k := by
  rcases Nat.lt_trichotomy m k with hlt | heq | hlt
  · exact absurd hm.1 (hk.2 m hlt)
  · exact heq
  · exact absurd hk.1 (hm.2 k hlt)

/-- What is found first stands behind failed attempts. -/
theorem attempts_of_findStr {k : ℕ} (h : substr ≠ [])
    (hfound : findStr str str.length substr = some (some k)) : Attempts substr (str.take k) := by
  unfold findStr at hfound
  split_ifs at hfound
  · cases hfound
  · obtain ⟨a, b, ha, hbytes, hlen⟩ :=
      attempts_of_findStrFrom Attempts.nil (List.length_pos_of_ne_nil h) hfound
    rw [List.take_zero, List.append_nil, List.nil_append] at hbytes
    rw [hbytes, ← hlen, List.take_left]
    exact ha

theorem findStr_of_isFirst {k : ℕ} (h : substr ≠ []) (hk : IsFirst substr str (some k))
    (ha : Attempts substr (str.take k)) : findStr str str.length substr = some (some k) := by
  obtain ⟨a, b, rfl, rfl⟩ := (prefix_drop_iff h).mp hk.1
  rw [List.take_left] at ha
  exact findStr_of_attempts h ha b

/-- The search gives the first occurrence just when there is none, or when the bytes in
front of it are failed attempts. -/
theorem findStr_first_iff (str : Text) {substr : Text} (h : substr ≠ []) :
    (∃ found, findStr str str.length substr = some found ∧ IsFirst substr str found) ↔
      ∀ k, IsFirst substr str (some k) → Attempts substr (str.take k) := by
  constructor
  · rintro ⟨found, hfound, hfirst⟩ k hk
    cases found with
    | none => exact absurd hk.1 (hfirst k)
    | some m =>
      rw [← hfirst.unique hk]
      exact attempts_of_findStr h hfound
  · intro hattempts
    by_cases hex : ∃ m, substr <+: str.drop m
    · obtain ⟨m, hm⟩ := hex
      obtain ⟨k, hk⟩ := exists_isFirst hm
      exact ⟨some k, findStr_of_isFirst h hk (hattempts k hk), hk⟩
    · cases hfound : findStr str str.length substr with
      | none => exact absurd hfound (findStr_ne_none str substr)
      | some found =>
        cases found with
        | none => exact ⟨none, rfl, fun m hm => hex ⟨m, hm⟩⟩
        | some k =>
          have hstands := findStr_spec hfound
          exact absurd ⟨k, (prefix_drop_iff h).mpr hstands⟩ hex

/-- The end of a header, behind two lines. -/
theorem findStr_first_iff_header :
    ∃ found, findStr (text "A: b\r\nC: d\r\n\r\n") 14 (text "\r\n\r\n") = some found ∧
      IsFirst (text "\r\n\r\n") (text "A: b\r\nC: d\r\n\r\n") found := by
  have hfirst : IsFirst (text "\r\n\r\n") (text "A: b\r\nC: d\r\n\r\n") (some 10) :=
    ⟨by decide, by decide⟩
  apply (findStr_first_iff (text "A: b\r\nC: d\r\n\r\n") (by decide)).mpr
  intro k hk
  rw [hk.unique hfirst]
  exact attempts_of_findStr (by decide) (by decide)

/-- The end of a header whose last line has one more carriage return is not found. -/
theorem findStr_second_return :
    ¬ ∀ str substr : Text, substr ≠ [] →
      ∃ found, findStr str str.length substr = some found ∧ IsFirst substr str found := by
  intro h
  obtain ⟨found, hfound, hfirst⟩ := h (text "a\r\r\n\r\n") (text "\r\n\r\n") (by decide)
  have hnone : findStr (text "a\r\r\n\r\n") 6 (text "\r\n\r\n") = some none := by decide
  obtain rfl : none = found := Option.some.inj (hnone.symm.trans hfound)
  exact hfirst 2 (by decide)

end CxxDeps.Sys
