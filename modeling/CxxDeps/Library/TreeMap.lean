import Mathlib.Data.List.Basic
import Std.Data.ExtTreeMap

/-! Rewriting every entry of an ordered map, as a loop over the entries does it. -/

namespace CxxDeps.Library

variable {κ ν : Type*} {cmp : κ → κ → Ordering} [Std.TransCmp cmp]

/-- One round of the loop: the entry is replaced, or erased. -/
def updateEntry (f : κ → ν → Option ν) (m : Std.ExtTreeMap κ ν cmp) (e : κ × ν) :
    Std.ExtTreeMap κ ν cmp :=
  match f e.1 e.2 with
  | some v => m.insert e.1 v
  | none => m.erase e.1

/-- Every entry is replaced by `f`, or erased where `f` has no value. -/
def updateAll (f : κ → ν → Option ν) (m : Std.ExtTreeMap κ ν cmp) : Std.ExtTreeMap κ ν cmp :=
  m.toList.foldl (updateEntry f) m

theorem getElem?_updateEntry (f : κ → ν → Option ν) (m : Std.ExtTreeMap κ ν cmp) (e : κ × ν)
    (k : κ) : (updateEntry f m e)[k]? = if cmp e.1 k = .eq then f e.1 e.2 else m[k]? := by
  unfold updateEntry
  split
  · next v h => rw [Std.ExtTreeMap.getElem?_insert, h]
  · next h => rw [Std.ExtTreeMap.getElem?_erase, h]

variable [Std.LawfulEqCmp cmp]

/-- The loop sees every key once. -/
theorem getElem?_foldl_updateEntry (f : κ → ν → Option ν) (l : List (κ × ν))
    (m : Std.ExtTreeMap κ ν cmp) (hl : (l.map Prod.fst).Nodup) (k : κ) :
    (l.foldl (updateEntry f) m)[k]? =
      match l.find? (fun e => cmp e.1 k == .eq) with
      | some e => f e.1 e.2
      | none => m[k]? := by
  induction l generalizing m with
  | nil => rfl
  | cons e l ih =>
    obtain ⟨he, hl⟩ := List.nodup_cons.mp hl
    rw [List.foldl_cons, ih _ hl, List.find?_cons]
    by_cases hk : cmp e.1 k = .eq
    · have hke := Std.LawfulEqCmp.compare_eq_iff_eq.mp hk
      have hnone : l.find? (fun e => cmp e.1 k == .eq) = none := by
        rw [List.find?_eq_none]
        intro e' he' hk'
        have := Std.LawfulEqCmp.compare_eq_iff_eq.mp (beq_iff_eq.mp hk')
        exact he (List.mem_map.mpr ⟨e', he', this.trans hke.symm⟩)
      simp [hk, hnone, getElem?_updateEntry]
    · have hb : (cmp e.1 k == .eq) = false := by simpa using hk
      rw [hb]
      simp only [getElem?_updateEntry, if_neg hk]

/-- What a lookup finds after the loop. -/
@[simp] theorem getElem?_updateAll (f : κ → ν → Option ν) (m : Std.ExtTreeMap κ ν cmp) (k : κ) :
    (updateAll f m)[k]? = m[k]?.bind (f k) := by
  have hnodup : (m.toList.map Prod.fst).Nodup := by
    rw [Std.ExtTreeMap.map_fst_toList_eq_keys]
    exact Std.ExtTreeMap.nodup_keys
  rw [updateAll, getElem?_foldl_updateEntry f _ m hnodup]
  split
  · next e h =>
    have hb : (cmp e.1 k == .eq) = true := by simpa using List.find?_some h
    have hk := Std.LawfulEqCmp.compare_eq_iff_eq.mp (beq_iff_eq.mp hb)
    have hm := Std.ExtTreeMap.mem_toList_iff_getElem?_eq_some.mp (List.mem_of_find?_eq_some h)
    rw [← hk, hm]
    rfl
  · next h =>
    cases hm : m[k]? with
    | none => rfl
    | some v =>
      have := List.find?_eq_none.mp h (k, v)
        (Std.ExtTreeMap.mem_toList_iff_getElem?_eq_some.mpr hm)
      simp at this

end CxxDeps.Library
