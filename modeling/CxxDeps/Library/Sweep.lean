import Mathlib.Data.List.Basic
import Std.Data.ExtTreeMap

/-! One pass over a map in the order of its keys that erases the entries whose link leads
nowhere. An entry that is erased later than one that refers to it does not take it along:
the pass erases the entries at the ends of falling chains of links. -/

namespace CxxDeps.Library

variable {κ ν : Type*} {cmp : κ → κ → Ordering}

/-- The keys from which a falling chain of links leads to one that is gone. -/
inductive Swept (cmp : κ → κ → Ordering) (next : κ → Option κ) (gone : κ → Prop) : κ → Prop
  | lost {k a : κ} : next k = some a → gone a → Swept cmp next gone k
  | chained {k a : κ} : next k = some a → cmp a k = .lt → Swept cmp next gone a →
      Swept cmp next gone k

theorem swept_iff {next : κ → Option κ} {gone : κ → Prop} {k : κ} :
    Swept cmp next gone k ↔
      ∃ a, next k = some a ∧ (gone a ∨ (cmp a k = .lt ∧ Swept cmp next gone a)) := by
  constructor
  · rintro (⟨ha, hgone⟩ | ⟨ha, hlt, hs⟩)
    · exact ⟨_, ha, .inl hgone⟩
    · exact ⟨_, ha, .inr ⟨hlt, hs⟩⟩
  · rintro ⟨a, ha, hgone | ⟨hlt, hs⟩⟩
    · exact .lost ha hgone
    · exact .chained ha hlt hs

variable [Std.TransCmp cmp]

/-- An entry with a link is erased when the key it names is refused or has no entry (any
more). -/
def sweepEntry (link : ν → Option κ) (refused : κ → Bool) (m : Std.ExtTreeMap κ ν cmp)
    (e : κ × ν) : Std.ExtTreeMap κ ν cmp :=
  match link e.2 with
  | none => m
  | some a => if refused a || !m.contains a then m.erase e.1 else m

def sweep (link : ν → Option κ) (refused : κ → Bool) (m : Std.ExtTreeMap κ ν cmp) :
    Std.ExtTreeMap κ ν cmp :=
  m.toList.foldl (sweepEntry link refused) m

variable {link : ν → Option κ} {refused : κ → Bool} [Std.LawfulEqCmp cmp]
  {m cur : Std.ExtTreeMap κ ν cmp} {rest : List (κ × ν)}

omit [Std.TransCmp cmp] in
theorem cmp_self_ne_lt (a : κ) : cmp a a ≠ .lt := fun h => by
  rw [show cmp a a = .eq from Std.ReflCmp.compare_self] at h
  cases h

/-- Of the entries before the rest those of `D` are gone, and everything else is as it was. -/
structure Sweeping (m : Std.ExtTreeMap κ ν cmp) (D : κ → Prop) (rest : List (κ × ν))
    (cur : Std.ExtTreeMap κ ν cmp) : Prop where
  mem : ∀ e ∈ rest, m[e.1]? = some e.2
  before : ∀ k v, m[k]? = some v → (∃ e ∈ rest, e.1 = k) ∨ ∀ e ∈ rest, cmp k e.1 = .lt
  erased : ∀ k, D k → (∀ e ∈ rest, e.1 ≠ k) → cur[k]? = none
  kept : ∀ k, (D k → ∃ e ∈ rest, e.1 = k) → cur[k]? = m[k]?

/-- The round of an entry erases it exactly if it is to be erased. -/
theorem Sweeping.sweepEntry_eq {D : κ → Prop} {e : κ × ν}
    (hD : ∀ k, D k ↔ ∃ a, m[k]?.bind link = some a ∧
      ((refused a = true ∨ m[a]? = none) ∨ (cmp a k = .lt ∧ D a)))
    (hsorted : ∀ e' ∈ rest, cmp e.1 e'.1 = .lt) (h : Sweeping m D (e :: rest) cur) :
    (D e.1 ∧ sweepEntry link refused cur e = cur.erase e.1) ∨
      (¬D e.1 ∧ sweepEntry link refused cur e = cur) := by
  have hnext : m[e.1]?.bind link = link e.2 := by rw [h.mem e List.mem_cons_self]; rfl
  have hDe := hD e.1
  rw [hnext] at hDe
  unfold sweepEntry
  rcases hlink : link e.2 with _ | a
  · refine .inr ⟨fun hd => ?_, rfl⟩
    obtain ⟨a, ha, -⟩ := hDe.mp hd
    rw [hlink] at ha
    cases ha
  dsimp only
  have hDa : D e.1 ↔ (refused a = true ∨ m[a]? = none) ∨ (cmp a e.1 = .lt ∧ D a) := by
    rw [hDe, hlink]
    exact ⟨fun ⟨b, hb, hc⟩ => Option.some.inj hb ▸ hc, fun hc => ⟨a, rfl, hc⟩⟩
  have hcontains : cur.contains a = false ↔ m[a]? = none ∨ (cmp a e.1 = .lt ∧ D a) := by
    rw [Std.ExtTreeMap.contains_eq_isSome_getElem?, Option.isSome_eq_false_iff,
      Option.isNone_iff_eq_none]
    constructor
    · intro hnone
      rcases hm : m[a]? with _ | v
      · exact .inl rfl
      · have hgone : ¬(D a → ∃ e' ∈ e :: rest, e'.1 = a) := fun hkept => by
          rw [h.kept a hkept, hm] at hnone
          cases hnone
        rw [Classical.not_imp] at hgone
        refine .inr ⟨?_, hgone.1⟩
        exact (h.before a v hm).resolve_left hgone.2 e List.mem_cons_self
    · rintro (hnone | ⟨hlt, hd⟩)
      · by_cases hin : D a → ∃ e' ∈ e :: rest, e'.1 = a
        · rw [h.kept a hin, hnone]
        · rw [Classical.not_imp] at hin
          exact h.erased a hin.1 fun e' he' heq => hin.2 ⟨e', he', heq⟩
      · refine h.erased a hd fun e' he' heq => ?_
        rcases List.mem_cons.mp he' with rfl | he'
        · rw [heq] at hlt
          exact cmp_self_ne_lt a hlt
        · have hlt' := Std.TransCmp.lt_trans hlt (hsorted e' he')
          rw [heq] at hlt'
          exact cmp_self_ne_lt a hlt'
  by_cases hd : D e.1
  · refine .inl ⟨hd, if_pos ?_⟩
    rw [Bool.or_eq_true, Bool.not_eq_true', hcontains]
    exact or_assoc.mp (hDa.mp hd)
  · refine .inr ⟨hd, if_neg fun hc => hd (hDa.mpr ?_)⟩
    rw [Bool.or_eq_true, Bool.not_eq_true', hcontains] at hc
    exact or_assoc.mpr hc

theorem Sweeping.step {D : κ → Prop} {e : κ × ν}
    (hD : ∀ k, D k ↔ ∃ a, m[k]?.bind link = some a ∧
      ((refused a = true ∨ m[a]? = none) ∨ (cmp a k = .lt ∧ D a)))
    (hsorted : ∀ e' ∈ rest, cmp e.1 e'.1 = .lt) (h : Sweeping m D (e :: rest) cur) :
    Sweeping m D rest (sweepEntry link refused cur e) := by
  have hnotin : ∀ e' ∈ rest, e'.1 ≠ e.1 := fun e' he' heq => by
    have hlt := hsorted e' he'
    rw [heq] at hlt
    exact cmp_self_ne_lt e.1 hlt
  obtain ⟨hother, hself⟩ : (∀ k, k ≠ e.1 → (sweepEntry link refused cur e)[k]? = cur[k]?) ∧
      ((D e.1 ∧ (sweepEntry link refused cur e)[e.1]? = none) ∨
        (¬D e.1 ∧ (sweepEntry link refused cur e)[e.1]? = cur[e.1]?)) := by
    rcases h.sweepEntry_eq hD hsorted with ⟨hd, heq⟩ | ⟨hd, heq⟩ <;> rw [heq]
    · refine ⟨fun k hk => ?_, .inl ⟨hd, Std.ExtTreeMap.getElem?_erase_self⟩⟩
      rw [Std.ExtTreeMap.getElem?_erase, if_neg]
      exact fun hcmp => hk (Std.LawfulEqCmp.compare_eq_iff_eq.mp hcmp).symm
    · exact ⟨fun _ _ => rfl, .inr ⟨hd, rfl⟩⟩
  refine ⟨fun e' he' => h.mem e' (List.mem_cons_of_mem _ he'), fun k v hm => ?_, fun k hd hk => ?_,
    fun k hk => ?_⟩
  · rcases h.before k v hm with ⟨e', he', rfl⟩ | hlt
    · rcases List.mem_cons.mp he' with rfl | he'
      · exact .inr hsorted
      · exact .inl ⟨e', he', rfl⟩
    · exact .inr fun e' he' => hlt e' (List.mem_cons_of_mem _ he')
  · by_cases hke : k = e.1
    · subst hke
      exact (hself.resolve_right fun hno => hno.1 hd).2
    · rw [hother k hke]
      exact h.erased k hd (List.forall_mem_cons.mpr ⟨fun heq => hke heq.symm, hk⟩)
  · by_cases hke : k = e.1
    · subst hke
      have hno : ¬D e.1 := fun hd => by
        obtain ⟨e', he', heq⟩ := hk hd
        exact hnotin e' he' heq
      rw [(hself.resolve_left fun hyes => hno hyes.1).2]
      exact h.kept _ fun hd => absurd hd hno
    · rw [hother k hke]
      exact h.kept k fun hd => by
        obtain ⟨e', he', heq⟩ := hk hd
        exact ⟨e', List.mem_cons_of_mem _ he', heq⟩

theorem Sweeping.foldl {D : κ → Prop}
    (hD : ∀ k, D k ↔ ∃ a, m[k]?.bind link = some a ∧
      ((refused a = true ∨ m[a]? = none) ∨ (cmp a k = .lt ∧ D a)))
    (hsorted : rest.Pairwise fun e e' => cmp e.1 e'.1 = .lt) (h : Sweeping m D rest cur) :
    Sweeping m D [] (rest.foldl (sweepEntry link refused) cur) := by
  induction rest generalizing cur with
  | nil => exact h
  | cons e rest ih =>
    obtain ⟨hfirst, hrest⟩ := List.pairwise_cons.mp hsorted
    exact ih hrest (h.step hD hfirst)

/-- The pass erases the entries whose chains of links fall to a key that is refused or has no
entry, and no others. -/
theorem sweeping_sweep (link : ν → Option κ) (refused : κ → Bool) (m : Std.ExtTreeMap κ ν cmp) :
    Sweeping m (Swept cmp (fun k => m[k]?.bind link) fun a => refused a = true ∨ m[a]? = none)
      [] (sweep link refused m) := by
  refine Sweeping.foldl (fun k => swept_iff) Std.ExtTreeMap.ordered_keys_toList
    ⟨fun e he => Std.ExtTreeMap.mem_toList_iff_getElem?_eq_some.mp he, fun k v hm => .inl ⟨(k, v),
      Std.ExtTreeMap.mem_toList_iff_getElem?_eq_some.mpr hm, rfl⟩, fun k hd hk => ?_,
      fun _ _ => rfl⟩
  obtain ⟨a, ha, -⟩ := swept_iff.mp hd
  obtain ⟨v, hv, -⟩ := Option.bind_eq_some_iff.mp ha
  exact absurd rfl (hk (k, v) (Std.ExtTreeMap.mem_toList_iff_getElem?_eq_some.mpr hv))

theorem getElem?_sweep_of_swept {k : κ}
    (h : Swept cmp (fun k => m[k]?.bind link) (fun a => refused a = true ∨ m[a]? = none) k) :
    (sweep link refused m)[k]? = none :=
  (sweeping_sweep link refused m).erased k h (List.forall_mem_nil _)

theorem getElem?_sweep_of_not_swept {k : κ}
    (h : ¬Swept cmp (fun k => m[k]?.bind link) (fun a => refused a = true ∨ m[a]? = none) k) :
    (sweep link refused m)[k]? = m[k]? :=
  (sweeping_sweep link refused m).kept k fun hd => absurd hd h

end CxxDeps.Library
