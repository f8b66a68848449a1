import Mathlib.Data.List.Basic

/-! Runs of a deterministic system with outputs. A step may fail, which ends the
run: the models use failure for undefined behaviour of the modelled program.
`run` collects the outputs; `RunOk` says that every action meets a condition in the
state it is taken in. The run rules carry a relation between the state and the
outputs so far along every conditioned run. -/

namespace CxxDeps.Library

variable {σ α ω : Type*}

/-- The state and the outputs after a list of actions. -/
def run (step : σ → α → Option (σ × List ω)) : σ → List α → Option (σ × List ω)
  | s, [] => some (s, [])
  | s, a :: as => do
    let (s', os) ← step s a
    let (t, os') ← run step s' as
    return (t, os ++ os')

/-- Every action of the list meets `ok` in the state it is taken in, up to the
first step that fails. -/
def RunOk (step : σ → α → Option (σ × List ω)) (ok : σ → α → Prop) : σ → List α → Prop
  | _, [] => True
  | s, a :: as => ok s a ∧ ∀ r, step s a = some r → RunOk step ok r.1 as

instance RunOk.decidable (step : σ → α → Option (σ × List ω)) (ok : σ → α → Prop)
    [∀ s a, Decidable (ok s a)] : ∀ (s : σ) (as : List α), Decidable (RunOk step ok s as)
  | _, [] => inferInstanceAs (Decidable True)
  | s, a :: as =>
    have : Decidable (∀ r, step s a = some r → RunOk step ok r.1 as) :=
      match h : step s a with
      | none => .isTrue fun _ hr => nomatch hr
      | some r =>
        have := RunOk.decidable step ok r.1 as
        decidable_of_iff (RunOk step ok r.1 as) (by simp)
    inferInstanceAs (Decidable (ok s a ∧ ∀ r, step s a = some r → RunOk step ok r.1 as))

section

variable {step : σ → α → Option (σ × List ω)} {ok ok' : σ → α → Prop}

@[simp] theorem run_nil (s : σ) : run step s [] = some (s, []) := rfl

@[simp] theorem runOk_nil (s : σ) : RunOk step ok s [] := trivial

theorem run_cons (s : σ) (a : α) (as : List α) :
    run step s (a :: as) =
      (step s a).bind fun r => (run step r.1 as).map fun q => (q.1, r.2 ++ q.2) := by
  simp only [run, Option.bind_eq_bind, Option.pure_def]
  rcases step s a with _ | r
  · rfl
  · simp only [Option.bind_some]
    rcases run step r.1 as with _ | q <;> rfl

/-- A nonempty run is a step and a run from its result. -/
theorem run_cons_eq_some {s t : σ} {a : α} {as : List α} {os : List ω} :
    run step s (a :: as) = some (t, os) ↔
      ∃ s' o o', step s a = some (s', o) ∧ run step s' as = some (t, o') ∧ os = o ++ o' := by
  rw [run_cons]
  constructor
  · intro h
    obtain ⟨⟨s', o⟩, hs, h⟩ := Option.bind_eq_some_iff.mp h
    obtain ⟨⟨t', o'⟩, ht, h⟩ := Option.map_eq_some_iff.mp h
    obtain ⟨rfl, rfl⟩ := Prod.mk.inj h
    exact ⟨s', o, o', hs, ht, rfl⟩
  · rintro ⟨s', o, o', hs, ht, rfl⟩
    simp [hs, ht]

theorem run_append_eq_some {s t : σ} {as bs : List α} {os : List ω} :
    run step s (as ++ bs) = some (t, os) ↔
      ∃ s' o o', run step s as = some (s', o) ∧ run step s' bs = some (t, o') ∧ os = o ++ o' := by
  induction as generalizing s os with
  | nil => simp
  | cons a as ih =>
    simp only [List.cons_append, run_cons_eq_some, ih]
    constructor
    · rintro ⟨s₁, o₁, _, h₁, ⟨s₂, o₂, o₃, h₂, h₃, rfl⟩, rfl⟩
      exact ⟨s₂, o₁ ++ o₂, o₃, ⟨s₁, o₁, o₂, h₁, h₂, rfl⟩, h₃, by simp⟩
    · rintro ⟨s₂, _, o₃, ⟨s₁, o₁, o₂, h₁, h₂, rfl⟩, h₃, rfl⟩
      exact ⟨s₁, o₁, o₂ ++ o₃, h₁, ⟨s₂, o₂, o₃, h₂, h₃, rfl⟩, by simp⟩

theorem RunOk.mono (h : ∀ s a, ok s a → ok' s a) :
    ∀ {s : σ} {as : List α}, RunOk step ok s as → RunOk step ok' s as
  | _, [], _ => trivial
  | _, _ :: _, ⟨ha, has⟩ => ⟨h _ _ ha, fun r hr => (has r hr).mono h⟩

/-- A condition on a run holds of each of its prefixes. -/
theorem RunOk.append_left {s : σ} {as bs : List α} (h : RunOk step ok s (as ++ bs)) :
    RunOk step ok s as := by
  induction as generalizing s with
  | nil => trivial
  | cons a as ih => exact ⟨h.1, fun r hr => ih (h.2 r hr)⟩

/-- A condition on a run holds of the actions after a prefix. -/
theorem RunOk.append_right {s t : σ} {as bs : List α} {os : List ω}
    (h : RunOk step ok s (as ++ bs)) (hr : run step s as = some (t, os)) :
    RunOk step ok t bs := by
  induction as generalizing s os with
  | nil => simp only [run_nil, Option.some.injEq, Prod.mk.injEq] at hr; exact hr.1 ▸ h
  | cons a as ih =>
    obtain ⟨s', o, o', hs, ht, rfl⟩ := run_cons_eq_some.mp hr
    exact ih (h.2 _ hs) ht

theorem RunOk.append {s t : σ} {as bs : List α} {os : List ω} (h : RunOk step ok s as)
    (hr : run step s as = some (t, os)) (hb : RunOk step ok t bs) :
    RunOk step ok s (as ++ bs) := by
  induction as generalizing s os with
  | nil =>
    simp only [run_nil, Option.some.injEq, Prod.mk.injEq] at hr
    exact hr.1 ▸ hb
  | cons a as ih =>
    obtain ⟨s', o, o', hs, ht, rfl⟩ := run_cons_eq_some.mp hr
    refine ⟨h.1, fun r hr' => ?_⟩
    rw [hs] at hr'
    obtain rfl := Option.some.inj hr'
    exact ih (h.2 _ hs) ht

/-- The run rule: a relation between the state and the outputs so far that every
conditioned step preserves holds at the end of every conditioned run. -/
theorem RunOk.invariant (Inv : σ → List ω → Prop)
    (hstep : ∀ s out a s' o, Inv s out → ok s a → step s a = some (s', o) → Inv s' (out ++ o))
    {s t : σ} {as : List α} {os : List ω} (out : List ω) (h : RunOk step ok s as) (h0 : Inv s out)
    (hr : run step s as = some (t, os)) : Inv t (out ++ os) := by
  induction as generalizing s out os with
  | nil =>
    simp only [run_nil, Option.some.injEq, Prod.mk.injEq] at hr
    obtain ⟨rfl, rfl⟩ := hr
    simpa using h0
  | cons a as ih =>
    obtain ⟨s', o, o', hs, ht, rfl⟩ := run_cons_eq_some.mp hr
    rw [← List.append_assoc]
    exact ih _ (h.2 _ hs) (hstep _ _ _ _ _ h0 h.1 hs) ht

/-- A condition that follows, in each state of an invariant, from `Good` results
of the step holds along a run all of whose reached states are `Good`. -/
theorem RunOk.of_good (Inv Good : σ → Prop) {p : α → Prop}
    (hok : ∀ s a, p a → Inv s → (∀ s' o, step s a = some (s', o) → Good s') → ok s a)
    (hinv : ∀ s a s' o, p a → Inv s → ok s a → step s a = some (s', o) → Inv s')
    {s : σ} {as : List α} (hp : ∀ a ∈ as, p a) (h0 : Inv s)
    (h : ∀ pre, pre <+: as → ∀ t os, run step s pre = some (t, os) → Good t) :
    RunOk step ok s as := by
  induction as generalizing s with
  | nil => trivial
  | cons a as ih =>
    obtain ⟨hpa, hpas⟩ := List.forall_mem_cons.mp hp
    have ha : ok s a := hok s a hpa h0 fun s' o hs =>
      h [a] ⟨as, rfl⟩ s' o (run_cons_eq_some.mpr ⟨s', o, [], hs, rfl, by simp⟩)
    refine ⟨ha, fun r hr => ih hpas (hinv s a r.1 r.2 hpa h0 ha hr) fun pre hpre t os ht => ?_⟩
    exact h (a :: pre) (List.cons_prefix_cons.mpr ⟨rfl, hpre⟩) t _
      (run_cons_eq_some.mpr ⟨r.1, r.2, os, hr, ht, rfl⟩)

/-- Actions that all have a property may be assumed to have it. -/
theorem RunOk.restrict {p : α → Prop} {s : σ} {as : List α} (h : RunOk step ok s as)
    (hp : ∀ a ∈ as, p a) : RunOk step (fun s a => p a ∧ ok s a) s as := by
  induction as generalizing s with
  | nil => trivial
  | cons a as ih =>
    obtain ⟨hpa, hpas⟩ := List.forall_mem_cons.mp hp
    exact ⟨⟨hpa, h.1⟩, fun r hr => ih (h.2 r hr) hpas⟩

theorem RunOk.of_forall (h : ∀ s a, ok s a) (s : σ) (as : List α) : RunOk step ok s as := by
  induction as generalizing s with
  | nil => trivial
  | cons a as ih => exact ⟨h _ _, fun r _ => ih r.1⟩

/-- The run rule for a relation between the state and the outputs of all runs. -/
theorem run_relation (Inv : σ → List ω → Prop)
    (hstep : ∀ s out a s' o, Inv s out → step s a = some (s', o) → Inv s' (out ++ o))
    {s t : σ} {as : List α} {os : List ω} (out : List ω) (h0 : Inv s out)
    (hr : run step s as = some (t, os)) : Inv t (out ++ os) := by
  have hok : RunOk step (fun _ _ => True) s as := RunOk.of_forall (fun _ _ => trivial) s as
  exact RunOk.invariant Inv (fun s out a s' o hi _ hs => hstep s out a s' o hi hs) out hok h0 hr

/-- In a run whose steps meet `pre`, a condition that says of each step what `P` says of the
outputs so far holds of the run exactly if `P` holds of its outputs. -/
theorem RunOk.iff_outputs {pre : σ → α → Prop} (Inv : σ → List ω → Prop) (P : List ω → Prop)
    (happend : ∀ os os', P (os ++ os') → P os)
    (hinv : ∀ s out a s' o, Inv s out → pre s a → step s a = some (s', o) → Inv s' (out ++ o))
    (hok : ∀ s out a s' o, Inv s out → pre s a → P out → step s a = some (s', o) →
      (ok s a ↔ P (out ++ o)))
    {s t : σ} {as : List α} {os : List ω} (out : List ω) (hpre : RunOk step pre s as)
    (h0 : Inv s out) (hP : P out) (hr : run step s as = some (t, os)) :
    RunOk step ok s as ↔ P (out ++ os) := by
  induction as generalizing s out os with
  | nil =>
    simp only [run_nil, Option.some.injEq, Prod.mk.injEq] at hr
    simpa [← hr.2] using hP
  | cons a as ih =>
    obtain ⟨s', o, o', hs, ht, rfl⟩ := run_cons_eq_some.mp hr
    have ha := hok s out a s' o h0 hpre.1 hP hs
    rw [← List.append_assoc]
    by_cases hPo : P (out ++ o)
    · rw [← ih (out ++ o) (hpre.2 _ hs) (hinv s out a s' o h0 hpre.1 hs) hPo ht]
      constructor
      · intro h
        exact h.2 (s', o) hs
      · intro h
        refine ⟨ha.mpr hPo, fun r hr => ?_⟩
        rw [hs] at hr
        exact Option.some.inj hr ▸ h
    · constructor
      · intro h
        exact absurd (ha.mp h.1) hPo
      · intro h
        exact absurd (happend _ _ h) hPo

/-- A condition that says of each step what `P` says of the outputs so far holds of
a run exactly if `P` holds of its outputs. -/
theorem runOk_iff_outputs (Inv : σ → List ω → Prop) (P : List ω → Prop)
    (happend : ∀ os os', P (os ++ os') → P os)
    (hinv : ∀ s out a s' o, Inv s out → step s a = some (s', o) → Inv s' (out ++ o))
    (hok : ∀ s out a s' o, Inv s out → P out → step s a = some (s', o) →
      (ok s a ↔ P (out ++ o)))
    {s t : σ} {as : List α} {os : List ω} (out : List ω) (h0 : Inv s out) (hP : P out)
    (hr : run step s as = some (t, os)) : RunOk step ok s as ↔ P (out ++ os) :=
  RunOk.iff_outputs Inv P happend
    (fun s out a s' o hi _ => hinv s out a s' o hi)
    (fun s out a s' o hi _ => hok s out a s' o hi) out
    (show RunOk step (fun _ _ => True) s as from RunOk.of_forall (fun _ _ => trivial) s as) h0 hP hr

/-- The simulation rule: where each conditioned step of the system can be followed by
a step of another one with the same outputs, so can each conditioned run. -/
theorem RunOk.simulates {ρ : Type*} {spec : ρ → α → Option (ρ × List ω)} (R : σ → ρ → Prop)
    (hstep : ∀ s q a, R s q → ok s a →
      ∃ s' q' o, step s a = some (s', o) ∧ spec q a = some (q', o) ∧ R s' q')
    {s : σ} {q : ρ} {as : List α} (h : RunOk step ok s as) (h0 : R s q) :
    ∃ t q' os, run step s as = some (t, os) ∧ run spec q as = some (q', os) ∧ R t q' := by
  induction as generalizing s q with
  | nil => exact ⟨s, q, [], rfl, rfl, h0⟩
  | cons a as ih =>
    obtain ⟨s', q', o, hs, hq, hR⟩ := hstep s q a h0 h.1
    obtain ⟨t, r, os, ht, hr, hR'⟩ := ih (h.2 _ hs) hR
    exact ⟨t, r, o ++ os, run_cons_eq_some.mpr ⟨s', o, os, hs, ht, rfl⟩,
      run_cons_eq_some.mpr ⟨q', o, os, hq, hr, rfl⟩, hR'⟩

/-- The run rule for an invariant of the states of all runs. -/
theorem run_invariant {Inv : σ → Prop}
    (hstep : ∀ s a s' o, Inv s → step s a = some (s', o) → Inv s')
    {s t : σ} {as : List α} {os : List ω} (h0 : Inv s)
    (hr : run step s as = some (t, os)) : Inv t := by
  have hok : RunOk step (fun _ _ => True) s as := RunOk.of_forall (fun _ _ => trivial) s as
  exact RunOk.invariant (fun s _ => Inv s) (fun s _ a s' o hi _ hs => hstep s a s' o hi hs) []
    hok h0 hr

end

end CxxDeps.Library
