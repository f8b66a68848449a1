import CxxDeps.Library.Run

/-! History variables. Beside the state a run may keep a note of what happened so far.
No step reads the note, so the runs with and without it are the same. -/

namespace CxxDeps.Library

variable {σ α ω η : Type*}

/-- A step that also updates a note. -/
def noted (step : σ → α → Option (σ × List ω)) (note : σ → α → η → η) (s : σ × η) (a : α) :
    Option ((σ × η) × List ω) :=
  (step s.1 a).map fun r => ((r.1, note s.1 a s.2), r.2)

section

variable {step : σ → α → Option (σ × List ω)} {note : σ → α → η → η}

theorem noted_eq_some {s t : σ × η} {a : α} {os : List ω} :
    noted step note s a = some (t, os) ↔
      step s.1 a = some (t.1, os) ∧ t.2 = note s.1 a s.2 := by
  rw [noted]
  constructor
  · intro h
    obtain ⟨r, hr, heq⟩ := Option.map_eq_some_iff.mp h
    obtain ⟨rfl, rfl⟩ := Prod.mk.inj heq
    exact ⟨hr, rfl⟩
  · rintro ⟨hs, ht⟩
    rw [hs, Option.map_some, ← ht]

/-- Without the note it is the run that it was. -/
theorem run_of_noted {s t : σ × η} {as : List α} {os : List ω}
    (h : run (noted step note) s as = some (t, os)) : run step s.1 as = some (t.1, os) := by
  induction as generalizing s os with
  | nil =>
    obtain ⟨rfl, rfl⟩ := Prod.mk.inj (Option.some.inj h)
    rfl
  | cons a as ih =>
    obtain ⟨s', o, o', hs, ht, rfl⟩ := run_cons_eq_some.mp h
    exact run_cons_eq_some.mpr ⟨s'.1, o, o', (noted_eq_some.mp hs).1, ih ht, rfl⟩

/-- Every run can be noted. -/
theorem run_noted {s t : σ} {as : List α} {os : List ω} (n : η)
    (h : run step s as = some (t, os)) :
    ∃ n', run (noted step note) (s, n) as = some ((t, n'), os) := by
  induction as generalizing s n os with
  | nil =>
    obtain ⟨rfl, rfl⟩ := Prod.mk.inj (Option.some.inj h)
    exact ⟨n, rfl⟩
  | cons a as ih =>
    obtain ⟨s', o, o', hs, ht, rfl⟩ := run_cons_eq_some.mp h
    obtain ⟨n', hn⟩ := ih (note s a n) ht
    have hstep : noted step note (s, n) a = some ((s', note s a n), o) :=
      noted_eq_some.mpr ⟨hs, rfl⟩
    exact ⟨n', run_cons_eq_some.mpr ⟨_, o, o', hstep, hn, rfl⟩⟩

/-- A condition that does not read the note holds of the run with it as of the run
without. -/
theorem runOk_noted (ok : σ → α → Prop) {s : σ × η} {as : List α} :
    RunOk (noted step note) (fun s a => ok s.1 a) s as ↔ RunOk step ok s.1 as := by
  induction as generalizing s with
  | nil => exact Iff.rfl
  | cons a as ih =>
    refine and_congr_right fun _ => ⟨fun h r hr => ?_, fun h r hr => ?_⟩
    · have hstep : noted step note s a = some ((r.1, note s.1 a s.2), r.2) :=
        noted_eq_some.mpr ⟨hr, rfl⟩
      exact ih.mp (h _ hstep)
    · exact ih.mpr (h (r.1.1, r.2) (noted_eq_some.mp hr).1)

end

end CxxDeps.Library
