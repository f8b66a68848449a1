import CxxDeps.Library.Run

/-! Actions that may be left out of a run, because nothing that is watched depends on
them. -/

namespace CxxDeps.Library

variable {σ α ω : Type*} {step : σ → α → Option (σ × List ω)} {ok : σ → α → Prop}

/-- What is seen of a run: its last state and the outputs that are watched. -/
def seen (watched : ω → Bool) (r : σ × List ω) : σ × List ω := (r.1, r.2.filter watched)

/-- The rule of idle actions: those that leave the state alone and give nothing that is
watched may be left out of a run. -/
theorem RunOk.leave_out (idle : α → Bool) (watched : ω → Bool)
    (hidle : ∀ s a, idle a = true → ok s a →
      ∃ o, step s a = some (s, o) ∧ o.filter watched = [])
    {s : σ} {as : List α} (h : RunOk step ok s as) :
    (run step s as).map (seen watched) =
      (run step s (as.filter fun a => !idle a)).map (seen watched) := by
  induction as generalizing s with
  | nil => rfl
  | cons a as ih =>
    cases ha : idle a with
    | true =>
      obtain ⟨o, hs, ho⟩ := hidle s a ha h.1
      have hrest := ih (h.2 _ hs)
      rw [List.filter_cons_of_neg (by simp [ha]), ← hrest, run_cons, hs]
      simp only [Option.bind_some, Option.map_map]
      congr 1
      funext q
      simp [seen, ho]
    | false =>
      rw [List.filter_cons_of_pos (by simp [ha]), run_cons, run_cons]
      cases hs : step s a with
      | none => rfl
      | some r =>
        have hrest := congrArg (Option.map fun q => (q.1, r.2.filter watched ++ q.2))
          (ih (h.2 r hs))
        have hsplit (q : σ × List ω) :
            seen watched (q.1, r.2 ++ q.2) =
              ((seen watched q).1, r.2.filter watched ++ (seen watched q).2) := by
          simp [seen]
        simpa [Option.map_map, Function.comp_def, hsplit] using hrest

end CxxDeps.Library
