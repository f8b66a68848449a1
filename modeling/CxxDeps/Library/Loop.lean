import Mathlib.Data.Nat.Notation
import Mathlib.Logic.Relation

/-! A loop whose body either leaves it or gives something and goes round again. It is run
with fuel, so that a loop without an end has no result. A loop ends when a measure falls
in every round that is reached, and does not when a round comes back to where it began. -/

namespace CxxDeps.Library

variable {σ α : Type*}

/-- What the rounds of the loop give, one after the other. -/
def loop (body : σ → Option (α × σ)) : ℕ → σ → Option (List α)
  | 0, _ => none
  | n + 1, s =>
    match body s with
    | none => some []
    | some (a, t) => (loop body n t).map (a :: ·)

/-- The body goes from one state to the other. -/
def Goes (body : σ → Option (α × σ)) (s t : σ) : Prop := ∃ a, body s = some (a, t)

/-- The states in which a round begins. -/
def Reached (body : σ → Option (α × σ)) : σ → σ → Prop := Relation.ReflTransGen (Goes body)

variable {body : σ → Option (α × σ)} {s t u : σ} {a : α}

theorem loop_of_none (n : ℕ) (h : body s = none) : loop body (n + 1) s = some [] := by
  rw [loop, h]

theorem loop_of_some (n : ℕ) (h : body s = some (a, t)) :
    loop body (n + 1) s = (loop body n t).map (a :: ·) := by
  rw [loop, h]

theorem Reached.refl (body : σ → Option (α × σ)) (s : σ) : Reached body s s :=
  Relation.ReflTransGen.refl

theorem Reached.head (h : body s = some (a, t)) (ht : Reached body t u) : Reached body s u :=
  Relation.ReflTransGen.head ⟨a, h⟩ ht

theorem Reached.tail (h : Reached body s t) (ht : body t = some (a, u)) : Reached body s u :=
  Relation.ReflTransGen.tail h ⟨a, ht⟩

/-- The rule of invariants. -/
theorem Reached.invariant {I : σ → Prop} (hs : I s)
    (hstep : ∀ t a u, I t → body t = some (a, u) → I u) (h : Reached body s t) : I t := by
  induction h with
  | refl => exact hs
  | tail _ hgo ih =>
    obtain ⟨a, ha⟩ := hgo
    exact hstep _ a _ ih ha

/-- The loop ends. -/
def Ends (body : σ → Option (α × σ)) (s : σ) : Prop := ∃ n as, loop body n s = some as

theorem Ends.of_none (h : body s = none) : Ends body s := ⟨1, [], loop_of_none 0 h⟩

theorem ends_iff_of_some (h : body s = some (a, t)) : Ends body s ↔ Ends body t := by
  constructor
  · rintro ⟨n, as, hn⟩
    cases n with
    | zero => cases hn
    | succ n =>
      rw [loop_of_some n h, Option.map_eq_some_iff] at hn
      obtain ⟨bs, hbs, -⟩ := hn
      exact ⟨n, bs, hbs⟩
  · rintro ⟨n, as, hn⟩
    exact ⟨n + 1, a :: as, by rw [loop_of_some n h, hn]; rfl⟩

/-- The rule of measures. -/
theorem Ends.of_measure (m : σ → ℕ)
    (h : ∀ t, Reached body s t → ∀ a u, body t = some (a, u) → m u < m t) : Ends body s := by
  induction hm : m s using Nat.strongRecOn generalizing s with
  | _ k ih =>
    subst hm
    cases hb : body s with
    | none => exact .of_none hb
    | some r =>
      obtain ⟨a, t⟩ := r
      have hlt := h s (.refl body s) a t hb
      exact (ends_iff_of_some hb).mpr (ih (m t) hlt (fun u hu => h u (.head hb hu)) rfl)

/-- A round that leaves the state as it was goes on for ever. -/
theorem not_ends_of_fixed (h : body s = some (a, s)) : ¬ Ends body s := by
  rintro ⟨n, as, hn⟩
  induction n generalizing as with
  | zero => cases hn
  | succ n ih =>
    rw [loop_of_some n h, Option.map_eq_some_iff] at hn
    obtain ⟨bs, hbs, -⟩ := hn
    exact ih bs hbs

theorem Reached.ends_iff (h : Reached body s t) : Ends body s ↔ Ends body t := by
  induction h with
  | refl => exact Iff.rfl
  | tail _ hgo ih =>
    obtain ⟨a, ha⟩ := hgo
    exact ih.trans (ends_iff_of_some ha)

/-- The loop ends, every round that goes on moves a position ahead, and what it gives is
in order. -/
structure SafeLoop (body : σ → Option (α × σ)) (pos : σ → ℕ) (ok : α → Prop) (s : σ) : Prop where
  ends : Ends body s
  advances : ∀ t, Reached body s t → ∀ a u, body t = some (a, u) → pos t < pos u
  gives : ∀ t, Reached body s t → ∀ a u, body t = some (a, u) → ok a

/-- A position that stays below a bound and moves ahead in every round brings the loop to
its end. -/
theorem SafeLoop.of_advances {pos : σ → ℕ} {ok : α → Prop} {n : ℕ}
    (hlimit : ∀ t a u, body t = some (a, u) → pos u ≤ n)
    (hadv : ∀ t, Reached body s t → ∀ a u, body t = some (a, u) → pos t < pos u)
    (hok : ∀ t, Reached body s t → ∀ a u, body t = some (a, u) → ok a) :
    SafeLoop body pos ok s where
  ends := .of_measure (fun t => n - pos t) fun t ht a u hu => by
    have := hadv t ht a u hu
    have := hlimit t a u hu
    omega
  advances := hadv
  gives := hok

end CxxDeps.Library
