import CxxDeps.Library.Units

/-! Accesses to buffers, kept beside a reader that delimits itself. A reader is safe
on a buffer when all its accesses lie in the buffer; reading units one after the
other is safe exactly when every unit reached is. -/

namespace CxxDeps.Library

/-- The range from `first` up to `last` of a buffer of `size` elements: a copy, or
with one element an index. -/
structure Access where
  size : ℕ
  first : ℕ
  last : ℕ
  deriving DecidableEq, Repr

def Access.InRange (a : Access) : Prop := a.first ≤ a.last ∧ a.last ≤ a.size

instance (a : Access) : Decidable a.InRange := inferInstanceAs (Decidable (_ ∧ _))

/-- `count` elements from `first` on, one by one. -/
def indices (size first count : ℕ) : List Access :=
  (List.range count).map fun i => ⟨size, first + i, first + i + 1⟩

def AllInRange (accesses : List Access) : Prop := ∀ a ∈ accesses, a.InRange

instance (accesses : List Access) : Decidable (AllInRange accesses) :=
  inferInstanceAs (Decidable (∀ a ∈ accesses, a.InRange))

@[simp] theorem allInRange_nil : AllInRange [] := by simp [AllInRange]

@[simp] theorem allInRange_cons {a : Access} {as : List Access} :
    AllInRange (a :: as) ↔ a.InRange ∧ AllInRange as := List.forall_mem_cons

@[simp] theorem allInRange_append {as bs : List Access} :
    AllInRange (as ++ bs) ↔ AllInRange as ∧ AllInRange bs := List.forall_mem_append

theorem allInRange_indices {size first count : ℕ} (h : first + count ≤ size) :
    AllInRange (indices size first count) := by
  intro a ha
  obtain ⟨i, hi, rfl⟩ := List.mem_map.mp ha
  rw [List.mem_range] at hi
  exact ⟨by simp, by simp only; omega⟩

/-! ### Units -/

variable {ε α β : Type*} (accesses : List β → List Access) (ok : List β → Prop)
  (unit : List β → Except ε (α × ℕ))

/-- The accesses of `readUnits`, up to the first unit that is not read. -/
def unitAccesses : ℕ → List β → List Access
  | _, [] => []
  | 0, _ :: _ => []
  | n + 1, b :: bs => accesses (b :: bs) ++
    match unit (b :: bs) with
    | .ok r => unitAccesses n ((b :: bs).drop r.2)
    | .error _ => []

/-- The condition holds where a unit begins, for every unit that is reached. -/
def UnitsOk : ℕ → List β → Prop
  | _, [] => True
  | 0, _ :: _ => True
  | n + 1, b :: bs => ok (b :: bs) ∧
    match unit (b :: bs) with
    | .ok r => UnitsOk n ((b :: bs).drop r.2)
    | .error _ => True

variable {accesses ok}

theorem unitAccesses_inRange_iff (h : ∀ data, AllInRange (accesses data) ↔ ok data) (n : ℕ)
    (data : List β) :
    AllInRange (unitAccesses accesses unit n data) ↔ UnitsOk ok unit n data := by
  induction n generalizing data with
  | zero => cases data <;> simp [unitAccesses, UnitsOk]
  | succ n ih =>
    cases data with
    | nil => simp [unitAccesses, UnitsOk]
    | cons b bs =>
      rw [unitAccesses, UnitsOk, allInRange_append, h]
      cases unit (b :: bs) with
      | error e => simp
      | ok r => simp only [ih]

end CxxDeps.Library
