import Mathlib.Data.List.Basic

/-! Reading a buffer as units that delimit themselves: a reader returns a unit and
the number of bytes it took, and is applied until nothing is left. -/

namespace CxxDeps.Library

variable {ε α β : Type*} (unit : List β → Except ε (α × ℕ))

/-- At most `n` units. Where every unit takes a byte, the length of the buffer is
enough (`readUnits_of_le`). -/
def readUnits : ℕ → List β → Except ε (List α)
  | _, [] => .ok []
  | 0, _ :: _ => .ok []
  | n + 1, b :: bs => do
    let (a, len) ← unit (b :: bs)
    let as ← readUnits n ((b :: bs).drop len)
    return a :: as

@[simp] theorem readUnits_nil (n : ℕ) : readUnits unit n [] = .ok [] := by
  cases n <;> rfl

theorem readUnits_succ (n : ℕ) {data : List β} (h : data ≠ []) :
    readUnits unit (n + 1) data =
      (unit data).bind fun r => (readUnits unit n (data.drop r.2)).map (r.1 :: ·) := by
  cases data with
  | nil => contradiction
  | cons b bs =>
    simp only [readUnits, bind, Except.bind, pure, Except.pure, Except.map]

variable {unit}

theorem readUnits_error {n : ℕ} {data : List β} {e : ε} (hn : data.length ≤ n) (hd : data ≠ [])
    (h : unit data = .error e) : readUnits unit n data = .error e := by
  cases n with
  | zero => exact absurd (List.eq_nil_of_length_eq_zero (by omega)) hd
  | succ n => rw [readUnits_succ unit n hd, h]; rfl

/-- A buffer that is one unit. -/
theorem readUnits_single {n : ℕ} {data : List β} {a : α} (hn : data.length ≤ n) (hd : data ≠ [])
    (h : unit data = .ok (a, data.length)) : readUnits unit n data = .ok [a] := by
  cases n with
  | zero => exact absurd (List.eq_nil_of_length_eq_zero (by omega)) hd
  | succ n =>
    rw [readUnits_succ unit n hd, h]
    simp [Except.bind, Except.map]

/-- More fuel than bytes changes nothing. -/
theorem readUnits_of_le (hpos : ∀ data a len, unit data = .ok (a, len) → 0 < len) {n m : ℕ} :
    ∀ {data : List β}, data.length ≤ n → data.length ≤ m →
      readUnits unit n data = readUnits unit m data := by
  induction n generalizing m with
  | zero =>
    intro data hn _
    rw [List.eq_nil_of_length_eq_zero (Nat.le_zero.mp hn), readUnits_nil, readUnits_nil]
  | succ n ih =>
    intro data hn hm
    by_cases hd : data = []
    · rw [hd, readUnits_nil, readUnits_nil]
    have hlen := List.length_pos_iff.mpr hd
    obtain ⟨m, rfl⟩ : ∃ k, m = k + 1 := ⟨m - 1, by omega⟩
    rw [readUnits_succ unit n hd, readUnits_succ unit m hd]
    cases hu : unit data with
    | error e => rfl
    | ok r =>
      have hr := hpos data r.1 r.2 hu
      simp only [Except.bind]
      rw [ih (m := m) (by simp; omega) (by simp; omega)]

/-- A buffer of units written one after the other. The reader may depend on what
follows a unit only through the size of the buffer, which `limit` bounds. -/
theorem readUnits_flatMap {γ : Type*} {write : γ → List β} {seen : γ → α} {limit : ℕ}
    (hne : ∀ u, write u ≠ [])
    (hread : ∀ u rest, (write u ++ rest).length ≤ limit →
      unit (write u ++ rest) = .ok (seen u, (write u).length)) (us : List γ) {n : ℕ}
    (hn : (us.flatMap write).length ≤ n) (hlimit : (us.flatMap write).length ≤ limit) :
    readUnits unit n (us.flatMap write) = .ok (us.map seen) := by
  induction us generalizing n with
  | nil => simp
  | cons u us ih =>
    rw [List.flatMap_cons] at hn hlimit ⊢
    have hpos := List.length_pos_iff.mpr (hne u)
    have happ : (write u ++ us.flatMap write).length =
        (write u).length + (us.flatMap write).length := List.length_append
    obtain ⟨n, rfl⟩ : ∃ k, n = k + 1 := ⟨n - 1, by omega⟩
    rw [readUnits_succ unit n (by simp [hne u]), hread u _ hlimit]
    simp only [Except.bind, List.drop_left]
    rw [ih (by omega) (by omega)]
    rfl

end CxxDeps.Library
