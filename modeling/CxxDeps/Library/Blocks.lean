import Mathlib.Data.List.Basic

/-! Functions that work through a message in blocks of `n`: a message of whole blocks at once, or
byte by byte, with a buffer for the block that has begun. -/

namespace CxxDeps.Library

variable {σ β : Type*}

/-- The first `k` blocks, one after the other. -/
def blocks (compress : σ → List β → σ) (n : ℕ) : ℕ → σ → List β → σ
  | 0, h, _ => h
  | k + 1, h, data => blocks compress n k (compress h (data.take n)) (data.drop n)

/-- One more byte, with which the block may be full. -/
def absorb (compress : σ → List β → σ) (n : ℕ) (s : σ × List β) (b : β) : σ × List β :=
  if s.2.length + 1 = n then (compress s.1 (s.2 ++ [b]), []) else (s.1, s.2 ++ [b])

/-- Byte by byte. -/
def feed (compress : σ → List β → σ) (n : ℕ) (s : σ × List β) (data : List β) : σ × List β :=
  data.foldl (absorb compress n) s

/-- A copy to the position `j` of a buffer. -/
def overwrite (buffer data : List β) (j : ℕ) : List β :=
  buffer.take j ++ data ++ buffer.drop (j + data.length)

variable {compress : σ → List β → σ} {n : ℕ}

theorem length_overwrite {buffer data : List β} {j : ℕ} (h : j + data.length ≤ buffer.length) :
    (overwrite buffer data j).length = buffer.length := by
  rw [overwrite, List.length_append, List.length_append, List.length_take, List.length_drop]
  omega

/-- A copy up to the end. -/
theorem overwrite_of_eq {buffer data : List β} {j : ℕ} (h : j + data.length = buffer.length) :
    overwrite buffer data j = buffer.take j ++ data := by
  rw [overwrite, h, List.drop_length, List.append_nil]

/-- What a copy leaves up to its end. -/
theorem take_overwrite {buffer data : List β} {j : ℕ} (h : j ≤ buffer.length) :
    (overwrite buffer data j).take (j + data.length) = buffer.take j ++ data := by
  refine List.take_left' ?_
  rw [List.length_append, List.length_take, Nat.min_eq_left h]

@[simp] theorem feed_nil (s : σ × List β) : feed compress n s [] = s := rfl

theorem feed_append (s : σ × List β) (data data' : List β) :
    feed compress n s (data ++ data') = feed compress n (feed compress n s data) data' :=
  List.foldl_append

/-- What does not fill the block stays in the buffer. -/
theorem feed_of_lt (h : σ) {buffer data : List β} (hlt : buffer.length + data.length < n) :
    feed compress n (h, buffer) data = (h, buffer ++ data) := by
  induction data generalizing buffer with
  | nil => rw [feed_nil, List.append_nil]
  | cons b data ih =>
    rw [List.length_cons] at hlt
    have hne : ¬ buffer.length + 1 = n := by omega
    have hstep : absorb compress n (h, buffer) b = (h, buffer ++ [b]) := if_neg hne
    rw [feed, List.foldl_cons, hstep]
    have hshort : (buffer ++ [b]).length + data.length < n := by
      rw [List.length_append, List.length_singleton]
      omega
    have hrest := ih hshort
    rwa [List.append_assoc, List.singleton_append] at hrest

/-- What fills the block exactly. -/
theorem feed_of_eq (h : σ) {buffer data : List β} (heq : buffer.length + data.length = n)
    (hlt : buffer.length < n) :
    feed compress n (h, buffer) data = (compress h (buffer ++ data), []) := by
  rcases List.eq_nil_or_concat data with rfl | ⟨init, b, rfl⟩
  · rw [List.length_nil] at heq
    omega
  · rw [List.concat_eq_append, List.length_append, List.length_singleton] at heq
    rw [List.concat_eq_append]
    have hinit : feed compress n (h, buffer) init = (h, buffer ++ init) :=
      feed_of_lt h (by omega)
    have hfull : (buffer ++ init).length + 1 = n := by
      rw [List.length_append]
      omega
    have hstep : absorb compress n (h, buffer ++ init) b =
        (compress h (buffer ++ init ++ [b]), []) := if_pos hfull
    rw [feed_append, hinit, feed, List.foldl_cons, List.foldl_nil, hstep, List.append_assoc]

/-- The buffer has what is left over. -/
theorem length_feed {s : σ × List β} (hlt : s.2.length < n) (data : List β) :
    (feed compress n s data).2.length = (s.2.length + data.length) % n := by
  induction data generalizing s with
  | nil => rw [feed_nil, List.length_nil, Nat.add_zero, Nat.mod_eq_of_lt hlt]
  | cons b data ih =>
    have hstep : (absorb compress n s b).2.length = (s.2.length + 1) % n := by
      unfold absorb
      split
      case isTrue hfull => rw [hfull, Nat.mod_self, List.length_nil]
      case isFalse =>
        rw [Nat.mod_eq_of_lt (by omega), List.length_append, List.length_singleton]
    rw [feed, List.foldl_cons, ← feed, ih (hstep ▸ Nat.mod_lt _ (by omega)), hstep, Nat.mod_add_mod,
      List.length_cons]
    congr 1
    omega

/-- Whole blocks leave nothing in the buffer. -/
theorem feed_blocks (hn : 0 < n) {k : ℕ} (h : σ) {data : List β} (hdata : data.length = n * k) :
    feed compress n (h, []) data = (blocks compress n k h data, []) := by
  induction k generalizing h data with
  | zero =>
    rw [Nat.mul_zero, List.length_eq_zero_iff] at hdata
    rw [hdata]
    rfl
  | succ k ih =>
    rw [Nat.mul_succ] at hdata
    have hfirst : feed compress n (h, []) (data.take n) = (compress h (data.take n), []) :=
      feed_of_eq h (by rw [List.length_nil, List.length_take]; omega) hn
    have hdrop : (data.drop n).length = n * k := by
      rw [List.length_drop]
      omega
    have hrest := ih (compress h (data.take n)) hdrop
    rw [← List.take_append_drop n data, feed_append, hfirst, hrest, List.take_append_drop, blocks]

end CxxDeps.Library
