import Mathlib.Data.Nat.Notation
import Mathlib.Tactic.NormNum

/-! The wrapping sequence-number comparisons of `util/sn.hpp`. `T` is an
unsigned type of `w` bits and `M` the modulus, where `M = 0` stands for the
full word. The receivers use them at `T = uint16_t`, with `M = 0` for the order
of sequence numbers and with `M = PACKET_BUFFER_SIZE` for the full-buffer test;
the second is applied to unreduced 16-bit numbers, so it is not an order on
residues. -/

namespace CxxDeps.Rtp.Sn

/-- `sn::forward_diff<T, M>`; the result wraps in `T`. -/
def forwardDiff (w M a b : ℕ) : ℕ :=
  if 0 < M then if a ≤ b then b - a else (M + 2 ^ w - (a - b)) % 2 ^ w
  else (b + 2 ^ w - a) % 2 ^ w

/-- `sn::reverse_diff<T, M>`. -/
def reverseDiff (w M a b : ℕ) : ℕ :=
  if 0 < M then if b ≤ a then a - b else (M + 2 ^ w - (b - a)) % 2 ^ w
  else (a + 2 ^ w - b) % 2 ^ w

/-- `sn::min_diff<T, M>`. -/
def minDiff (w M a b : ℕ) : ℕ := min (forwardDiff w M a b) (reverseDiff w M a b)

/-- `sn::ahead_or_at<T, M>`. At `M = 0` the difference `a - b` is compared
before it wraps, so the tie is met only with `b < a`. -/
def aheadOrAt (w M a b : ℕ) : Bool :=
  if 0 < M then
    if M % 2 = 0 ∧ minDiff w M a b = M / 2 then decide (b < a)
    else decide (forwardDiff w M b a ≤ M / 2)
  else
    if a - b = (2 ^ w - 1) / 2 + 1 then decide (b < a)
    else decide (forwardDiff w 0 b a < (2 ^ w - 1) / 2 + 1)

/-- `sn::ahead_of<T, M>`. -/
def aheadOf (w M a b : ℕ) : Bool := decide (a ≠ b) && aheadOrAt w M a b

/-- RFC 1982 order of 16-bit numbers: `a` is ahead by less than half the number
space, or by exactly half with the greater value. -/
theorem aheadOf_u16 {a b : ℕ} (ha : a < 65536) (hb : b < 65536) :
    aheadOf 16 0 a b = true ↔
      (0 < (a + 65536 - b) % 65536 ∧ (a + 65536 - b) % 65536 < 32768) ∨ a = b + 32768 := by
  have hd : forwardDiff 16 0 b a = (a + 65536 - b) % 65536 := by simp [forwardDiff]
  by_cases ht : a - b = 32768
  · simp [aheadOf, aheadOrAt, ht]; omega
  · simp [aheadOf, aheadOrAt, ht, hd]; omega

/-- The full-buffer test: `begin` is numerically behind `end` by 257 to 512, or
numerically ahead of it by at most 256. -/
theorem aheadOf_u16_512 {a b : ℕ} (ha : a < 65536) (hb : b < 65536) :
    aheadOf 16 512 a b = true ↔
      (a + 257 ≤ b ∧ b ≤ a + 512) ∨ (b < a ∧ a ≤ b + 256) := by
  have hf : ∀ x y, forwardDiff 16 512 x y = if x ≤ y then y - x else (66048 - (x - y)) % 65536 :=
    fun x y => by simp [forwardDiff]
  have hr : reverseDiff 16 512 a b = if b ≤ a then a - b else (66048 - (b - a)) % 65536 := by
    simp [reverseDiff]
  simp only [aheadOf, aheadOrAt, minDiff, hf, hr, Bool.and_eq_true, decide_eq_true_eq,
    Nat.reduceLT, Nat.reduceMod, Nat.reduceDiv, if_true, true_and]
  rcases Nat.lt_trichotomy a b with h | rfl | h
  · have h1 : a ≤ b := by omega
    have h2 : ¬ b ≤ a := by omega
    simp only [h1, h2, if_true, if_false]
    split_ifs <;> simp only [decide_eq_true_eq] <;> omega
  · simp
  · have h1 : ¬ a ≤ b := by omega
    have h2 : b ≤ a := by omega
    simp only [h1, h2, if_true, if_false]
    split_ifs <;> simp only [decide_eq_true_eq] <;> omega

theorem aheadOf_irrefl (w M a : ℕ) : aheadOf w M a a = false := by simp [aheadOf]

example : aheadOf 16 0 3 65530 = true := by decide

/-! ### Loops over a window -/

/-- The numbers that `while (!ahead_of(i, end)) { ... i++; }` visits from `i` in
at most the given number of rounds. -/
def numbersFrom (e : ℕ) : ℕ → ℕ → List ℕ
  | 0, _ => []
  | n + 1, i => if aheadOf 16 0 i e then [] else i :: numbersFrom e n ((i + 1) % 65536)

/-- The numbers that the loop visits; no window has more than `65536`. -/
def numbers (b e : ℕ) : List ℕ := numbersFrom e 65536 b

/-- The distance that `i++` covers from `a` to `b`. -/
def dist (a b : ℕ) : ℕ := (b + 65536 - a) % 65536

theorem dist_lt (a b : ℕ) : dist a b < 65536 := Nat.mod_lt _ (by decide)

theorem dist_le_of_not_aheadOf {a b : ℕ} (ha : a < 65536) (hb : b < 65536)
    (h : aheadOf 16 0 a b = false) : dist a b ≤ 32768 := by
  have h' := (aheadOf_u16 ha hb).not.mp (by simp [h])
  simp only [dist]
  omega

/-- Consecutive numbers, the first one apart. -/
theorem map_range_succ (n : ℕ) {b : ℕ} (hb : b < 65536) :
    ((List.range (n + 1)).map fun k => (b + k) % 65536) =
      b :: (List.range n).map fun k => ((b + 1) % 65536 + k) % 65536 := by
  rw [List.range_succ_eq_map]
  simp only [List.map_cons, List.map_map, Nat.add_zero, Nat.mod_eq_of_lt hb, List.cons.injEq,
    true_and]
  refine List.map_congr_left fun k _ => ?_
  simp only [Function.comp_apply]
  omega

theorem numbersFrom_eq {e : ℕ} (he : e < 65536) (n : ℕ) {b : ℕ} (hb : b < 65536)
    (h : aheadOf 16 0 b e = false) (hn : dist b e < n) :
    numbersFrom e n b = (List.range (dist b e + 1)).map fun k => (b + k) % 65536 := by
  induction n generalizing b with
  | zero => omega
  | succ n ih =>
    have hd := dist_le_of_not_aheadOf hb he h
    have hb' : (b + 1) % 65536 < 65536 := Nat.mod_lt _ (by decide)
    rw [numbersFrom, if_neg (by simp [h]), map_range_succ _ hb]
    congr 1
    by_cases h0 : dist b e = 0
    · have hbe : b = e := by simp only [dist] at h0; omega
      have hstop : aheadOf 16 0 ((b + 1) % 65536) e = true := by
        rw [aheadOf_u16 hb' he]; omega
      rcases n with _ | n <;> simp [numbersFrom, hstop, h0]
    · -- the next number is one nearer to the end
      have hnear : dist ((b + 1) % 65536) e + 1 = dist b e := by
        simp only [dist] at h0 ⊢; omega
      have hgo : aheadOf 16 0 ((b + 1) % 65536) e = false := by
        rw [← Bool.not_eq_true, aheadOf_u16 hb' he]
        simp only [dist] at hd h0; omega
      rw [ih hb' hgo (by omega), hnear]

/-- The loop visits every number from `b` to `e`, and then ends. -/
theorem numbers_eq {b e : ℕ} (hb : b < 65536) (he : e < 65536) (h : aheadOf 16 0 b e = false) :
    numbers b e = (List.range (dist b e + 1)).map fun k => (b + k) % 65536 :=
  numbersFrom_eq he _ hb h (dist_lt b e)

end CxxDeps.Rtp.Sn
