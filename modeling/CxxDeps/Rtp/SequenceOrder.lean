import Mathlib.Tactic.SplitIfs
import CxxDeps.Rtp.SequenceNumber

/-! The comparisons of `util/sn.hpp` as an order on the numbers below the modulus. -/

namespace CxxDeps.Rtp.Sn

/-- The modulus that `M` stands for. -/
def modulus (w M : ℕ) : ℕ := if M = 0 then 2 ^ w else M

/-- `sn::ahead_or_at<T, 0>` where `T` is not promoted to `int`: the difference `a - b` wraps
before it is compared. -/
def aheadOrAtWord (w a b : ℕ) : Bool :=
  if (a + 2 ^ w - b) % 2 ^ w = (2 ^ w - 1) / 2 + 1 then decide (b < a)
  else decide (forwardDiff w 0 b a < (2 ^ w - 1) / 2 + 1)

/-- `sn::ahead_of<T, M>` for both kinds of `T`. -/
def aheadOfT (promoted : Bool) (w M a b : ℕ) : Bool :=
  decide (a ≠ b) && if M = 0 ∧ promoted = false then aheadOrAtWord w a b else aheadOrAt w M a b

/-! ### Distances -/

variable {w M a b : ℕ}

theorem lt_of_lt_modulus (hM : M < 2 ^ w) (h : a < modulus w M) : a < 2 ^ w := by
  unfold modulus at h
  split_ifs at h <;> omega

theorem forwardDiff_eq (hM : M < 2 ^ w) (ha : a < modulus w M) (hb : b < modulus w M) :
    forwardDiff w M a b = if a ≤ b then b - a else modulus w M - (a - b) := by
  have ha' := lt_of_lt_modulus hM ha
  have hb' := lt_of_lt_modulus hM hb
  unfold forwardDiff
  unfold modulus at ha hb ⊢
  by_cases hzero : M = 0
  · rw [if_pos hzero] at ha hb ⊢
    rw [if_neg (by omega)]
    split_ifs with h
    · rw [show b + 2 ^ w - a = b - a + 2 ^ w by omega, Nat.add_mod_right,
        Nat.mod_eq_of_lt (by omega)]
    · rw [Nat.mod_eq_of_lt (by omega)]
      omega
  · rw [if_neg hzero] at ha hb ⊢
    rw [if_pos (by omega)]
    split_ifs with h
    · rfl
    · rw [show M + 2 ^ w - (a - b) = M - (a - b) + 2 ^ w by omega, Nat.add_mod_right,
        Nat.mod_eq_of_lt (by omega)]

/-- The distance backwards is the distance of the other two forwards. -/
theorem reverseDiff_eq (w M a b : ℕ) : reverseDiff w M a b = forwardDiff w M b a := rfl

theorem minDiff_comm (w M a b : ℕ) : minDiff w M a b = minDiff w M b a := by
  rw [minDiff, minDiff, reverseDiff_eq, reverseDiff_eq, Nat.min_comm]

theorem forwardDiff_add_reverseDiff (hM : M < 2 ^ w) (ha : a < modulus w M)
    (hb : b < modulus w M) :
    (forwardDiff w M a b + reverseDiff w M a b) % modulus w M = 0 := by
  rw [reverseDiff_eq, forwardDiff_eq hM ha hb, forwardDiff_eq hM hb ha]
  rcases Nat.lt_trichotomy a b with h | rfl | h
  · rw [if_pos (by omega), if_neg (by omega), Nat.add_sub_cancel' (by omega), Nat.mod_self]
  · simp
  · rw [if_neg (by omega), if_pos (by omega), Nat.sub_add_cancel (by omega), Nat.mod_self]

/-! ### The order -/

/-- How far `a` is in front of `b`. -/
def lead (m a b : ℕ) : ℕ := if b ≤ a then a - b else m - (b - a)

/-- A number is ahead by less than half the modulus, or by half of it with the greater
value. -/
def Ahead (m a b : ℕ) : Prop := a ≠ b ∧ (2 * lead m a b < m ∨ 2 * lead m a b = m ∧ b < a)

theorem half_word (hw : 0 < w) : 2 * ((2 ^ w - 1) / 2 + 1) = 2 ^ w := by
  obtain ⟨v, rfl⟩ : ∃ v, w = v + 1 := ⟨w - 1, by omega⟩
  rw [Nat.pow_succ]
  have := Nat.two_pow_pos v
  omega

theorem aheadOrAt_zero (w a b : ℕ) :
    aheadOrAt w 0 a b =
      if a - b = (2 ^ w - 1) / 2 + 1 then decide (b < a)
      else decide (forwardDiff w 0 b a < (2 ^ w - 1) / 2 + 1) :=
  if_neg (Nat.lt_irrefl 0)

theorem aheadOrAtWord_eq (hw : 0 < w) (ha : a < 2 ^ w) (hb : b < 2 ^ w) :
    aheadOrAtWord w a b = aheadOrAt w 0 a b := by
  have hhalf := half_word hw
  have hdiff : forwardDiff w 0 b a = (a + 2 ^ w - b) % 2 ^ w := if_neg (Nat.lt_irrefl 0)
  rw [aheadOrAtWord, aheadOrAt_zero, hdiff]
  rcases Nat.lt_or_ge a b with h | h
  · -- the tie is met only where the difference wraps, and then nothing is ahead
    rw [Nat.mod_eq_of_lt (by omega), if_neg (by omega : ¬ a - b = _)]
    split_ifs with htie
    · rw [decide_eq_decide]
      omega
    · rfl
  · rw [show a + 2 ^ w - b = a - b + 2 ^ w by omega, Nat.add_mod_right,
      Nat.mod_eq_of_lt (by omega)]

theorem aheadOrAt_zero_iff (hw : 0 < w) (ha : a < 2 ^ w) (hb : b < 2 ^ w) (hne : a ≠ b) :
    aheadOrAt w 0 a b = true ↔ Ahead (2 ^ w) a b := by
  have hhalf := half_word hw
  have hdiff := forwardDiff_eq (M := 0) (Nat.two_pow_pos w) hb ha
  have hm : modulus w 0 = 2 ^ w := rfl
  rw [aheadOrAt_zero, hdiff, hm, Ahead, lead]
  split_ifs <;> rw [decide_eq_true_iff] <;> omega

theorem aheadOrAt_pos_iff (hM : M < 2 ^ w) (ha : a < M) (hb : b < M) (hne : a ≠ b) :
    aheadOrAt w M a b = true ↔ Ahead M a b := by
  have hm : modulus w M = M := if_neg (by omega)
  have hforward := forwardDiff_eq hM (hm.symm ▸ ha) (hm.symm ▸ hb)
  have hreverse := forwardDiff_eq hM (hm.symm ▸ hb) (hm.symm ▸ ha)
  rw [aheadOrAt, if_pos (by omega), minDiff, reverseDiff_eq, hforward, hreverse, hm, Ahead, lead]
  split_ifs <;> rw [decide_eq_true_iff] <;> omega

theorem aheadOfT_iff (promoted : Bool) (hw : 0 < w) (hM : M < 2 ^ w) (ha : a < modulus w M)
    (hb : b < modulus w M) : aheadOfT promoted w M a b = true ↔ Ahead (modulus w M) a b := by
  rw [aheadOfT, Bool.and_eq_true, decide_eq_true_iff]
  by_cases hne : a = b
  · simp [hne, Ahead]
  rw [and_iff_right hne]
  by_cases hzero : M = 0
  · subst hzero
    have hboth : (if 0 = 0 ∧ promoted = false then aheadOrAtWord w a b else aheadOrAt w 0 a b) =
        aheadOrAt w 0 a b := by
      rw [aheadOrAtWord_eq hw ha hb, ite_self]
    rw [hboth]
    exact aheadOrAt_zero_iff hw ha hb hne
  · have hm : modulus w M = M := if_neg hzero
    rw [if_neg (by simp [hzero]), hm]
    exact aheadOrAt_pos_iff hM (hm ▸ ha) (hm ▸ hb) hne

/-! ### The same offset added to both -/

theorem Ahead.trichotomy {m : ℕ} (ha : a < m) (hb : b < m) (h : a ≠ b) :
    Ahead m a b ↔ ¬ Ahead m b a := by
  unfold Ahead lead
  split_ifs <;> omega

/-- A number after the same offset. -/
theorem add_mod_eq {m : ℕ} (hm : 0 < m) (k : ℕ) :
    ∃ r < m, ∀ x < m, (x + k) % m = if x + r < m then x + r else x + r - m := by
  refine ⟨k % m, Nat.mod_lt _ hm, ?_⟩
  intro x hx
  have hr := Nat.mod_lt k hm
  rw [← Nat.add_mod_mod]
  split_ifs with h
  · exact Nat.mod_eq_of_lt h
  · rw [Nat.mod_eq_sub_mod (by omega), Nat.mod_eq_of_lt (by omega)]

/-- The lead stays the same. -/
theorem lead_add {m : ℕ} (ha : a < m) (hb : b < m) (k : ℕ) :
    lead m ((a + k) % m) ((b + k) % m) = lead m a b := by
  obtain ⟨r, hr, hadd⟩ := add_mod_eq (Nat.zero_lt_of_lt ha) k
  rw [hadd a ha, hadd b hb]
  unfold lead
  split_ifs <;> omega

theorem Ahead.add_iff {m : ℕ} (ha : a < m) (hb : b < m) (h : 2 * lead m a b ≠ m) (k : ℕ) :
    Ahead m ((a + k) % m) ((b + k) % m) ↔ Ahead m a b := by
  have hne : (a + k) % m = (b + k) % m ↔ a = b := by
    obtain ⟨r, hr, hadd⟩ := add_mod_eq (Nat.zero_lt_of_lt ha) k
    rw [hadd a ha, hadd b hb]
    split_ifs <;> omega
  rw [Ahead, Ahead, lead_add ha hb, ne_eq, hne]
  simp [h]

/-- At half the modulus the lead is the least distance. -/
theorem minDiff_eq_half (hM : M < 2 ^ w) (ha : a < modulus w M) (hb : b < modulus w M) :
    2 * minDiff w M a b = modulus w M ↔ 2 * lead (modulus w M) a b = modulus w M := by
  rw [minDiff, reverseDiff_eq, forwardDiff_eq hM ha hb, forwardDiff_eq hM hb ha, lead]
  split_ifs <;> omega

/-- For every modulus the comparisons are an order of the numbers below it: of two numbers one
is ahead, the distances add up to the modulus, and an offset added to both of them matters only
at half the modulus. -/
theorem sequence_order (promoted : Bool) (hw : 0 < w) (hM : M < 2 ^ w) (ha : a < modulus w M)
    (hb : b < modulus w M) :
    (a = b ∧ aheadOfT promoted w M a b = false ∧ aheadOfT promoted w M b a = false ∨
      a ≠ b ∧ aheadOfT promoted w M a b = true ∧ aheadOfT promoted w M b a = false ∨
      a ≠ b ∧ aheadOfT promoted w M a b = false ∧ aheadOfT promoted w M b a = true) ∧
    (forwardDiff w M a b + reverseDiff w M a b) % modulus w M = 0 ∧
    minDiff w M a b = minDiff w M b a ∧
    (2 * minDiff w M a b ≠ modulus w M → ∀ k,
      aheadOfT promoted w M ((a + k) % modulus w M) ((b + k) % modulus w M) =
        aheadOfT promoted w M a b) := by
  have hab := aheadOfT_iff promoted hw hM ha hb
  have hba := aheadOfT_iff promoted hw hM hb ha
  refine ⟨?_, forwardDiff_add_reverseDiff hM ha hb, minDiff_comm w M a b, ?_⟩
  · by_cases h : a = b
    · subst h
      have hnot : aheadOfT promoted w M a a = false := by
        rw [← Bool.not_eq_true, hab]
        exact fun h => h.1 rfl
      exact .inl ⟨rfl, hnot, hnot⟩
    · have hone := Ahead.trichotomy ha hb h
      rw [← hab, ← hba, Bool.not_eq_true] at hone
      cases hahead : aheadOfT promoted w M a b with
      | true => exact .inr (.inl ⟨h, rfl, hone.mp hahead⟩)
      | false =>
        refine .inr (.inr ⟨h, rfl, ?_⟩)
        rw [← Bool.not_eq_false, ← hone, hahead]
        exact Bool.false_ne_true
  · intro hhalf k
    have hpos : 0 < modulus w M := Nat.zero_lt_of_lt ha
    rw [Bool.eq_iff_iff, hab, aheadOfT_iff promoted hw hM (Nat.mod_lt _ hpos) (Nat.mod_lt _ hpos)]
    exact Ahead.add_iff ha hb ((minDiff_eq_half hM ha hb).not.mp hhalf) k

/-- The greatest number and the least one of a buffer of 512. -/
theorem sequence_order_wrap : aheadOfT true 16 512 0 511 = true :=
  match (sequence_order (w := 16) (M := 512) (a := 0) (b := 511) true (by decide) (by decide)
    (by decide) (by decide)).1 with
  | .inl h => absurd h.1 (by decide)
  | .inr (.inl h) => h.2.1
  | .inr (.inr h) => absurd h.2.1 (by decide)

end CxxDeps.Rtp.Sn
