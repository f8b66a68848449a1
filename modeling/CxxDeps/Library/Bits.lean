import Mathlib.Data.List.Basic
import Mathlib.Tactic.Ring

/-! Fields of a number. A writer masks a field out, shifts it and ors it into a byte; a
reader takes it out of the byte again, shifts it to its place and ors it in. -/

namespace CxxDeps.Library

theorem forall_uint8 {P : UInt8 → Prop} (h : ∀ i : Fin 256, P ⟨⟨i⟩⟩) (b : UInt8) : P b := h b.toFin

/-- The `w` bits of `x` from bit `s` on. -/
def bits (x s w : ℕ) : ℕ := x / 2 ^ s % 2 ^ w

theorem bits_lt (x s w : ℕ) : bits x s w < 2 ^ w := Nat.mod_lt _ (Nat.two_pow_pos w)

theorem bits_of_lt {x w : ℕ} (h : x < 2 ^ w) : bits x 0 w = x := by
  rw [bits, pow_zero, Nat.div_one, Nat.mod_eq_of_lt h]

/-- A field that is masked out and shifted down. -/
theorem and_mask_shiftRight (x s w k : ℕ) (h : k ≤ s) :
    (x &&& ((2 ^ w - 1) <<< s)) >>> k = bits x s w <<< (s - k) := by
  have hmask : x &&& ((2 ^ w - 1) <<< s) = bits x s w <<< s := by
    apply Nat.eq_of_testBit_eq
    intro i
    simp only [bits, Nat.testBit_and, Nat.testBit_shiftLeft, Nat.testBit_two_pow_sub_one,
      Nat.testBit_mod_two_pow, Nat.testBit_div_two_pow]
    by_cases hi : s ≤ i
    · simp [hi, Bool.and_comm]
    · simp [hi]
  obtain ⟨j, rfl⟩ := Nat.exists_eq_add_of_le' h
  rw [hmask, Nat.add_sub_cancel, Nat.shiftLeft_add, Nat.shiftLeft_shiftRight]

/-- A field that is masked out at the lower end. -/
theorem and_mask (x w : ℕ) : x &&& (2 ^ w - 1) = bits x 0 w := by
  rw [Nat.and_two_pow_sub_one_eq_mod, bits, pow_zero, Nat.div_one]

/-- Two fields that are neighbours are one. -/
theorem bits_or (x s w v k : ℕ) :
    bits x (s + w) v <<< (k + w) ||| bits x s w <<< k = bits x s (w + v) <<< k := by
  rw [Nat.add_comm k w, Nat.shiftLeft_add, ← Nat.shiftLeft_or_distrib]
  congr 1
  rw [← Nat.shiftLeft_add_eq_or_of_lt (bits_lt x s w), Nat.shiftLeft_eq]
  simp only [bits, pow_add, ← Nat.div_div_eq_div_mul]
  rw [Nat.mod_mul, Nat.mul_comm, Nat.add_comm]

end CxxDeps.Library
