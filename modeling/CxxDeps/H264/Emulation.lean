import Mathlib.Data.List.Basic
import Mathlib.Data.Nat.Notation

/-! The emulation prevention bytes of a NAL unit. A byte 3 behind two zero bytes keeps what
follows from looking like a start code; `remove_emulation_prevention` takes it out. -/

namespace CxxDeps.H264

/-- What the loop of `remove_emulation_prevention` writes over the NAL unit, reading a copy of
it. -/
def removeEmulationPrevention : List UInt8 → List UInt8
  | 0 :: 0 :: 3 :: rest => 0 :: 0 :: removeEmulationPrevention rest
  | b :: rest => b :: removeEmulationPrevention rest
  | [] => []

/-- The insertion, behind so many zero bytes: of two, a 3 follows unless the next byte is
above 3, and the zero bytes are counted anew. -/
def insertFrom : ℕ → List UInt8 → List UInt8
  | zeroes, [] => if zeroes = 2 then [3] else []
  | zeroes, b :: rest =>
    if zeroes = 2 ∧ b ≤ 3 then 3 :: b :: insertFrom (if b = 0 then 1 else 0) rest
    else b :: insertFrom (if b = 0 then zeroes + 1 else 0) rest

def insertEmulationPrevention (rbsp : List UInt8) : List UInt8 := insertFrom 0 rbsp

theorem remove_of_ne {b : UInt8} (hb : b ≠ 0) (rest : List UInt8) :
    removeEmulationPrevention (b :: rest) = b :: removeEmulationPrevention rest := by
  rw [removeEmulationPrevention]
  rintro _ rfl
  exact absurd rfl hb

/-- A zero byte that no second one follows. -/
theorem remove_zero_of_ne {b : UInt8} (hb : b ≠ 0) (rest : List UInt8) :
    removeEmulationPrevention (0 :: b :: rest) = 0 :: b :: removeEmulationPrevention rest := by
  rw [removeEmulationPrevention, remove_of_ne hb]
  intro _ _ h
  exact absurd (List.cons.inj h).1 hb

/-- Two zero bytes that neither a third one nor a 3 follows. -/
theorem remove_zeroes_of_ne {b : UInt8} (hb : b ≠ 0) (h3 : b ≠ 3) (rest : List UInt8) :
    removeEmulationPrevention (0 :: 0 :: b :: rest) =
      0 :: 0 :: b :: removeEmulationPrevention rest := by
  rw [removeEmulationPrevention, remove_zero_of_ne hb]
  intro _ _ h
  exact absurd (List.cons.inj (List.cons.inj h).2).1 h3

/-- Behind so many zero bytes the removal meets the insertion that counted them. -/
theorem remove_insertFrom (rbsp : List UInt8) {zeroes : ℕ} (hz : zeroes ≤ 2) :
    removeEmulationPrevention (List.replicate zeroes 0 ++ insertFrom zeroes rbsp) =
      List.replicate zeroes 0 ++ rbsp := by
  induction rbsp generalizing zeroes with
  | nil =>
    obtain rfl | rfl | rfl : zeroes = 0 ∨ zeroes = 1 ∨ zeroes = 2 := by omega
    all_goals rfl
  | cons b rest ih =>
    -- after a byte that is not zero, none is counted
    have hrest : removeEmulationPrevention (insertFrom 0 rest) = rest := ih (show 0 ≤ 2 by decide)
    by_cases hb : b = 0
    · subst hb
      obtain rfl | rfl | rfl : zeroes = 0 ∨ zeroes = 1 ∨ zeroes = 2 := by omega
      · exact ih (show 1 ≤ 2 by decide)
      · exact ih (show 2 ≤ 2 by decide)
      · -- the third zero byte is the first one behind the 3
        have hone : removeEmulationPrevention (0 :: insertFrom 1 rest) = 0 :: rest :=
          ih (show 1 ≤ 2 by decide)
        exact congrArg (0 :: 0 :: ·) hone
    · obtain rfl | rfl | rfl : zeroes = 0 ∨ zeroes = 1 ∨ zeroes = 2 := by omega
      · simpa [insertFrom, hb, remove_of_ne hb] using hrest
      · simpa [insertFrom, hb, remove_zero_of_ne hb] using hrest
      · by_cases h3 : b ≤ 3
        · simpa [insertFrom, hb, h3, removeEmulationPrevention, remove_of_ne hb] using hrest
        · have hne : b ≠ 3 := fun heq => h3 (heq ▸ UInt8.le_refl b)
          simpa [insertFrom, hb, h3, remove_zeroes_of_ne hb hne] using hrest

/-- The removal gives back what the bytes were inserted into. -/
theorem remove_insertEmulationPrevention (rbsp : List UInt8) :
    removeEmulationPrevention (insertEmulationPrevention rbsp) = rbsp :=
  remove_insertFrom rbsp (Nat.zero_le 2)

/-- Zero bytes at the end, and a 3 that was there before. -/
example : insertEmulationPrevention [0, 0, 0, 0, 0, 3, 0, 0] =
    [0, 0, 3, 0, 0, 3, 0, 3, 0, 0, 3] := by
  decide

end CxxDeps.H264
