import CxxDeps.Library.Run
import Mathlib.Tactic.SplitIfs

/-! The ports of `port_range`. A 16-bit position goes round in the range; the even variants
move it by one or two, and the random one puts it behind the port that it gives.

The position can leave the range: it is compared with the upper end only, after it may have
wrapped around at 65535, and `random_even_port` does not compare it at all. -/

namespace CxxDeps.Rtp

open Library

structure PortRange where
  minPort : UInt16
  maxPort : UInt16
  pos : UInt16
  deriving DecidableEq, Repr

namespace PortRange

def reset (minPort maxPort : UInt16) : PortRange := ⟨minPort, maxPort, minPort⟩

/-- The position, back at the lower end where it is above the upper one. -/
def wrapped (s : PortRange) (pos : UInt16) : PortRange :=
  { s with pos := if pos > s.maxPort then s.minPort else pos }

def getNextPort (s : PortRange) : UInt16 × PortRange := (s.pos, s.wrapped (s.pos + 1))

/-- The loop of `get_next_even_port`, with the port of the round before. -/
def nextEvenLoop : ℕ → UInt16 → PortRange → UInt16 × PortRange
  | 0, port, s => (port, s)
  | n + 1, _, s =>
    let port := s.pos
    if port &&& 1 = 0 then (port, s.wrapped (port + 1 + 1))
    else nextEvenLoop n port (s.wrapped (port + 1))

def getNextEvenPort (s : PortRange) : UInt16 × PortRange := nextEvenLoop 2 0 s

/-- `random_even_port`, where `random_number` gives `r`. -/
def randomEvenPort (r : UInt16) (s : PortRange) : UInt16 × PortRange :=
  let port := r / 2 * 2
  (port, { s with pos := port + 2 })

inductive Action
  | reset (minPort maxPort : UInt16)
  | getNextPort
  | getNextEvenPort
  | randomEvenPort (r : UInt16)
  deriving DecidableEq, Repr

/-- A port that was given, with the range it was given from. -/
structure Given where
  minPort : UInt16
  maxPort : UInt16
  even : Bool
  port : UInt16
  deriving DecidableEq, Repr

def given (s : PortRange) (even : Bool) (r : UInt16 × PortRange) : PortRange × List Given :=
  (r.2, [⟨s.minPort, s.maxPort, even, r.1⟩])

/-- One call. The range is one, and `random_number` keeps to it. -/
def step (s : PortRange) : Action → Option (PortRange × List Given)
  | .reset minPort maxPort =>
    if minPort ≤ maxPort then some (reset minPort maxPort, []) else none
  | .getNextPort => some (s.given false s.getNextPort)
  | .getNextEvenPort => some (s.given true s.getNextEvenPort)
  | .randomEvenPort r =>
    if s.minPort ≤ r ∧ r ≤ s.maxPort then some (s.given true (s.randomEvenPort r)) else none

/-- The port lies in the range, and an even variant gives an even one if there is any. -/
structure Given.Good (g : Given) : Prop where
  inRange : g.minPort ≤ g.port ∧ g.port ≤ g.maxPort
  even : g.even → (∃ p : UInt16, g.minPort ≤ p ∧ p ≤ g.maxPort ∧ p.toNat % 2 = 0) →
    g.port.toNat % 2 = 0

/-- When a call gives a good port, by the position and the two ends. -/
def StepOk (s : PortRange) : Action → Prop
  | .reset _ _ => True
  | .getNextPort => s.minPort ≤ s.pos ∧ s.pos ≤ s.maxPort
  | .getNextEvenPort =>
    if s.pos.toNat % 2 = 0 then s.minPort ≤ s.pos ∧ s.pos ≤ s.maxPort
    else if s.pos + 1 ≤ s.maxPort then s.minPort ≤ s.pos + 1
    else s.minPort.toNat % 2 = 0 ∨ s.minPort = s.maxPort
  | .randomEvenPort r => r.toNat % 2 = 0 ∨ s.minPort < r

instance (s : PortRange) (a : Action) : Decidable (s.StepOk a) := by
  cases a <;> unfold StepOk <;> infer_instance

theorem and_one_eq_zero_iff (p : UInt16) : p &&& 1 = 0 ↔ p.toNat % 2 = 0 := by
  rw [← UInt16.toNat_inj, UInt16.toNat_and]
  exact Nat.and_one_is_mod _ ▸ Iff.rfl

/-- A range has an even port unless it is one odd port. -/
theorem exists_even_iff {a b : UInt16} (h : a ≤ b) :
    (∃ p : UInt16, a ≤ p ∧ p ≤ b ∧ p.toNat % 2 = 0) ↔ a.toNat % 2 = 0 ∨ a ≠ b := by
  have hle := UInt16.le_iff_toNat_le.mp h
  constructor
  · rintro ⟨p, hap, hpb, heven⟩
    by_cases hab : a = b
    · subst hab
      exact .inl (UInt16.le_antisymm hpb hap ▸ heven)
    · exact .inr hab
  · intro hor
    by_cases heven : a.toNat % 2 = 0
    · exact ⟨a, UInt16.le_refl a, h, heven⟩
    · have hne : a.toNat ≠ b.toNat := fun heq => by
        rcases hor with hor | hor
        · exact heven hor
        · exact hor (UInt16.toNat_inj.mp heq)
      have hb := b.toNat_lt
      have hnext : (a + 1).toNat = a.toNat + 1 := by
        rw [UInt16.toNat_add]
        simp only [UInt16.reduceToNat]
        omega
      refine ⟨a + 1, UInt16.le_iff_toNat_le.mpr ?_, UInt16.le_iff_toNat_le.mpr ?_, ?_⟩ <;>
        rw [hnext] <;> omega

theorem good_iff {g : Given} (h : g.minPort ≤ g.maxPort) : g.Good ↔
    (g.minPort ≤ g.port ∧ g.port ≤ g.maxPort) ∧
      (g.even → g.minPort.toNat % 2 = 0 ∨ g.minPort ≠ g.maxPort → g.port.toNat % 2 = 0) := by
  rw [← exists_even_iff h]
  exact ⟨fun h => ⟨h.inRange, h.even⟩, fun h => ⟨h.1, h.2⟩⟩

/-- The second round gives whatever the position is. -/
theorem getNextEvenPort_fst (s : PortRange) : s.getNextEvenPort.1 =
    if s.pos.toNat % 2 = 0 then s.pos else (s.wrapped (s.pos + 1)).pos := by
  simp only [getNextEvenPort, nextEvenLoop, and_one_eq_zero_iff]
  split_ifs <;> rfl

theorem toNat_add_one (p : UInt16) : (p + 1).toNat = (p.toNat + 1) % 65536 := UInt16.toNat_add _ _

/-- The number behind an odd one is even, also where it wraps around. -/
theorem even_add_one {p : UInt16} (h : p.toNat % 2 ≠ 0) : (p + 1).toNat % 2 = 0 := by
  rw [toNat_add_one]
  omega

theorem good_next_iff {s : PortRange} (h : s.minPort ≤ s.maxPort) :
    Given.Good ⟨s.minPort, s.maxPort, false, s.getNextPort.1⟩ ↔ s.StepOk .getNextPort := by
  rw [good_iff h]
  simp [getNextPort, StepOk]

theorem good_nextEven_iff {s : PortRange} (h : s.minPort ≤ s.maxPort) :
    Given.Good ⟨s.minPort, s.maxPort, true, s.getNextEvenPort.1⟩ ↔
      s.StepOk .getNextEvenPort := by
  rw [good_iff h, getNextEvenPort_fst, StepOk]
  by_cases heven : s.pos.toNat % 2 = 0
  · simp [heven]
  · simp only [if_neg heven, wrapped]
    by_cases hle : s.pos + 1 ≤ s.maxPort
    · have hgt : ¬ s.pos + 1 > s.maxPort := UInt16.not_lt.mpr hle
      simp only [if_neg hgt, hle, even_add_one heven, and_true, implies_true, if_true]
    · have hgt : s.pos + 1 > s.maxPort := UInt16.not_le.mp hle
      simp only [if_neg hle, if_pos hgt, UInt16.le_refl, h, true_and]
      tauto

/-- Below an odd number the half of it doubled is one less. -/
theorem toNat_half_double (r : UInt16) : (r / 2 * 2).toNat = r.toNat - r.toNat % 2 := by
  have hr := r.toNat_lt
  rw [UInt16.toNat_mul, UInt16.toNat_div]
  simp only [UInt16.reduceToNat]
  omega

theorem good_random_iff {s : PortRange} {r : UInt16} (hmin : s.minPort ≤ r) (hmax : r ≤ s.maxPort) :
    Given.Good ⟨s.minPort, s.maxPort, true, (s.randomEvenPort r).1⟩ ↔
      s.StepOk (.randomEvenPort r) := by
  rw [good_iff (UInt16.le_trans hmin hmax), randomEvenPort, StepOk]
  simp only [UInt16.le_iff_toNat_le, UInt16.lt_iff_toNat_lt, toNat_half_double] at hmin hmax ⊢
  omega

theorem step_good_iff {s t : PortRange} {a : Action} {out : List Given}
    (h : s.minPort ≤ s.maxPort) (hs : s.step a = some (t, out)) :
    s.StepOk a ↔ ∀ g ∈ out, g.Good := by
  cases a with
  | reset minPort maxPort =>
    obtain ⟨-, hs⟩ := Option.ite_none_right_eq_some.mp hs
    obtain ⟨-, rfl⟩ := Prod.mk.inj (Option.some.inj hs)
    simp [StepOk]
  | getNextPort =>
    obtain ⟨-, rfl⟩ := Prod.mk.inj (Option.some.inj hs)
    exact (List.forall_mem_singleton.trans (good_next_iff h)).symm
  | getNextEvenPort =>
    obtain ⟨-, rfl⟩ := Prod.mk.inj (Option.some.inj hs)
    exact (List.forall_mem_singleton.trans (good_nextEven_iff h)).symm
  | randomEvenPort r =>
    obtain ⟨hr, hs⟩ := Option.ite_none_right_eq_some.mp hs
    obtain ⟨-, rfl⟩ := Prod.mk.inj (Option.some.inj hs)
    exact (List.forall_mem_singleton.trans (good_random_iff hr.1 hr.2)).symm

theorem nextEvenLoop_range (n : ℕ) (port : UInt16) (s : PortRange) :
    (nextEvenLoop n port s).2.minPort = s.minPort ∧
      (nextEvenLoop n port s).2.maxPort = s.maxPort := by
  induction n generalizing port s with
  | zero => exact ⟨rfl, rfl⟩
  | succ n ih =>
    rw [nextEvenLoop]
    split_ifs
    · exact ⟨rfl, rfl⟩
    · exact ih _ _

/-- The range stays one. -/
theorem step_range {s t : PortRange} {a : Action} {out : List Given}
    (h : s.minPort ≤ s.maxPort) (hs : s.step a = some (t, out)) : t.minPort ≤ t.maxPort := by
  cases a with
  | reset minPort maxPort =>
    obtain ⟨hle, hs⟩ := Option.ite_none_right_eq_some.mp hs
    obtain ⟨rfl, -⟩ := Prod.mk.inj (Option.some.inj hs)
    exact hle
  | getNextPort =>
    obtain ⟨rfl, -⟩ := Prod.mk.inj (Option.some.inj hs)
    exact h
  | getNextEvenPort =>
    obtain ⟨rfl, -⟩ := Prod.mk.inj (Option.some.inj hs)
    obtain ⟨hmin, hmax⟩ := nextEvenLoop_range 2 0 s
    show s.getNextEvenPort.2.minPort ≤ s.getNextEvenPort.2.maxPort
    rwa [getNextEvenPort, hmin, hmax]
  | randomEvenPort r =>
    obtain ⟨-, hs⟩ := Option.ite_none_right_eq_some.mp hs
    obtain ⟨rfl, -⟩ := Prod.mk.inj (Option.some.inj hs)
    exact h

/-- All ports that a run gives are good exactly if each of its calls meets the condition. -/
theorem ports_good_iff {minPort maxPort : UInt16} (h : minPort ≤ maxPort) {actions : List Action}
    {s : PortRange} {out : List Given}
    (hr : run step (reset minPort maxPort) actions = some (s, out)) :
    RunOk step StepOk (reset minPort maxPort) actions ↔ ∀ g ∈ out, g.Good := by
  have happend : ∀ os os' : List Given, (∀ g ∈ os ++ os', g.Good) → ∀ g ∈ os, g.Good :=
    fun os os' hall g hg => hall g (List.mem_append_left _ hg)
  have hok : ∀ (s : PortRange) (before : List Given) (a : Action) (t : PortRange)
      (out : List Given), s.minPort ≤ s.maxPort → (∀ g ∈ before, g.Good) →
      s.step a = some (t, out) → (s.StepOk a ↔ ∀ g ∈ before ++ out, g.Good) := by
    intro s before a t out h hbefore hs
    rw [step_good_iff h hs, List.forall_mem_append]
    exact ⟨fun hout => ⟨hbefore, hout⟩, And.right⟩
  exact runOk_iff_outputs (fun s _ => s.minPort ≤ s.maxPort) (fun out => ∀ g ∈ out, g.Good)
    happend (fun s _ a t out h hs => step_range h hs) hok [] h
    (fun g hg => absurd hg List.not_mem_nil) hr

/-- Two calls that give the two ends. -/
theorem ports_good_iff_two : RunOk step StepOk (reset 4 6) [.getNextEvenPort, .getNextEvenPort] ↔
    ∀ g ∈ ([⟨4, 6, true, 4⟩, ⟨4, 6, true, 6⟩] : List Given), g.Good :=
  ports_good_iff (show (4 : UInt16) ≤ 6 by decide)
    (show run step (reset 4 6) [.getNextEvenPort, .getNextEvenPort] =
      some (⟨4, 6, 4⟩, [⟨4, 6, true, 4⟩, ⟨4, 6, true, 6⟩]) by decide)

/-- From 5 to 7, at position 7, the even port is 5; behind 65535 comes 0; and the random even
port for 5 is 4. -/
theorem ports_good_fails :
    (run step (reset 5 7) [.getNextPort, .getNextPort, .getNextEvenPort] = some (⟨5, 7, 6⟩,
      [⟨5, 7, false, 5⟩, ⟨5, 7, false, 6⟩, ⟨5, 7, true, 5⟩]) ∧ ¬ Given.Good ⟨5, 7, true, 5⟩) ∧
    (run step (reset 65535 65535) [.getNextPort, .getNextPort] = some (⟨65535, 65535, 1⟩,
      [⟨65535, 65535, false, 65535⟩, ⟨65535, 65535, false, 0⟩]) ∧
      ¬ Given.Good ⟨65535, 65535, false, 0⟩) ∧
    (run step (reset 5 7) [.randomEvenPort 5] = some (⟨5, 7, 6⟩, [⟨5, 7, true, 4⟩]) ∧
      ¬ Given.Good ⟨5, 7, true, 4⟩) := by
  refine ⟨⟨by decide, fun h => ?_⟩, ⟨by decide, fun h => ?_⟩, ⟨by decide, fun h => ?_⟩⟩
  · exact absurd (h.even rfl ⟨6, by decide⟩) (by decide)
  · exact absurd h.inRange.1 (by decide)
  · exact absurd h.inRange.1 (by decide)

/-! ### Ranges that are safe -/

/-- The position is in the range. -/
def Inside (s : PortRange) : Prop := s.minPort ≤ s.pos ∧ s.pos ≤ s.maxPort

theorem inside_wrapped {s : PortRange} (h : s.minPort ≤ s.maxPort) {pos : UInt16}
    (hpos : s.minPort ≤ pos) : (s.wrapped pos).Inside := by
  rw [Inside, wrapped]
  split_ifs with hgt
  · exact ⟨UInt16.le_refl _, h⟩
  · exact ⟨hpos, UInt16.not_lt.mp hgt⟩

/-- The lower end is even, and the numbers behind the upper end do not wrap around. -/
structure Roomy (s : PortRange) : Prop where
  range : s.minPort ≤ s.maxPort
  even : s.minPort.toNat % 2 = 0
  room : s.maxPort.toNat < 65534

theorem Roomy.of_same {s t : PortRange} (h : s.Roomy) (hmin : t.minPort = s.minPort)
    (hmax : t.maxPort = s.maxPort) : t.Roomy where
  range := by rw [hmin, hmax]; exact h.range
  even := by rw [hmin]; exact h.even
  room := by rw [hmax]; exact h.room

theorem le_add_one {p q b : UInt16} (hp : p ≤ q) (hq : q ≤ b) (hb : b.toNat < 65535) :
    p ≤ q + 1 := by
  rw [UInt16.le_iff_toNat_le] at hp hq ⊢
  rw [toNat_add_one]
  omega

theorem Inside.next {s : PortRange} (h : s.Inside) (hs : s.Roomy) : s.getNextPort.2.Inside :=
  inside_wrapped hs.range (le_add_one h.1 h.2 (by have := hs.room; omega))

theorem Inside.loop {s : PortRange} (h : s.Inside) (hs : s.Roomy) (n : ℕ) (port : UInt16) :
    (nextEvenLoop n port s).2.Inside := by
  induction n generalizing port s with
  | zero => exact h
  | succ n ih =>
    have hone : s.minPort ≤ s.pos + 1 := le_add_one h.1 h.2 (by have := hs.room; omega)
    have hnext : (s.pos + 1).toNat ≤ s.maxPort.toNat + 1 := by
      have := UInt16.le_iff_toNat_le.mp h.2
      rw [toNat_add_one]
      omega
    rw [nextEvenLoop]
    split_ifs
    · refine inside_wrapped hs.range (UInt16.le_iff_toNat_le.mpr ?_)
      have hroom := hs.room
      rw [UInt16.le_iff_toNat_le] at hone
      rw [toNat_add_one (s.pos + 1)]
      omega
    · exact ih (inside_wrapped hs.range hone) (hs.of_same rfl rfl) _

/-- From such a range, without random ports, every port is good. -/
theorem ports_good_of_roomy {minPort maxPort : UInt16} (hroomy : (reset minPort maxPort).Roomy)
    {actions : List Action} (hactions : ∀ a ∈ actions, a = .getNextPort ∨ a = .getNextEvenPort)
    {s : PortRange} {out : List Given}
    (hr : run step (reset minPort maxPort) actions = some (s, out)) : ∀ g ∈ out, g.Good := by
  refine (ports_good_iff hroomy.range hr).mp ?_
  refine RunOk.of_good (fun s => s.Roomy ∧ s.Inside) (fun _ => True) ?_ ?_ hactions
    ⟨hroomy, UInt16.le_refl _, hroomy.range⟩ (fun _ _ _ _ _ => trivial)
  · rintro s a (rfl | rfl) ⟨hs, hin⟩ -
    · exact hin
    · rw [StepOk]
      split_ifs
      · exact hin
      · exact le_add_one hin.1 hin.2 (by have := hs.room; omega)
      · exact .inl hs.even
  · rintro s a t o (rfl | rfl) ⟨hs, hin⟩ - hstep
    · obtain ⟨rfl, -⟩ := Prod.mk.inj (Option.some.inj hstep)
      exact ⟨hs.of_same rfl rfl, hin.next hs⟩
    · obtain ⟨rfl, -⟩ := Prod.mk.inj (Option.some.inj hstep)
      obtain ⟨hmin, hmax⟩ := nextEvenLoop_range 2 0 s
      exact ⟨hs.of_same hmin hmax, hin.loop hs 2 0⟩

end PortRange

end CxxDeps.Rtp
