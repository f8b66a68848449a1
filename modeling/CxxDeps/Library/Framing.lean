import CxxDeps.Library.Run
import Mathlib.Data.List.Infix

/-! A stream of units that arrives in pieces, cut anywhere. A receiver of the stream takes
the units that are entirely there; which ones it has taken depends on the bytes that
have arrived and not on the cuts. -/

namespace CxxDeps.Library

variable {α β ω : Type*}

/-- The units in front that are entirely among the bytes. -/
def complete (wire : α → List β) : List α → List β → List α
  | [], _ => []
  | u :: rest, bytes =>
    if (wire u).length ≤ bytes.length then u :: complete wire rest (bytes.drop (wire u).length)
    else []

/-- The units that were taken, those that were not, and the bytes of the latter that
have arrived. -/
structure Framing (α β : Type*) where
  taken : List α
  rest : List α
  unread : List β

namespace Framing

variable (wire : α → List β) (events : α → List ω)

def new (units : List α) : Framing α β := ⟨[], units, []⟩

/-- What is left when some units are taken off the front. -/
def take (s : Framing α β) (bytes : List β) (units : List α) : Framing α β where
  taken := s.taken ++ units
  rest := s.rest.drop units.length
  unread := bytes.drop (units.flatMap wire).length

/-- Bytes arrive, and the units that are there are taken. -/
def step (s : Framing α β) (data : List β) : Option (Framing α β × List ω) :=
  let units := complete wire s.rest (s.unread ++ data)
  some (s.take wire (s.unread ++ data) units, units.flatMap events)

end Framing

section Complete

variable (wire : α → List β)

/-- The first unit is there. -/
theorem complete_append_left (u : α) (rest : List α) (bytes : List β) :
    complete wire (u :: rest) (wire u ++ bytes) = u :: complete wire rest bytes := by
  rw [complete, if_pos (by simp), List.drop_left]

/-- Not all of the first unit is there. -/
theorem complete_of_lt {u : α} {bytes : List β} (h : bytes.length < (wire u).length)
    (rest : List α) : complete wire (u :: rest) bytes = [] := by
  rw [complete, if_neg (by omega)]

theorem complete_prefix (units : List α) (bytes : List β) :
    complete wire units bytes <+: units := by
  induction units generalizing bytes with
  | nil => exact List.prefix_rfl
  | cons u rest ih =>
    rw [complete]
    split_ifs
    · exact List.cons_prefix_cons.mpr ⟨rfl, ih _⟩
    · exact List.nil_prefix

/-- The bytes of the units that are there are in front. -/
theorem length_complete_le (units : List α) (bytes : List β) :
    ((complete wire units bytes).flatMap wire).length ≤ bytes.length := by
  induction units generalizing bytes with
  | nil => simp [complete]
  | cons u rest ih =>
    rw [complete]
    split_ifs with hu
    · have := ih (bytes.drop (wire u).length)
      rw [List.length_drop] at this
      rw [List.flatMap_cons, List.length_append]
      omega
    · simp

/-- Units may be taken in two steps, with more bytes for the second one. -/
theorem complete_append (units : List α) (a b : List β) :
    complete wire units (a ++ b) = complete wire units a ++
      complete wire (units.drop (complete wire units a).length)
        (a.drop ((complete wire units a).flatMap wire).length ++ b) := by
  induction units generalizing a with
  | nil => simp [complete]
  | cons u rest ih =>
    by_cases hu : (wire u).length ≤ a.length
    · have hab : (wire u).length ≤ (a ++ b).length := by
        rw [List.length_append]
        omega
      have ha : complete wire (u :: rest) a =
          u :: complete wire rest (a.drop (wire u).length) := by rw [complete, if_pos hu]
      rw [complete, if_pos hab, List.drop_append_of_le_length hu, ih, ha]
      simp [List.drop_drop]
    · simp [complete_of_lt wire (Nat.lt_of_not_le hu) rest]

/-- When the units that are there are taken, none is there. -/
theorem complete_drop (units : List α) (bytes : List β) :
    complete wire (units.drop (complete wire units bytes).length)
      (bytes.drop ((complete wire units bytes).flatMap wire).length) = [] := by
  have h := complete_append wire units bytes []
  rw [List.append_nil, List.append_nil] at h
  exact List.self_eq_append_right.mp h

variable {wire} in
/-- Before the first byte no unit is there. -/
theorem complete_nil {units : List α} (h : ∀ u ∈ units, wire u ≠ []) :
    complete wire units [] = [] := by
  cases units with
  | nil => rfl
  | cons u rest =>
    have hu := List.length_pos_of_ne_nil (List.forall_mem_cons.mp h).1
    exact complete_of_lt wire (by simpa using hu) rest

/-- Units of which all bytes have arrived are there. -/
theorem complete_flatMap (units : List α) : complete wire units (units.flatMap wire) = units := by
  induction units with
  | nil => rfl
  | cons u rest ih =>
    rw [List.flatMap_cons, complete_append_left, ih]

end Complete

namespace Framing

variable {wire : α → List β} {events : α → List ω}

theorem take_nil (s : Framing α β) : s.take wire s.unread [] = s := by
  simp [take]

/-- Units may be taken off in two steps. -/
theorem take_append (s : Framing α β) {bytes : List β} {us : List α} (b : List β) (vs : List α)
    (hus : (us.flatMap wire).length ≤ bytes.length) :
    (s.take wire bytes us).take wire ((s.take wire bytes us).unread ++ b) vs =
      s.take wire (bytes ++ b) (us ++ vs) := by
  simp only [take, List.append_assoc, List.drop_drop, List.length_append, List.flatMap_append]
  rw [← List.drop_drop (i := (vs.flatMap wire).length), List.drop_append_of_le_length hus]

/-- A run takes the units that have arrived, for every cut. -/
theorem run_eq {s : Framing α β} (hs : complete wire s.rest s.unread = [])
    (reads : List (List β)) :
    run (step wire events) s reads =
      some (s.take wire (s.unread ++ reads.flatten)
          (complete wire s.rest (s.unread ++ reads.flatten)),
        (complete wire s.rest (s.unread ++ reads.flatten)).flatMap events) := by
  induction reads generalizing s with
  | nil => simp [hs, take_nil]
  | cons data reads ih =>
    have hstep : step wire events s data =
        some (s.take wire (s.unread ++ data) (complete wire s.rest (s.unread ++ data)),
          (complete wire s.rest (s.unread ++ data)).flatMap events) := rfl
    have htaken := length_complete_le wire s.rest (s.unread ++ data)
    rw [run_cons, hstep, Option.bind_some, ih (complete_drop wire _ _), Option.map_some,
      List.flatten_cons, ← List.append_assoc, complete_append wire s.rest (s.unread ++ data),
      List.flatMap_append, take_append s _ _ htaken]
    rfl

/-- The unread bytes and the next ones begin the units that were not taken, where the
stream is one of these units. -/
theorem runOk_prefix {ok : Framing α β → List β → Prop} {s : Framing α β} {reads : List (List β)}
    (h : RunOk (step wire events) ok s reads)
    (hcut : s.unread ++ reads.flatten <+: s.rest.flatMap wire) :
    RunOk (step wire events) (fun s data => ok s data ∧ s.unread ++ data <+: s.rest.flatMap wire)
      s reads := by
  induction reads generalizing s with
  | nil => trivial
  | cons data reads ih =>
    rw [List.flatten_cons, ← List.append_assoc] at hcut
    refine ⟨⟨h.1, (List.prefix_append _ _).trans hcut⟩, ?_⟩
    intro r hr
    apply ih (h.2 r hr)
    cases hr
    -- the units that were taken are in front of both sides
    obtain ⟨rest, hrest⟩ := complete_prefix wire s.rest (s.unread ++ data)
    have hdrop : s.rest.drop (complete wire s.rest (s.unread ++ data)).length = rest := by
      have hleft := congrArg (List.drop (complete wire s.rest (s.unread ++ data)).length) hrest
      rw [List.drop_left] at hleft
      exact hleft.symm
    rw [← hrest, List.flatMap_append] at hcut
    simp only [take]
    rw [hdrop, ← List.drop_append_of_le_length (length_complete_le wire _ _)]
    simpa using hcut.drop ((complete wire s.rest (s.unread ++ data)).flatMap wire).length

/-- The rule for receivers: one that takes what is there with each read of a condition has
taken, after any number of such reads, what has arrived. -/
theorem run_refines {σ : Type*} {sys : σ → List β → Option (σ × List ω)}
    {ok : Framing α β → List β → Prop} (R : Framing α β → σ → Prop)
    (hstep : ∀ s q data, R s q → ok s data → s.unread ++ data <+: s.rest.flatMap wire →
      ∃ s' q' os, step wire events s data = some (s', os) ∧ sys q data = some (q', os) ∧ R s' q')
    {units : List α} (hne : ∀ u ∈ units, wire u ≠ []) {q : σ} (h0 : R (new units) q)
    {reads : List (List β)} (hcut : reads.flatten <+: units.flatMap wire)
    (hok : RunOk (step wire events) ok (new units) reads) :
    ∃ q', run sys q reads = some (q', (complete wire units reads.flatten).flatMap events) ∧
      R ((new units).take wire reads.flatten (complete wire units reads.flatten)) q' := by
  have hprefix := runOk_prefix hok (by simpa [new] using hcut)
  have hboth (s : Framing α β) (q : σ) (data : List β) (h : R s q)
      (hs : ok s data ∧ s.unread ++ data <+: s.rest.flatMap wire) :=
    hstep s q data h hs.1 hs.2
  obtain ⟨s, q', os, hs, hq, hR⟩ := RunOk.simulates R hboth hprefix h0
  have hnone : complete wire units [] = [] := complete_nil hne
  rw [run_eq hnone] at hs
  obtain ⟨rfl, rfl⟩ := Prod.mk.inj (Option.some.inj hs)
  exact ⟨q', hq, hR⟩

end Framing

end CxxDeps.Library
