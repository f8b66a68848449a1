import CxxDeps.Library.Run

/-! `blocking_queue` between threads. A step is what one thread does while it holds the mutex,
or a `notify_one` after it has left it; `close` and `reset` do not take the mutex. Consumers
only differ in where they are: outside of `pop`, asleep in it, or woken and about to take the
mutex back. -/

namespace CxxDeps.Sys

open Library

variable {α : Type*}

/-- `blocking_queue`; values are taken from the front of `queue`, the back of `m_queue`. -/
structure BlockingQueue (α : Type*) where
  queue : List α := []
  cancel : Bool := false
  maxSize : ℕ := 10000
  deriving DecidableEq, Repr

namespace BlockingQueue

/-- `push` under the mutex: what it returns, and whether it calls `notify_one` afterwards. -/
def push (value : α) (q : BlockingQueue α) : BlockingQueue α × Bool × Bool :=
  if q.cancel then (q, false, false)
  else
    let c := q.queue.length
    if c ≥ q.maxSize then (q, false, false)
    else ({ q with queue := q.queue ++ [value] }, true, c = 0)

/-- What a consumer waits for. -/
def ready (q : BlockingQueue α) : Bool := if q.cancel then true else !q.queue.isEmpty

/-- `pop` after its wait. -/
def take (q : BlockingQueue α) : BlockingQueue α × Option α :=
  if q.cancel then (q, none)
  else
    match q.queue with
    | [] => (q, none)
    | value :: rest => ({ q with queue := rest }, some value)

def clear (q : BlockingQueue α) : BlockingQueue α := { q with queue := [] }

end BlockingQueue

/-- A queue and its consumers. -/
structure Blocking (α : Type*) where
  queue : BlockingQueue α
  outside : ℕ
  asleep : ℕ := 0
  woken : ℕ := 0
  /-- The threads that are still to call `notify_one`. -/
  notices : ℕ := 0
  deriving DecidableEq, Repr

namespace Blocking

inductive Action (α : Type*)
  | push (value : α)
  | notifyOne
  /-- A consumer calls `pop`. -/
  | pop
  /-- A woken consumer has the mutex back. -/
  | resume
  /-- A consumer wakes up without a notice. -/
  | spurious
  | clear
  | close
  | reset
  deriving DecidableEq, Repr

inductive Event (α : Type*)
  | accepted (value : α)
  | refused (value : α)
  | popped (value : α)
  | failed
  | cleared (values : List α)
  /-- A `notify_one` is due. -/
  | due
  deriving DecidableEq, Repr

/-- The end of `pop`, for a consumer that is then outside again. -/
def finish (s : Blocking α) : Blocking α × List (Event α) :=
  let (queue, value) := s.queue.take
  ({ s with queue }, [value.elim .failed .popped])

def step (s : Blocking α) : Action α → Option (Blocking α × List (Event α))
  | .push value =>
    let (queue, ok, notify) := s.queue.push value
    some ({ s with queue, notices := if notify then s.notices + 1 else s.notices },
      (if ok then .accepted value else .refused value) :: if notify then [.due] else [])
  | .notifyOne =>
    if s.notices = 0 then none
    else if s.asleep = 0 then some ({ s with notices := s.notices - 1 }, [])
    else
      some ({ s with notices := s.notices - 1, asleep := s.asleep - 1, woken := s.woken + 1 }, [])
  | .pop =>
    if s.outside = 0 then none
    else if s.queue.ready then some s.finish
    else some ({ s with outside := s.outside - 1, asleep := s.asleep + 1 }, [])
  | .resume =>
    if s.woken = 0 then none
    else if s.queue.ready then
      some (finish { s with woken := s.woken - 1, outside := s.outside + 1 })
    else some ({ s with woken := s.woken - 1, asleep := s.asleep + 1 }, [])
  | .spurious =>
    if s.asleep = 0 then none
    else some ({ s with asleep := s.asleep - 1, woken := s.woken + 1 }, [])
  | .clear => some ({ s with queue := s.queue.clear }, [.cleared s.queue.queue])
  | .close => some ({ s with queue.cancel := true, notices := s.notices + 1 }, [.due])
  | .reset => some ({ s with queue.cancel := false }, [])

/-- A new queue, with consumers that have not called it. -/
def fresh (maxSize consumers : ℕ) : Blocking α where
  queue := { maxSize }
  outside := consumers

/-- The values that were accepted, in order. -/
def accepted (events : List (Event α)) : List α :=
  events.filterMap fun
    | .accepted value => some value
    | _ => none

/-- The values that were popped or cleared, in order. -/
def gone (events : List (Event α)) : List α :=
  events.flatMap fun
    | .popped value => [value]
    | .cleared values => values
    | _ => []

/-- The `notify_one` that came due. -/
def due (events : List (Event α)) : ℕ :=
  (events.filter fun
    | .due => true
    | _ => false).length

theorem accepted_append (events events' : List (Event α)) :
    accepted (events ++ events') = accepted events ++ accepted events' :=
  List.filterMap_append

theorem gone_append (events events' : List (Event α)) :
    gone (events ++ events') = gone events ++ gone events' :=
  List.flatMap_append

theorem due_append (events events' : List (Event α)) :
    due (events ++ events') = due events + due events' := by
  rw [due, due, due, List.filter_append, List.length_append]

/-! ### One step -/

/-- What a step can do. -/
inductive Moves (s : Blocking α) : Action α → Blocking α → List (Event α) → Prop
  | refused (value : α) : Moves s (.push value) s [.refused value]
  | first (value : α) (hcancel : s.queue.cancel = false) (hqueue : s.queue.queue = []) :
    Moves s (.push value) { s with queue.queue := [value], notices := s.notices + 1 }
      [.accepted value, .due]
  | further (value : α) (hcancel : s.queue.cancel = false) (hqueue : s.queue.queue ≠ []) :
    Moves s (.push value) { s with queue.queue := s.queue.queue ++ [value] } [.accepted value]
  | unheard (hnotices : s.notices ≠ 0) (hasleep : s.asleep = 0) :
    Moves s .notifyOne { s with notices := s.notices - 1 } []
  | heard (hnotices : s.notices ≠ 0) (hasleep : s.asleep ≠ 0) :
    Moves s .notifyOne
      { s with notices := s.notices - 1, asleep := s.asleep - 1, woken := s.woken + 1 } []
  | failed (houtside : s.outside ≠ 0) : Moves s .pop s [.failed]
  | popped (houtside : s.outside ≠ 0) (value : α) (rest : List α)
    (hqueue : s.queue.queue = value :: rest) :
    Moves s .pop { s with queue.queue := rest } [.popped value]
  | sleeps (houtside : s.outside ≠ 0) (hcancel : s.queue.cancel = false)
    (hqueue : s.queue.queue = []) :
    Moves s .pop { s with outside := s.outside - 1, asleep := s.asleep + 1 } []
  | resumedFailed (hwoken : s.woken ≠ 0) :
    Moves s .resume { s with woken := s.woken - 1, outside := s.outside + 1 } [.failed]
  | resumedPopped (hwoken : s.woken ≠ 0) (value : α) (rest : List α)
    (hqueue : s.queue.queue = value :: rest) :
    Moves s .resume
      { s with queue.queue := rest, woken := s.woken - 1, outside := s.outside + 1 }
      [.popped value]
  | sleepsAgain (hwoken : s.woken ≠ 0) (hcancel : s.queue.cancel = false)
    (hqueue : s.queue.queue = []) :
    Moves s .resume { s with woken := s.woken - 1, asleep := s.asleep + 1 } []
  | spurious (hasleep : s.asleep ≠ 0) :
    Moves s .spurious { s with asleep := s.asleep - 1, woken := s.woken + 1 } []
  | clear : Moves s .clear { s with queue.queue := [] } [.cleared s.queue.queue]
  | close : Moves s .close { s with queue.cancel := true, notices := s.notices + 1 } [.due]
  | reset : Moves s .reset { s with queue.cancel := false } []

variable {s t : Blocking α} {a : Action α} {as : List (Action α)} {o os : List (Event α)}

theorem queue_of_ready_eq_false (h : ¬ s.queue.ready = true) :
    s.queue.cancel = false ∧ s.queue.queue = [] := by
  unfold BlockingQueue.ready at h
  split at h
  · exact absurd rfl h
  · exact ⟨Bool.eq_false_iff.mpr ‹_›, by simpa using h⟩

theorem push_cases (q : BlockingQueue α) (value : α) : q.push value = (q, false, false) ∨
    q.cancel = false ∧ q.queue = [] ∧ q.push value = ({ q with queue := [value] }, true, true) ∨
    q.cancel = false ∧ q.queue ≠ [] ∧
      q.push value = ({ q with queue := q.queue ++ [value] }, true, false) := by
  unfold BlockingQueue.push
  split
  · exact .inl rfl
  · have hcancel : q.cancel = false := Bool.eq_false_iff.mpr ‹_›
    dsimp only
    split
    · exact .inl rfl
    · by_cases hqueue : q.queue = []
      · exact .inr (.inl ⟨hcancel, hqueue, by simp [hqueue]⟩)
      · exact .inr (.inr ⟨hcancel, hqueue, by simp [hqueue]⟩)

theorem take_cases (q : BlockingQueue α) : q.take = (q, none) ∨
    ∃ value rest, q.queue = value :: rest ∧ q.take = ({ q with queue := rest }, some value) := by
  unfold BlockingQueue.take
  split
  · exact .inl rfl
  · split
    · exact .inl rfl
    · exact .inr ⟨_, _, ‹_›, rfl⟩

/-- The end of `pop` takes the first value, or nothing. -/
theorem finish_cases (s : Blocking α) : s.finish = (s, [.failed]) ∨
    ∃ value rest, s.queue.queue = value :: rest ∧
      s.finish = ({ s with queue.queue := rest }, [.popped value]) := by
  rcases take_cases s.queue with htake | ⟨value, rest, hqueue, htake⟩
  · exact .inl (by rw [finish, htake]; rfl)
  · exact .inr ⟨value, rest, hqueue, by rw [finish, htake]; rfl⟩

theorem moves_of_step (h : step s a = some (t, o)) : Moves s a t o := by
  cases a with
  | push value =>
    rw [step] at h
    rcases push_cases s.queue value with heq | ⟨hcancel, hqueue, heq⟩ | ⟨hcancel, hqueue, heq⟩ <;>
      rw [heq] at h <;> obtain ⟨rfl, rfl⟩ := Prod.mk.inj (Option.some.inj h)
    · exact .refused value
    · exact .first value hcancel hqueue
    · exact .further value hcancel hqueue
  | notifyOne =>
    rw [step] at h
    split at h
    · exact absurd h (by simp)
    · split at h <;> obtain ⟨rfl, rfl⟩ := Prod.mk.inj (Option.some.inj h)
      · exact .unheard ‹_› ‹_›
      · exact .heard ‹_› ‹_›
  | pop =>
    rw [step] at h
    split at h
    · exact absurd h (by simp)
    · split at h
      · rcases s.finish_cases with heq | ⟨value, rest, hqueue, heq⟩ <;>
          obtain ⟨rfl, rfl⟩ := Prod.mk.inj (heq.symm.trans (Option.some.inj h))
        · exact .failed ‹_›
        · exact .popped ‹_› value rest hqueue
      · obtain ⟨rfl, rfl⟩ := Prod.mk.inj (Option.some.inj h)
        obtain ⟨hcancel, hqueue⟩ := queue_of_ready_eq_false ‹_›
        exact .sleeps ‹_› hcancel hqueue
  | resume =>
    rw [step] at h
    split at h
    · exact absurd h (by simp)
    · split at h
      · rcases finish_cases { s with woken := s.woken - 1, outside := s.outside + 1 } with
          heq | ⟨value, rest, hqueue, heq⟩ <;>
          obtain ⟨rfl, rfl⟩ := Prod.mk.inj (heq.symm.trans (Option.some.inj h))
        · exact .resumedFailed ‹_›
        · exact .resumedPopped ‹_› value rest hqueue
      · obtain ⟨rfl, rfl⟩ := Prod.mk.inj (Option.some.inj h)
        obtain ⟨hcancel, hqueue⟩ := queue_of_ready_eq_false ‹_›
        exact .sleepsAgain ‹_› hcancel hqueue
  | spurious =>
    rw [step] at h
    split at h
    · exact absurd h (by simp)
    · obtain ⟨rfl, rfl⟩ := Prod.mk.inj (Option.some.inj h)
      exact .spurious ‹_›
  | clear =>
    obtain ⟨rfl, rfl⟩ := Prod.mk.inj (Option.some.inj h)
    exact .clear
  | close =>
    obtain ⟨rfl, rfl⟩ := Prod.mk.inj (Option.some.inj h)
    exact .close
  | reset =>
    obtain ⟨rfl, rfl⟩ := Prod.mk.inj (Option.some.inj h)
    exact .reset

/-- An accepted value is put behind the others, and values leave from the front. -/
theorem Moves.values (h : Moves s a t o) :
    s.queue.queue ++ accepted o = gone o ++ t.queue.queue := by
  cases h <;> simp_all [accepted, gone]

/-- Consumers are not lost. -/
theorem Moves.consumers (h : Moves s a t o) :
    t.outside + t.asleep + t.woken = s.outside + s.asleep + s.woken := by
  cases h <;> dsimp only <;> omega

/-- One notice wakes at most one consumer. -/
theorem Moves.asleep_le (h : Moves s a t o) (ha : a ≠ .spurious) :
    s.asleep + t.notices ≤ t.asleep + s.notices + due o := by
  cases h with
  | spurious => exact absurd rfl ha
  | _ => simp [due] <;> omega

theorem Moves.notices_le (h : Moves s a t o) : t.notices ≤ s.notices + due o := by
  cases h <;> simp [due]

/-- A closed queue stays closed and takes no values. -/
theorem Moves.cancelled (h : Moves s a t o) (hcancel : s.queue.cancel = true) (hclose : a ≠ .close)
    (hreset : a ≠ .reset) : t.queue.cancel = true ∧ due o = 0 := by
  cases h <;> simp_all [due]

/-! ### Every run -/

/-- Every accepted value is in the queue or was popped or cleared, once and in the order of the
pushes. -/
theorem blocking_in_order {maxSize consumers : ℕ}
    (h : run step (fresh maxSize consumers) as = some (t, os)) :
    accepted os = gone os ++ t.queue.queue := by
  refine run_relation (fun s out => accepted out = gone out ++ s.queue.queue)
    (fun s out a s' o hout hstep => ?_) [] rfl h
  rw [accepted_append, gone_append, hout, List.append_assoc, List.append_assoc,
    (moves_of_step hstep).values]

/-- Two values, one of which is popped before the queue is cleared. -/
theorem blocking_in_order_two : ∃ (t : Blocking ℕ) (os : List (Event ℕ)),
    run step (fresh 10 1) [.push 7, .push 8, .pop, .clear] = some (t, os) ∧
      accepted os = gone os ++ t.queue.queue := by
  obtain ⟨r, hrun⟩ : ∃ r, run step (fresh 10 1 : Blocking ℕ) [.push 7, .push 8, .pop, .clear] =
    some r := ⟨_, rfl⟩
  exact ⟨r.1, r.2, hrun, blocking_in_order hrun⟩

/-- While there is a value and no notice is under way, some consumer is not asleep. -/
structure Attended (consumers : ℕ) (s : Blocking α) : Prop where
  consumers_eq : s.outside + s.asleep + s.woken = consumers
  awake : s.queue.queue ≠ [] → s.notices = 0 → s.asleep < consumers

theorem Attended.step {consumers : ℕ} (hs : Attended consumers s) (hpos : 0 < consumers)
    (h : step s a = some (t, o)) : Attended consumers t := by
  have hmoves := moves_of_step h
  refine ⟨hmoves.consumers.trans hs.consumers_eq, fun hqueue hnotices => ?_⟩
  have hall := hs.consumers_eq
  cases hmoves with
  | refused | failed | resumedFailed | reset => exact hs.awake hqueue hnotices
  | further value hcancel hne => exact hs.awake hne hnotices
  | popped houtside value rest heq | resumedPopped houtside value rest heq =>
    exact hs.awake (heq ▸ List.cons_ne_nil value rest) hnotices
  -- a notice is under way
  | first | close => exact absurd hnotices (Nat.succ_ne_zero _)
  | unheard hpending hasleep => exact hasleep ▸ hpos
  | heard hpending hasleep | spurious hasleep =>
    have hlt : s.asleep - 1 < s.asleep := Nat.pred_lt hasleep
    exact Nat.lt_of_lt_of_le hlt (by omega)
  -- a consumer goes to sleep with an empty queue only
  | sleeps houtside hcancel hempty | sleepsAgain houtside hcancel hempty =>
    exact absurd hempty hqueue
  | clear => exact absurd rfl hqueue

/-- With at least one consumer it does not come to it that all are asleep, no notice is under
way and there is a value in the queue. A single consumer is then not asleep at all. -/
theorem blocking_attended {maxSize consumers : ℕ} (hpos : 0 < consumers)
    (h : run step (fresh maxSize consumers) as = some (t, os)) (hqueue : t.queue.queue ≠ [])
    (hnotices : t.notices = 0) : t.asleep < consumers := by
  have hfresh : Attended consumers (fresh maxSize consumers : Blocking α) :=
    ⟨rfl, fun _ _ => hpos⟩
  exact (run_invariant (fun _ _ _ _ hs hstep => hs.step hpos hstep) hfresh h).awake hqueue hnotices

/-- A consumer waits, and is attended to when values come. -/
theorem blocking_attended_one : ∃ t : Blocking ℕ,
    run step (fresh 10 1) [.pop, .push 7, .push 8, .notifyOne] =
      some (t, [.accepted 7, .due, .accepted 8]) ∧ t.asleep < 1 := by
  obtain ⟨t, ht⟩ : ∃ t : Blocking ℕ, t =
    { queue := { queue := [7, 8], maxSize := 10 }, outside := 0, woken := 1 } := ⟨_, rfl⟩
  have hrun : run step (fresh 10 1) [.pop, .push 7, .push 8, .notifyOne] =
      some (t, [.accepted 7, .due, .accepted 8]) := by rw [ht]; rfl
  exact ⟨t, hrun, blocking_attended (by decide) hrun (by rw [ht]; decide) (by rw [ht])⟩

/-- No notice comes of the step: pushes meet a queue that has values. -/
def Unnoticed (s : Blocking α) : Action α → Prop
  | .push _ => s.queue.queue ≠ []
  | .spurious | .close => False
  | _ => True

theorem Moves.unnoticed (h : Moves s a t o) (ha : Unnoticed s a) : due o = 0 ∧ a ≠ .spurious := by
  cases h <;> simp_all [due, Unnoticed]

/-- The `notify_one` of a push is lost on all but one consumer: as long as the queue does not
run empty between the pushes, those who are asleep sleep on, however many values there are. -/
theorem blocking_sleeps_on (hnotices : s.notices = 0) (hok : RunOk step Unnoticed s as)
    (h : run step s as = some (t, os)) : s.asleep ≤ t.asleep ∧ t.notices = 0 := by
  have hend := RunOk.invariant (fun u _ => s.asleep ≤ u.asleep ∧ u.notices = 0)
    (fun u out a u' o hu ha hstep => by
      have hmoves := moves_of_step hstep
      obtain ⟨hdue, hne⟩ := hmoves.unnoticed ha
      have hle := hmoves.asleep_le hne
      have hnotices := hmoves.notices_le
      omega)
    [] hok ⟨Nat.le_refl _, hnotices⟩ h
  exact hend

/-- Two consumers wait for two values. One is woken, and takes one of the values after the other
as they come; the other one sleeps on, next to a value. -/
theorem blocking_sleeps_on_two : ∃ s t : Blocking ℕ,
    run step (fresh 10 2) [.pop, .pop, .push 7, .push 8, .notifyOne] =
        some (s, [.accepted 7, .due, .accepted 8]) ∧
      run step s [.resume, .push 9, .pop] = some (t, [.popped 7, .accepted 9, .popped 8]) ∧
      t.queue.queue = [9] ∧ s.asleep = 1 ∧ s.asleep ≤ t.asleep := by
  obtain ⟨s, hs⟩ : ∃ s : Blocking ℕ, s =
    { queue := { queue := [7, 8], maxSize := 10 }, outside := 0, asleep := 1, woken := 1 } :=
    ⟨_, rfl⟩
  obtain ⟨t, ht⟩ : ∃ t : Blocking ℕ, t =
    { queue := { queue := [9], maxSize := 10 }, outside := 1, asleep := 1 } := ⟨_, rfl⟩
  have hrun : run step s [.resume, .push 9, .pop] =
      some (t, [.popped 7, .accepted 9, .popped 8]) := by rw [hs, ht]; rfl
  have hok : RunOk step Unnoticed s [.resume, .push 9, .pop] := by
    rw [hs]
    refine ⟨trivial, fun r hr => ?_⟩
    obtain rfl := Option.some.inj hr
    exact ⟨List.cons_ne_nil 8 [], fun _ _ => ⟨trivial, fun _ _ => trivial⟩⟩
  exact ⟨s, t, by rw [hs]; rfl, hrun, by rw [ht], by rw [hs],
    (blocking_sleeps_on (by rw [hs]) hok hrun).1⟩

/-- After a `close`, whatever the threads do: apart from spurious wake-ups only one consumer is
woken for it, besides those for whom a notice was under way, until the queue is reset or closed
again. -/
theorem blocking_close_wakes (has : ∀ a ∈ as, a ≠ .spurious ∧ a ≠ .close ∧ a ≠ .reset)
    (h : run step s (.close :: as) = some (t, os)) : s.asleep ≤ t.asleep + s.notices + 1 := by
  obtain ⟨s', o, o', hclose, hrun, -⟩ := run_cons_eq_some.mp h
  obtain ⟨rfl, -⟩ := Prod.mk.inj (Option.some.inj hclose)
  have hok := (RunOk.of_forall (fun _ _ => trivial)
    { s with queue.cancel := true, notices := s.notices + 1 } as :
      RunOk step (fun _ _ => True) _ as).restrict has
  have hend := RunOk.invariant
    (fun u _ => u.queue.cancel = true ∧ s.asleep + u.notices ≤ u.asleep + s.notices + 1)
    (fun u out a u' o hu ha hstep => by
      have hmoves := moves_of_step hstep
      obtain ⟨hcancel, hdue⟩ := hmoves.cancelled hu.1 ha.1.2.1 ha.1.2.2
      have hle := hmoves.asleep_le ha.1.1
      exact ⟨hcancel, by omega⟩)
    [] hok ⟨rfl, by dsimp only; omega⟩ hrun
  omega

/-- Three consumers wait when the queue is closed. -/
theorem blocking_close_wakes_three : ∃ s t : Blocking ℕ,
    run step (fresh 10 3) [.pop, .pop, .pop] = some (s, []) ∧
      run step s [.close, .notifyOne, .resume, .push 7] = some (t, [.due, .failed, .refused 7]) ∧
      s.asleep ≤ t.asleep + 0 + 1 := by
  obtain ⟨s, hs⟩ : ∃ s : Blocking ℕ, s =
    { queue := { maxSize := 10 }, outside := 0, asleep := 3 } := ⟨_, rfl⟩
  obtain ⟨t, ht⟩ : ∃ t : Blocking ℕ, t =
    { queue := { maxSize := 10, cancel := true }, outside := 1, asleep := 2 } := ⟨_, rfl⟩
  have hrun : run step s [.close, .notifyOne, .resume, .push 7] =
      some (t, [.due, .failed, .refused 7]) := by rw [hs, ht]; rfl
  have hwakes := blocking_close_wakes (by decide) hrun
  rw [show s.notices = 0 by rw [hs]] at hwakes
  exact ⟨s, t, by rw [hs]; rfl, hrun, hwakes⟩

end Blocking

end CxxDeps.Sys
