import CxxDeps.Library.Run
import Mathlib.Data.List.Induction

/-! The queue of handlers that an `io_context` runs one by one. The first handler of an
empty queue posts a `handle_post`, and each `handle_post` runs the front handler and posts
the next one if there is more. The handlers do not call the queue.

`clear` takes back no `handle_post`, so several can be pending at once. -/

namespace CxxDeps.Sys

variable {η : Type*}

structure PostQueue (η : Type*) where
  queue : List η := []
  maxSize : ℕ := 1000
  deriving DecidableEq, Repr

namespace PostQueue

/-- Whether the handler is accepted, and how many `handle_post` this posts. -/
def post (handler : η) (s : PostQueue η) : PostQueue η × Bool × ℕ :=
  let qsize := s.queue.length
  if qsize ≥ s.maxSize then (s, false, 0)
  else ({ s with queue := s.queue ++ [handler] }, true, if qsize = 0 then 1 else 0)

def clear (s : PostQueue η) : PostQueue η := { s with queue := [] }

/-- The handler that is run, and how many `handle_post` this posts. -/
def handlePost (s : PostQueue η) : PostQueue η × Option η × ℕ :=
  match s.queue with
  | [] => (s, none, 0)
  | front :: rest => ({ s with queue := rest }, some front, if rest.isEmpty then 0 else 1)

end PostQueue

/-- The queue with the number of `handle_post` that the `io_context` is still to run. -/
structure Posting (η : Type*) where
  queue : PostQueue η
  pending : ℕ := 0
  deriving DecidableEq, Repr

namespace Posting

inductive Action (η : Type*)
  | post (handler : η)
  | clear
  | handlePost
  deriving DecidableEq, Repr

inductive Event (η : Type*)
  | accepted (handler : η)
  | refused (handler : η)
  | cleared
  | ran (handler : η)
  deriving DecidableEq, Repr

/-- A `handle_post` is only run if one is pending. -/
def step (s : Posting η) : Action η → Option (Posting η × List (Event η))
  | .post handler =>
    let (queue, ok, posted) := s.queue.post handler
    some (⟨queue, s.pending + posted⟩, [if ok then .accepted handler else .refused handler])
  | .clear => some ({ s with queue := s.queue.clear }, [.cleared])
  | .handlePost =>
    if s.pending = 0 then none
    else
      let (queue, handler, posted) := s.queue.handlePost
      some (⟨queue, s.pending - 1 + posted⟩, (handler.map Event.ran).toList)

def fresh (maxSize : ℕ) : Posting η := { queue := { maxSize } }

/-- The handlers that were run, in order. -/
def ran (events : List (Event η)) : List η :=
  events.filterMap fun
    | .ran handler => some handler
    | _ => none

/-- The handlers that were accepted, in order. -/
def accepted (events : List (Event η)) : List η :=
  events.filterMap fun
    | .accepted handler => some handler
    | _ => none

/-- What an account of the events keeps: the accepted handlers that no `clear` has met
before their turn, and how many of them have had it. -/
structure Account (η : Type*) where
  kept : List η := []
  turns : ℕ := 0

/-- A `clear` leaves of the handlers those that have had their turn. -/
def Account.enter (account : Account η) : Event η → Account η
  | .accepted handler => { account with kept := account.kept ++ [handler] }
  | .refused _ => account
  | .cleared => { account with kept := account.kept.take account.turns }
  | .ran _ => { account with turns := account.turns + 1 }

def account (events : List (Event η)) : Account η := events.foldl Account.enter {}

/-- The accepted handlers that were not cleared before their turn. -/
def kept (events : List (Event η)) : List η := (account events).kept

@[simp] theorem account_concat (events : List (Event η)) (e : Event η) :
    account (events ++ [e]) = (account events).enter e :=
  List.foldl_append

theorem kept_concat (events : List (Event η)) (e : Event η) :
    kept (events ++ [e]) = ((account events).enter e).kept := by
  rw [kept, account_concat]

theorem ran_append (events events' : List (Event η)) :
    ran (events ++ events') = ran events ++ ran events' :=
  List.filterMap_append

@[simp] theorem ran_ran (events : List (Event η)) (handler : η) :
    ran (events ++ [.ran handler]) = ran events ++ [handler] :=
  ran_append _ _

@[simp] theorem ran_accepted (events : List (Event η)) (handler : η) :
    ran (events ++ [.accepted handler]) = ran events :=
  (ran_append _ _).trans (List.append_nil _)

@[simp] theorem ran_refused (events : List (Event η)) (handler : η) :
    ran (events ++ [.refused handler]) = ran events :=
  (ran_append _ _).trans (List.append_nil _)

@[simp] theorem ran_cleared (events : List (Event η)) :
    ran (events ++ [.cleared]) = ran events :=
  (ran_append _ _).trans (List.append_nil _)

/-- What an account keeps was accepted, in this order. -/
theorem kept_sublist (events : List (Event η)) : (kept events).Sublist (accepted events) := by
  induction events using List.reverseRecOn with
  | nil => exact List.Sublist.slnil
  | append_singleton events e ih =>
    rw [kept_concat, accepted, List.filterMap_append]
    cases e with
    | accepted handler => exact ih.append (List.Sublist.refl [handler])
    | refused handler => exact ih.trans (List.sublist_append_left _ _)
    | cleared =>
      exact (List.take_sublist _ _).trans (ih.trans (List.sublist_append_left _ _))
    | ran handler => exact ih.trans (List.sublist_append_left _ _)

/-- The handlers run and those that wait are the ones kept, each of those run has had its
turn, and while some wait a `handle_post` is pending. -/
structure Accounted (s : Posting η) (events : List (Event η)) : Prop where
  kept_eq : kept events = ran events ++ s.queue.queue
  turns_eq : (account events).turns = (ran events).length
  pending_pos : s.queue.queue ≠ [] → 0 < s.pending

theorem accounted_fresh (maxSize : ℕ) : (fresh maxSize : Posting η).Accounted [] :=
  ⟨rfl, rfl, fun h => absurd rfl h⟩

/-- A handler is posted with a `handle_post` where nothing waits, and behind a pending one
where something does. -/
theorem Accounted.post {s : Posting η} {events : List (Event η)} (h : s.Accounted events)
    (handler : η) {posted : ℕ} (hposted : s.queue.queue = [] → posted = 1) :
    (⟨{ s.queue with queue := s.queue.queue ++ [handler] }, s.pending + posted⟩ :
      Posting η).Accounted (events ++ [.accepted handler]) where
  kept_eq := by
    rw [kept_concat, ran_accepted, ← List.append_assoc, ← h.kept_eq]
    rfl
  turns_eq := by
    rw [account_concat, ran_accepted]
    exact h.turns_eq
  pending_pos := by
    intro _
    by_cases hq : s.queue.queue = []
    · rw [hposted hq]
      exact Nat.succ_pos _
    · exact Nat.add_pos_left (h.pending_pos hq) _

theorem Accounted.refuse {s : Posting η} {events : List (Event η)} (h : s.Accounted events)
    (handler : η) : s.Accounted (events ++ [.refused handler]) where
  kept_eq := by
    rw [kept_concat, ran_refused]
    exact h.kept_eq
  turns_eq := by
    rw [account_concat, ran_refused]
    exact h.turns_eq
  pending_pos := h.pending_pos

/-- What is left after a `clear` has had its turn. -/
theorem Accounted.clear {s : Posting η} {events : List (Event η)} (h : s.Accounted events) :
    ({ s with queue := s.queue.clear } : Posting η).Accounted (events ++ [.cleared]) where
  kept_eq := by
    have hkept : (account events).kept = ran events ++ s.queue.queue := h.kept_eq
    rw [kept_concat, ran_cleared, Account.enter, hkept, h.turns_eq]
    simp [PostQueue.clear]
  turns_eq := by
    rw [account_concat, ran_cleared]
    exact h.turns_eq
  pending_pos := fun hq => absurd rfl hq

/-- The front handler has its turn, and another `handle_post` is posted for the rest. -/
theorem Accounted.handlePost {s : Posting η} {events : List (Event η)} (h : s.Accounted events)
    {front : η} {rest : List η} (hq : s.queue.queue = front :: rest) {pending : ℕ}
    (hpending : rest ≠ [] → 0 < pending) :
    (⟨{ s.queue with queue := rest }, pending⟩ : Posting η).Accounted
      (events ++ [.ran front]) where
  kept_eq := by
    rw [kept_concat, ran_ran, List.append_assoc]
    exact h.kept_eq.trans (congrArg _ hq)
  turns_eq := by
    rw [account_concat, ran_ran, List.length_append, ← h.turns_eq]
    rfl
  pending_pos := hpending

/-- A `handle_post` that finds the queue empty does nothing. -/
theorem step_handlePost_nil {s : Posting η} (hq : s.queue.queue = []) (hs : 0 < s.pending) :
    s.step .handlePost = some ({ s with pending := s.pending - 1 }, []) := by
  simp [step, PostQueue.handlePost, hq, Nat.pos_iff_ne_zero.mp hs]

theorem step_handlePost_cons {s : Posting η} {front : η} {rest : List η}
    (hq : s.queue.queue = front :: rest) (hs : 0 < s.pending) :
    s.step .handlePost = some (⟨{ s.queue with queue := rest },
      s.pending - 1 + if rest.isEmpty then 0 else 1⟩, [.ran front]) := by
  simp [step, PostQueue.handlePost, hq, Nat.pos_iff_ne_zero.mp hs]

theorem Accounted.step {s t : Posting η} {a : Action η} {out events : List (Event η)}
    (h : s.Accounted out) (hs : s.step a = some (t, events)) : t.Accounted (out ++ events) := by
  cases a with
  | post handler =>
    simp only [Posting.step, PostQueue.post, Option.some.injEq, Prod.mk.injEq] at hs
    obtain ⟨rfl, rfl⟩ := hs
    by_cases hfull : s.queue.queue.length ≥ s.queue.maxSize
    · simpa [if_pos hfull] using h.refuse handler
    · simp only [if_neg hfull]
      exact h.post handler fun hq => if_pos (by rw [hq]; rfl)
  | clear =>
    obtain ⟨rfl, rfl⟩ := Prod.mk.inj (Option.some.inj hs)
    exact h.clear
  | handlePost =>
    by_cases hpending : s.pending = 0
    · simp [Posting.step, hpending] at hs
    have hpos : 0 < s.pending := Nat.pos_iff_ne_zero.mpr hpending
    cases hq : s.queue.queue with
    | nil =>
      rw [step_handlePost_nil hq hpos] at hs
      obtain ⟨rfl, rfl⟩ := Prod.mk.inj (Option.some.inj hs)
      rw [List.append_nil]
      exact ⟨h.kept_eq, h.turns_eq, fun hne => absurd hq hne⟩
    | cons front rest =>
      rw [step_handlePost_cons hq hpos] at hs
      obtain ⟨rfl, rfl⟩ := Prod.mk.inj (Option.some.inj hs)
      refine h.handlePost hq fun hrest => ?_
      simp [hrest]

/-- With nothing posted or cleared, as many `handle_post` as there are handlers run them
all. -/
theorem drain (queue : List η) (s : Posting η) (hq : s.queue.queue = queue)
    (hs : queue ≠ [] → 0 < s.pending) :
    ∃ t, Library.run step s (List.replicate queue.length .handlePost) =
      some (t, queue.map Event.ran) ∧ t.queue.queue = [] := by
  induction queue generalizing s with
  | nil => exact ⟨s, rfl, hq⟩
  | cons front rest ih =>
    have hstep := step_handlePost_cons hq (hs (List.cons_ne_nil _ _))
    obtain ⟨t, ht, hempty⟩ := ih ⟨{ s.queue with queue := rest },
      s.pending - 1 + if rest.isEmpty then 0 else 1⟩ rfl (by simp +contextual)
    exact ⟨t, Library.run_cons_eq_some.mpr ⟨_, _, _, hstep, ht, rfl⟩, hempty⟩

/-- In every run the handlers run, followed by those that wait, are the accepted ones that
were not cleared before their turn, in the order they were posted. While some wait, a
`handle_post` is pending, and then as many of them run them all; one that finds the
queue empty does nothing. -/
theorem run_in_order {maxSize : ℕ} {actions : List (Action η)} {s : Posting η}
    {events : List (Event η)}
    (hr : Library.run step (fresh maxSize) actions = some (s, events)) :
    ran events ++ s.queue.queue = kept events ∧ (kept events).Sublist (accepted events) ∧
    (s.queue.queue ≠ [] → 0 < s.pending) ∧
    (∃ t, Library.run step s (List.replicate s.queue.queue.length .handlePost) =
      some (t, s.queue.queue.map Event.ran) ∧ t.queue.queue = []) ∧
    (s.queue.queue = [] → 0 < s.pending →
      s.step .handlePost = some ({ s with pending := s.pending - 1 }, [])) := by
  have hacc : s.Accounted events :=
    Library.run_relation Accounted (fun _ _ _ _ _ h hs => h.step hs) [] (accounted_fresh maxSize) hr
  exact ⟨hacc.kept_eq.symm, kept_sublist events, hacc.pending_pos,
    drain s.queue.queue s rfl hacc.pending_pos, step_handlePost_nil⟩

/-- A handler that is cleared before its turn, and another that two pending `handle_post`
find. -/
theorem run_in_order_cleared :
    Library.run step (fresh 2) [.post 'a', .clear, .post 'b', .handlePost, .handlePost] =
        some (⟨{ maxSize := 2 }, 0⟩, [.accepted 'a', .cleared, .accepted 'b', .ran 'b']) ∧
      kept [.accepted 'a', .cleared, .accepted 'b', .ran 'b'] = ['b'] :=
  have hr : Library.run step (fresh 2) [.post 'a', .clear, .post 'b', .handlePost, .handlePost] =
      some (⟨{ maxSize := 2 }, 0⟩, [.accepted 'a', .cleared, .accepted 'b', .ran 'b']) := by
    decide
  ⟨hr, (run_in_order hr).1.symm⟩

end Posting

end CxxDeps.Sys
