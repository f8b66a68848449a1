import CxxDeps.Library.Run
import Mathlib.Data.List.Flatten

/-! The sending queue of a socket. Only the front message is being written, and a write
may take fewer bytes than it was given: then the rest of the message is written again.

Each write calls `handle_write` once, at any time after it was started and in any order
with the calls of `send`. -/

namespace CxxDeps.Sys

variable {σ : Type*}

/-- An `async_write_some` that has not called its handler yet. -/
structure Write (σ : Type*) where
  socket : σ
  data : List UInt8
  deriving DecidableEq, Repr

structure SendingQueue where
  queue : List (List UInt8) := []
  maxSize : ℕ := 500
  offset : ℕ := 0
  deriving DecidableEq, Repr

namespace SendingQueue

/-- Whether the message is accepted, and the write that it starts. -/
def send (socket : σ) (message : List UInt8) (s : SendingQueue) :
    SendingQueue × Bool × Option (Write σ) :=
  let qsize := s.queue.length
  if qsize ≥ s.maxSize then (s, false, none)
  else
    let queue := s.queue ++ [message]
    if qsize = 0 then ({ s with queue, offset := 0 }, true, queue.head?.map (Write.mk socket))
    else ({ s with queue }, true, none)

def clear (s : SendingQueue) : SendingQueue := { s with queue := [] }

/-- What follows on a write of this many bytes, with the next write. -/
def handleWrite (socket : σ) (ec : Bool) (bytes : ℕ) (s : SendingQueue) :
    SendingQueue × Option (Write σ) :=
  if ec then (s.clear, none)
  else
    match s.queue with
    | [] => (s, none)
    | front :: rest =>
      let offset := s.offset + bytes
      if offset ≥ front.length then
        ({ s with queue := rest, offset := 0 }, rest.head?.map (Write.mk socket))
      else ({ s with offset }, some ⟨socket, front.drop offset⟩)

end SendingQueue

/-- The queue with the writes that are still to call their handlers. -/
structure Sending (σ : Type*) where
  sender : SendingQueue
  outstanding : List (Write σ) := []
  deriving DecidableEq, Repr

namespace Sending

inductive Action (σ : Type*)
  | send (socket : σ) (message : List UInt8)
  /-- A write of the outstanding ones has taken this many bytes. -/
  | wrote (index bytes : ℕ)
  | failed (index bytes : ℕ)
  deriving DecidableEq, Repr

def Action.Successful : Action σ → Prop
  | .failed _ _ => False
  | _ => True

instance (a : Action σ) : Decidable a.Successful :=
  match a with
  | .failed _ _ => .isFalse id
  | .send _ _ | .wrote _ _ => .isTrue trivial

inductive Event
  | accepted (message : List UInt8)
  | refused (message : List UInt8)
  | completed (data : List UInt8)
  | failed
  deriving DecidableEq, Repr

/-- The handler of an outstanding write, which may start another one. -/
def handled (index : ℕ) (w : Write σ) (ec : Bool) (bytes : ℕ) (s : Sending σ) : Sending σ :=
  let (sender, next) := s.sender.handleWrite w.socket ec bytes
  ⟨sender, s.outstanding.eraseIdx index ++ next.toList⟩

/-- One call of `send` or of a handler. A write takes at most the bytes it was given. -/
def step (s : Sending σ) : Action σ → Option (Sending σ × List Event)
  | .send socket message =>
    let (sender, ok, started) := s.sender.send socket message
    some (⟨sender, s.outstanding ++ started.toList⟩,
      [if ok then .accepted message else .refused message])
  | .wrote index bytes =>
    s.outstanding[index]?.bind fun w =>
      if bytes ≤ w.data.length then
        some (s.handled index w false bytes, [.completed (w.data.take bytes)])
      else none
  | .failed index bytes =>
    s.outstanding[index]?.map fun w => (s.handled index w true bytes, [.failed])

def fresh (maxSize : ℕ) : Sending σ := { sender := { maxSize } }

/-- The messages that were accepted, in order. -/
def accepted (events : List Event) : List (List UInt8) :=
  events.filterMap fun
    | .accepted message => some message
    | _ => none

/-- The bytes that the socket has taken. -/
def completed (events : List Event) : List UInt8 :=
  (events.filterMap fun
    | .completed data => some data
    | _ => none).flatten

@[simp] theorem accepted_append (events events' : List Event) :
    accepted (events ++ events') = accepted events ++ accepted events' :=
  List.filterMap_append

@[simp] theorem completed_append (events events' : List Event) :
    completed (events ++ events') = completed events ++ completed events' := by
  simp only [completed, List.filterMap_append, List.flatten_append]

/-- Nothing is being written if the queue is empty, and otherwise the rest of its front. -/
def Serial (s : Sending σ) : Prop :=
  match s.sender.queue with
  | [] => s.outstanding = []
  | front :: _ => ∃ socket, s.outstanding = [⟨socket, front.drop s.sender.offset⟩]

/-- The messages that have left the queue were taken entirely, and of its front the bytes
up to the offset. -/
def Accounted (s : Sending σ) (events : List Event) : Prop :=
  ∃ gone, accepted events = gone ++ s.sender.queue ∧
    completed events = gone.flatten ++ (s.sender.queue.headD []).take s.sender.offset

theorem serial_nil {s : Sending σ} (hq : s.sender.queue = []) :
    s.Serial ↔ s.outstanding = [] := by
  rw [Serial, hq]

theorem serial_cons {s : Sending σ} {front : List UInt8} {rest : List (List UInt8)}
    (hq : s.sender.queue = front :: rest) :
    s.Serial ↔ ∃ socket, s.outstanding = [⟨socket, front.drop s.sender.offset⟩] := by
  rw [Serial, hq]

/-- A write that is to call its handler is the only one, and holds the rest of the front. -/
theorem Serial.outstanding_eq {s : Sending σ} (h : s.Serial) {index : ℕ} {w : Write σ}
    (hw : s.outstanding[index]? = some w) :
    index = 0 ∧ s.outstanding = [w] ∧
      ∃ front rest, s.sender.queue = front :: rest ∧ w.data = front.drop s.sender.offset := by
  cases hq : s.sender.queue with
  | nil => simp [(serial_nil hq).mp h] at hw
  | cons front rest =>
    obtain ⟨socket, hout⟩ := (serial_cons hq).mp h
    rw [hout, List.getElem?_singleton] at hw
    obtain ⟨rfl, hw⟩ := Option.ite_none_right_eq_some.mp hw
    obtain rfl := Option.some.inj hw
    exact ⟨rfl, hout, front, rest, rfl, rfl⟩

/-- What a `send` does: nothing to a full queue; in an empty one the message is written
at once, and else it waits. -/
theorem step_send {s t : Sending σ} {socket : σ} {message : List UInt8} {events : List Event}
    (hs : s.step (.send socket message) = some (t, events)) :
    (t = s ∧ events = [.refused message]) ∨
    (s.sender.queue = [] ∧ events = [.accepted message] ∧
      t = ⟨{ s.sender with queue := [message], offset := 0 },
        s.outstanding ++ [⟨socket, message⟩]⟩) ∨
    (s.sender.queue ≠ [] ∧ events = [.accepted message] ∧
      t = { s with sender.queue := s.sender.queue ++ [message] }) := by
  simp only [step, SendingQueue.send, Option.some.injEq, Prod.mk.injEq] at hs
  obtain ⟨rfl, rfl⟩ := hs
  by_cases hfull : s.sender.queue.length ≥ s.sender.maxSize
  · left
    simp [if_pos hfull]
  · right
    rw [if_neg hfull]
    cases hq : s.sender.queue with
    | nil => left; simp
    | cons front rest => right; simp

/-- What the handler of a successful write does: it goes on with the front message, or
leaves it and starts with the next one. -/
theorem step_wrote {s t : Sending σ} {index bytes : ℕ} {events : List Event} (h : s.Serial)
    (hs : s.step (.wrote index bytes) = some (t, events)) :
    ∃ w front rest, s.outstanding = [w] ∧ s.sender.queue = front :: rest ∧
      w.data = front.drop s.sender.offset ∧ bytes ≤ w.data.length ∧
      events = [.completed (w.data.take bytes)] ∧
      ((front.length ≤ s.sender.offset + bytes ∧
          t = ⟨{ s.sender with queue := rest, offset := 0 },
            (rest.head?.map (Write.mk w.socket)).toList⟩) ∨
        (s.sender.offset + bytes < front.length ∧
          t = ⟨{ s.sender with offset := s.sender.offset + bytes },
            [⟨w.socket, front.drop (s.sender.offset + bytes)⟩]⟩)) := by
  obtain ⟨w, hw, hs⟩ := Option.bind_eq_some_iff.mp hs
  obtain ⟨rfl, hout, front, rest, hq, hdata⟩ := h.outstanding_eq hw
  by_cases hbytes : bytes ≤ w.data.length
  · simp only [if_pos hbytes, Option.some.injEq, Prod.mk.injEq] at hs
    obtain ⟨rfl, rfl⟩ := hs
    refine ⟨w, front, rest, hout, hq, hdata, hbytes, rfl, ?_⟩
    by_cases hend : front.length ≤ s.sender.offset + bytes
    · left
      simp [handled, SendingQueue.handleWrite, hq, hout, hend]
    · right
      simp [handled, SendingQueue.handleWrite, hq, hout, hend, Nat.not_le.mp hend]
  · simp [if_neg hbytes] at hs

theorem Serial.step {s t : Sending σ} {a : Action σ} {events : List Event} (h : s.Serial)
    (hs : s.step a = some (t, events)) : t.Serial := by
  cases a with
  | send socket message =>
    obtain ⟨rfl, -⟩ | ⟨hq, -, rfl⟩ | ⟨hq, -, rfl⟩ := step_send hs
    · exact h
    · exact ⟨socket, by simp [(serial_nil hq).mp h]⟩
    · obtain ⟨front, rest, hq⟩ := List.exists_cons_of_ne_nil hq
      have hq' : s.sender.queue ++ [message] = front :: (rest ++ [message]) := by rw [hq]; rfl
      exact (serial_cons hq').mpr ((serial_cons hq).mp h)
  | wrote index bytes =>
    obtain ⟨w, front, rest, -, hq, -, -, -, ⟨-, rfl⟩ | ⟨-, rfl⟩⟩ := step_wrote h hs
    · cases rest with
      | nil => rfl
      | cons next rest => exact ⟨w.socket, rfl⟩
    · simp only [Serial, hq]
      exact ⟨w.socket, rfl⟩
  | failed index bytes =>
    obtain ⟨w, hw, hs⟩ := Option.map_eq_some_iff.mp hs
    obtain ⟨rfl, rfl⟩ := Prod.mk.inj hs
    obtain ⟨rfl, hout, -⟩ := h.outstanding_eq hw
    simp [Serial, handled, SendingQueue.handleWrite, SendingQueue.clear, hout]

theorem Accounted.step {s t : Sending σ} {a : Action σ} {out events : List Event} (h : s.Serial)
    (hacc : s.Accounted out) (ha : a.Successful) (hs : s.step a = some (t, events)) :
    t.Accounted (out ++ events) := by
  obtain ⟨gone, haccepted, hcompleted⟩ := hacc
  cases a with
  | send socket message =>
    obtain ⟨rfl, rfl⟩ | ⟨hq, rfl, rfl⟩ | ⟨hq, rfl, rfl⟩ := step_send hs
    · exact ⟨gone, by simpa [accepted] using haccepted, by simpa [completed] using hcompleted⟩
    · rw [hq] at haccepted hcompleted
      refine ⟨gone, ?_, ?_⟩
      · rw [accepted_append, haccepted]
        simp [accepted]
      · rw [completed_append, hcompleted]
        simp [completed]
    · obtain ⟨front, rest, hq⟩ := List.exists_cons_of_ne_nil hq
      refine ⟨gone, ?_, ?_⟩
      · rw [accepted_append, haccepted, List.append_assoc]
        rfl
      · rw [completed_append, hcompleted, hq]
        simp [completed]
  | wrote index bytes =>
    obtain ⟨w, front, rest, -, hq, hdata, hbytes, rfl, hcase⟩ := step_wrote h hs
    -- the bytes taken from the rest of the front follow those that had been taken before
    have htaken : completed (out ++ [.completed (w.data.take bytes)]) =
        gone.flatten ++ front.take (s.sender.offset + bytes) := by
      rw [completed_append, hcompleted, hq, hdata, List.take_add, List.append_assoc]
      simp [completed]
    obtain ⟨hend, rfl⟩ | ⟨-, rfl⟩ := hcase
    · refine ⟨gone ++ [front], ?_, ?_⟩
      · rw [accepted_append, haccepted, hq]
        simp [accepted]
      · rw [htaken, List.take_of_length_le hend]
        simp
    · refine ⟨gone, ?_, ?_⟩
      · rw [accepted_append, haccepted]
        simp [accepted]
      · rw [htaken, hq]
        rfl
  | failed index bytes => exact ha.elim

/-- In every run of sends and successful writes the bytes taken are a beginning of the
accepted messages, in order. At most one write is outstanding, one is exactly if the queue
is not empty, and it holds what has not been taken of the front message. -/
theorem sent_in_order {maxSize : ℕ} {actions : List (Action σ)} {s : Sending σ}
    {events : List Event} (ha : ∀ a ∈ actions, a.Successful)
    (hr : Library.run step (fresh maxSize) actions = some (s, events)) :
    completed events <+: (accepted events).flatten ∧
    s.outstanding.length ≤ 1 ∧ (s.outstanding ≠ [] ↔ s.sender.queue ≠ []) ∧
    ∀ w ∈ s.outstanding, ∃ gone front rest, s.sender.queue = front :: rest ∧
      accepted events = gone ++ front :: rest ∧
      completed events ++ w.data = gone.flatten ++ front := by
  have hinv : s.Serial ∧ s.Accounted events := by
    refine Library.RunOk.invariant (fun s out => s.Serial ∧ s.Accounted out) ?_ []
      (Library.RunOk.restrict (Library.RunOk.of_forall (fun _ _ => trivial) _ _) ha)
      ⟨rfl, [], rfl, rfl⟩ hr
    rintro s out a t events ⟨hserial, hacc⟩ ⟨ha, -⟩ hs
    exact ⟨hserial.step hs, hacc.step hserial ha hs⟩
  obtain ⟨hserial, gone, haccepted, hcompleted⟩ := hinv
  rw [haccepted, hcompleted]
  cases hq : s.sender.queue with
  | nil => simp [(serial_nil hq).mp hserial]
  | cons front rest =>
    obtain ⟨socket, hout⟩ := (serial_cons hq).mp hserial
    simp only [hout, List.headD_cons, List.flatten_append, List.flatten_cons]
    refine ⟨?_, Nat.le_refl 1, by simp, ?_⟩
    · exact (List.prefix_append_right_inj _).mpr
        ((List.take_prefix _ _).trans (List.prefix_append _ _))
    · intro w hw
      obtain rfl := List.mem_singleton.mp hw
      exact ⟨gone, front, rest, rfl, rfl, by simp⟩

/-- A message of two bytes that the socket takes one by one, with another one sent in
between, and a third that is refused while they are there. -/
private def oneByOne : List (Action Char) :=
  [.send 'a' [1, 2], .wrote 0 1, .send 'b' [3], .send 'a' [4], .wrote 0 1, .wrote 0 1]

private def oneByOneEvents : List Event :=
  [.accepted [1, 2], .completed [1], .accepted [3], .refused [4], .completed [2], .completed [3]]

theorem sent_in_order_one_by_one :
    Library.run step (fresh 2) oneByOne = some (fresh 2, oneByOneEvents) ∧
      completed oneByOneEvents <+: (accepted oneByOneEvents).flatten :=
  have hr : Library.run step (fresh 2) oneByOne = some (fresh 2, oneByOneEvents) := by decide
  ⟨hr, (sent_in_order (show ∀ a ∈ oneByOne, a.Successful by decide) hr).1⟩

end Sending

end CxxDeps.Sys
