import CxxDeps.Library.Run

/-! A bounded first-in-first-out queue with bulk operations. An operation that does
not fit is refused and leaves the queue as it is; every reply tells how many elements
are unread and how much space is free. -/

namespace CxxDeps.Library.Fifo

variable {α : Type*}

inductive Op (α : Type*)
  | write (data : List α)
  | read (length : ℕ)
  | peek (length : ℕ)
  | remove (num : ℕ)
  | clear
  deriving Repr

/-- Whether the operation succeeded, the elements it copied out, and the counts
after it. -/
structure Reply (α : Type*) where
  ok : Bool
  data : List α := []
  unread : ℕ
  free : ℕ
  deriving DecidableEq, Repr

/-- The queue after an operation, with the success and the elements copied out. -/
def Op.apply (capacity : ℕ) (queue : List α) : Op α → List α × Bool × List α
  | .write data =>
    if data.length ≤ capacity - queue.length then (queue ++ data, true, [])
    else (queue, false, [])
  | .read length =>
    if length ≤ queue.length then (queue.drop length, true, queue.take length)
    else (queue, false, [])
  | .peek length =>
    if length ≤ queue.length then (queue, true, queue.take length) else (queue, false, [])
  | .remove num => if num ≤ queue.length then (queue.drop num, true, []) else (queue, false, [])
  | .clear => ([], true, [])

def step (capacity : ℕ) (queue : List α) (op : Op α) : Option (List α × List (Reply α)) :=
  let (queue', ok, data) := op.apply capacity queue
  some (queue', [⟨ok, data, queue'.length, capacity - queue'.length⟩])

theorem length_apply {capacity : ℕ} {queue : List α} (h : queue.length ≤ capacity) (op : Op α) :
    (op.apply capacity queue).1.length ≤ capacity := by
  cases op <;> simp only [Op.apply]
  case clear => simp
  all_goals split <;> simp <;> omega

/-- The two counts of a reply always make up the capacity. -/
theorem counts_add {capacity : ℕ} {queue : List α} {ops : List (Op α)}
    {replies : List (Reply α)} (hr : run (step capacity) [] ops = some (queue, replies)) :
    ∀ reply ∈ replies, reply.unread + reply.free = capacity := by
  have hinv := run_relation
    (fun queue out => queue.length ≤ capacity ∧ ∀ reply ∈ out, reply.unread + reply.free = capacity)
    ?_ [] ⟨by simp, by simp⟩ hr
  · exact hinv.2
  · intro queue out op queue' o ⟨hlen, hout⟩ hs
    obtain ⟨rfl, rfl⟩ := Prod.mk.inj (Option.some.inj hs)
    have hlen' := length_apply hlen op
    refine ⟨hlen', fun reply hmem => ?_⟩
    rcases List.mem_append.mp hmem with hold | hnew
    · exact hout reply hold
    · rw [List.mem_singleton.mp hnew]
      exact Nat.add_sub_of_le hlen'

end CxxDeps.Library.Fifo
