import CxxDeps.Library.Fifo

/-! `sys::ring_buffer` (sys2/ring_buffer.hpp). A value of the element type is its
object representation, so that `memcpy` may copy a part of it. Advancing an index of a
buffer without capacity divides by zero; such an operation is `none`. A buffer filled
to the last element has `head = tail` and looks empty, and a write between `tail` and
`head` copies as many bytes as there are elements. Away from these writes the buffer
refines a bounded queue. -/

namespace CxxDeps.Sys

open Library

variable {size : ℕ}

/-- The bytes of a value of the element type; `size` is its `sizeof`. -/
abbrev Object (size : ℕ) := Vector UInt8 size

/-- The first `bytes` bytes of `new` written onto `old`. -/
def Object.patch (bytes : ℕ) (new old : Object size) : Object size :=
  Vector.ofFn fun i => if i.val < bytes then new[i] else old[i]

/-- `bytes` bytes of `src` written onto the front of `dst`. -/
def patchFront : List (Object size) → List (Object size) → ℕ → List (Object size)
  | old :: dst, new :: src, bytes => Object.patch bytes new old :: patchFront dst src (bytes - size)
  | dst, _, _ => dst

/-- `std::memcpy(dst + pos, src, bytes)`. -/
def memcpy (dst : List (Object size)) (pos : ℕ) (src : List (Object size)) (bytes : ℕ) :
    List (Object size) :=
  dst.take pos ++ patchFront (dst.drop pos) src bytes

@[simp] theorem length_patchFront (dst src : List (Object size)) (bytes : ℕ) :
    (patchFront dst src bytes).length = dst.length := by
  fun_induction patchFront dst src bytes <;> simp_all

@[simp] theorem length_memcpy (dst : List (Object size)) (pos : ℕ) (src : List (Object size))
    (bytes : ℕ) : (memcpy dst pos src bytes).length = dst.length := by
  simp [memcpy]
  omega

/-- Bytes as elements. -/
def objects (bytes : List UInt8) : List (Object 1) := bytes.map fun b => #v[b]

def ofObjects (elements : List (Object 1)) : List UInt8 := elements.map fun e => e[0]

@[simp] theorem length_objects (bytes : List UInt8) : (objects bytes).length = bytes.length := by
  simp [objects]

@[simp] theorem objects_append (a b : List UInt8) : objects (a ++ b) = objects a ++ objects b := by
  simp [objects]

@[simp] theorem ofObjects_objects (bytes : List UInt8) : ofObjects (objects bytes) = bytes := by
  simp [ofObjects, objects, Function.comp_def]

theorem objects_drop (n : ℕ) (bytes : List UInt8) :
    (objects bytes).drop n = objects (bytes.drop n) := by
  simp [objects, List.map_drop]

/-- `ring_buffer<T>`. An index is zero also where there is no element. -/
structure RingBuffer (size : ℕ) where
  capacity : ℕ
  buffer : List (Object size)
  head : ℕ
  tail : ℕ
  length_buffer : buffer.length = capacity
  head_lt : head < max capacity 1
  tail_lt : tail < max capacity 1

namespace RingBuffer

def new (size capacity : ℕ) : RingBuffer size where
  capacity := capacity
  buffer := List.replicate capacity (Vector.replicate size 0)
  head := 0
  tail := 0
  length_buffer := List.length_replicate
  head_lt := by omega
  tail_lt := by omega

def availableToRead (rb : RingBuffer size) : ℕ :=
  if rb.head > rb.tail then rb.capacity - rb.head + rb.tail else rb.tail - rb.head

def availableToWrite (rb : RingBuffer size) : ℕ :=
  if rb.head > rb.tail then rb.head - rb.tail else rb.capacity - rb.tail + rb.head

/-- `pos += num; pos %= capacity_`. -/
def advance (rb : RingBuffer size) (pos num : ℕ) : ℕ := (pos + num) % rb.capacity

theorem advance_lt {rb : RingBuffer size} (h : rb.capacity ≠ 0) (pos num : ℕ) :
    rb.advance pos num < max rb.capacity 1 :=
  Nat.lt_of_lt_of_le (Nat.mod_lt _ (Nat.pos_of_ne_zero h)) (Nat.le_max_left _ _)

/-- The buffer after the copies of `write`. -/
def store (rb : RingBuffer size) (data : List (Object size)) : List (Object size) :=
  let length := data.length
  if rb.head > rb.tail then memcpy rb.buffer rb.tail data length
  else
    let rightLength := rb.capacity - rb.tail
    if length ≤ rightLength then memcpy rb.buffer rb.tail data (length * size)
    else memcpy (memcpy rb.buffer rb.tail data (rightLength * size)) 0 (data.drop rightLength)
      ((length - rightLength) * size)

@[simp] theorem length_store (rb : RingBuffer size) (data : List (Object size)) :
    (rb.store data).length = rb.capacity := by
  simp only [store]
  split_ifs <;> simp [rb.length_buffer]

def write (rb : RingBuffer size) (data : List (Object size)) : Option (RingBuffer size × Bool) :=
  if data.length > rb.availableToWrite then some (rb, false)
  else if h : rb.capacity = 0 then none
  else some
    ({ rb with
        buffer := rb.store data
        tail := rb.advance rb.tail data.length
        length_buffer := rb.length_store data
        tail_lt := advance_lt h _ _ }, true)

/-- The elements that `read` and `peek` copy to the caller. -/
def copyOut (rb : RingBuffer size) (length : ℕ) : List (Object size) :=
  if rb.tail < rb.head then
    let rightLength := rb.capacity - rb.head
    if length ≤ rightLength then (rb.buffer.drop rb.head).take length
    else (rb.buffer.drop rb.head).take rightLength ++ rb.buffer.take (length - rightLength)
  else (rb.buffer.drop rb.head).take length

/-- `head_ += num; head_ %= capacity_`. -/
def skip (rb : RingBuffer size) (num : ℕ) : Option (RingBuffer size) :=
  if h : rb.capacity = 0 then none
  else some { rb with head := rb.advance rb.head num, head_lt := advance_lt h _ _ }

/-- The elements are copied out if `read` succeeds. -/
def read (rb : RingBuffer size) (length : ℕ) :
    Option (RingBuffer size × Bool × List (Object size)) :=
  if length > rb.availableToRead then some (rb, false, [])
  else (rb.skip length).map fun rb' => (rb', true, rb.copyOut length)

def peek (rb : RingBuffer size) (length : ℕ) : Bool × List (Object size) :=
  if length > rb.availableToRead then (false, []) else (true, rb.copyOut length)

def remove (rb : RingBuffer size) (num : ℕ) : Option (RingBuffer size × Bool) :=
  if num > rb.availableToRead then some (rb, false)
  else (rb.skip num).map fun rb' => (rb', true)

def clear (rb : RingBuffer size) : RingBuffer size :=
  { rb with head := 0, tail := 0, head_lt := by omega, tail_lt := by omega }

/-- What the caller sees of an operation: its results and the counts after it. -/
def reply (rb : RingBuffer size) (ok : Bool) (data : List (Object size)) :
    RingBuffer size × List (Fifo.Reply (Object size)) :=
  (rb, [⟨ok, data, rb.availableToRead, rb.availableToWrite⟩])

def step (rb : RingBuffer size) :
    Fifo.Op (Object size) → Option (RingBuffer size × List (Fifo.Reply (Object size)))
  | .write data => (rb.write data).map fun r => r.1.reply r.2 []
  | .read length => (rb.read length).map fun r => r.1.reply r.2.1 r.2.2
  | .peek length => some (rb.reply (rb.peek length).1 (rb.peek length).2)
  | .remove num => (rb.remove num).map fun r => r.1.reply r.2 []
  | .clear => some (rb.clear.reply true [])

/-- The written elements that no operation has taken yet. -/
def unread (rb : RingBuffer size) : List (Object size) :=
  if rb.head > rb.tail then rb.buffer.drop rb.head ++ rb.buffer.take rb.tail
  else (rb.buffer.take rb.tail).drop rb.head

/-- No index is advanced in a buffer without capacity, no write fills the buffer, and
a write between `tail` and `head` has elements of one byte. -/
def Fits (rb : RingBuffer size) : Fifo.Op (Object size) → Prop
  | .write data =>
    if data = [] then 0 < rb.capacity
    else data.length ≠ rb.availableToWrite ∧
      (data.length < rb.availableToWrite → rb.tail < rb.head → size = 1)
  | .read length => 0 < rb.capacity ∨ 0 < length
  | .remove num => 0 < rb.capacity ∨ 0 < num
  | .peek _ => True
  | .clear => True

/-! ### Copies of whole elements -/

theorem patch_whole {bytes : ℕ} (h : size ≤ bytes) (new old : Object size) :
    Object.patch bytes new old = new := by
  apply Vector.ext
  intro i hi
  simp [Object.patch, Nat.lt_of_lt_of_le hi h]

theorem patch_zero (new old : Object size) : Object.patch 0 new old = old := by
  apply Vector.ext
  intro i hi
  simp [Object.patch]

theorem patchFront_zero (dst src : List (Object size)) : patchFront dst src 0 = dst := by
  induction dst generalizing src with
  | nil => rfl
  | cons old dst ih =>
    cases src with
    | nil => rfl
    | cons new src => rw [patchFront, Nat.zero_sub, patch_zero, ih]

theorem patchFront_whole {n : ℕ} {dst src : List (Object size)} (hd : n ≤ dst.length)
    (hs : n ≤ src.length) : patchFront dst src (n * size) = src.take n ++ dst.drop n := by
  induction n generalizing dst src with
  | zero => rw [Nat.zero_mul, patchFront_zero]; rfl
  | succ n ih =>
    cases dst with
    | nil => simp at hd
    | cons old dst =>
      cases src with
      | nil => simp at hs
      | cons new src =>
        have hsize : size ≤ (n + 1) * size := Nat.le_mul_of_pos_left size n.succ_pos
        have hrest : (n + 1) * size - size = n * size := by rw [Nat.succ_mul, Nat.add_sub_cancel]
        rw [patchFront, patch_whole hsize, hrest,
          ih (Nat.le_of_succ_le_succ hd) (Nat.le_of_succ_le_succ hs)]
        rfl

theorem memcpy_whole {n pos : ℕ} {dst src : List (Object size)} (hd : pos + n ≤ dst.length)
    (hs : n ≤ src.length) :
    memcpy dst pos src (n * size) = dst.take pos ++ src.take n ++ dst.drop (pos + n) := by
  rw [memcpy, patchFront_whole (by simp; omega) hs, List.drop_drop, List.append_assoc]

/-! ### The queue of unread elements -/

theorem length_unread (rb : RingBuffer size) : rb.unread.length = rb.availableToRead := by
  have hlen := rb.length_buffer
  have hhead := rb.head_lt
  have htail := rb.tail_lt
  simp only [unread, availableToRead]
  split_ifs <;> simp <;> omega

theorem availableToWrite_eq (rb : RingBuffer size) :
    rb.availableToWrite = rb.capacity - rb.unread.length := by
  have hhead := rb.head_lt
  have htail := rb.tail_lt
  rw [length_unread]
  simp only [availableToRead, availableToWrite]
  split_ifs <;> omega

theorem copyOut_eq {rb : RingBuffer size} {length : ℕ} (h : length ≤ rb.availableToRead) :
    rb.copyOut length = rb.unread.take length := by
  have hlen := rb.length_buffer
  simp only [availableToRead] at h
  by_cases hwrap : rb.tail < rb.head
  · simp only [copyOut, unread, if_pos hwrap, gt_iff_lt] at h ⊢
    have hright : (rb.buffer.drop rb.head).length = rb.capacity - rb.head := by simp [hlen]
    split_ifs with hfit
    · rw [List.take_append_of_le_length (by omega)]
    · have hall : (rb.buffer.drop rb.head).take (rb.capacity - rb.head) =
          (rb.buffer.drop rb.head).take length := by
        rw [List.take_of_length_le (by omega), List.take_of_length_le (by omega)]
      rw [List.take_append, hright, List.take_take, Nat.min_eq_left (by omega), hall]
  · simp only [copyOut, unread, if_neg hwrap, gt_iff_lt] at h ⊢
    rw [List.drop_take, List.take_take, Nat.min_eq_left h]

theorem unread_skip {rb rb' : RingBuffer size} {num : ℕ} (h : num ≤ rb.availableToRead)
    (hs : rb.skip num = some rb') :
    rb'.capacity = rb.capacity ∧ rb'.unread = rb.unread.drop num := by
  have hlen := rb.length_buffer
  have hhead := rb.head_lt
  have htail := rb.tail_lt
  simp only [availableToRead] at h
  unfold skip at hs
  split_ifs at hs with hc
  cases hs
  refine ⟨rfl, ?_⟩
  simp only [unread, advance]
  by_cases hwrap : rb.tail < rb.head
  · simp only [gt_iff_lt, if_pos hwrap] at h ⊢
    by_cases hright : rb.head + num < rb.capacity
    · rw [Nat.mod_eq_of_lt hright, if_pos (by omega),
        List.drop_append_of_le_length (by simp; omega), List.drop_drop]
    · -- the head wraps around, past all that is to its right
      have hmod : (rb.head + num) % rb.capacity = rb.head + num - rb.capacity := by
        rw [Nat.mod_eq_sub_mod (by omega), Nat.mod_eq_of_lt (by omega)]
      have hpast : (rb.buffer.drop rb.head).drop num = [] :=
        List.drop_eq_nil_of_le (by rw [List.length_drop]; omega)
      have hskipped : num - (rb.buffer.drop rb.head).length = rb.head + num - rb.capacity := by
        rw [List.length_drop]
        omega
      rw [hmod, if_neg (by omega), List.drop_append, hpast, hskipped, List.nil_append]
  · simp only [gt_iff_lt, if_neg hwrap] at h ⊢
    rw [Nat.mod_eq_of_lt (by omega), if_neg (by omega), List.drop_drop]

/-- Data that fits to the right of `tail` is stored there. -/
theorem store_right {rb : RingBuffer size} {data : List (Object size)}
    (hroom : rb.tail + data.length ≤ rb.capacity)
    (hwide : rb.tail < rb.head → size = 1 ∨ data = []) :
    rb.store data = rb.buffer.take rb.tail ++ data ++ rb.buffer.drop (rb.tail + data.length) := by
  have hlen := rb.length_buffer
  have hwhole : memcpy rb.buffer rb.tail data (data.length * size) =
      rb.buffer.take rb.tail ++ data ++ rb.buffer.drop (rb.tail + data.length) := by
    rw [memcpy_whole (by omega) (Nat.le_refl _), List.take_length]
  by_cases hwrap : rb.tail < rb.head
  · have hbytes : data.length = data.length * size := by
      rcases hwide hwrap with rfl | rfl
      · rw [Nat.mul_one]
      · rw [List.length_nil, Nat.zero_mul]
    rw [store, if_pos hwrap, ← hwhole]
    exact congrArg (memcpy rb.buffer rb.tail data) hbytes
  · simp only [store, gt_iff_lt, if_neg hwrap]
    rw [if_pos (by omega), hwhole]

/-- Other data wraps around the end. -/
theorem store_around {rb : RingBuffer size} {data : List (Object size)}
    (hlinear : ¬rb.tail < rb.head) (hfull : data.length ≤ rb.availableToWrite)
    (hpast : rb.capacity < rb.tail + data.length) :
    rb.store data = data.drop (rb.capacity - rb.tail) ++
      ((rb.buffer.take rb.tail).drop (rb.tail + data.length - rb.capacity) ++
        data.take (rb.capacity - rb.tail)) := by
  have hlen := rb.length_buffer
  have htail := rb.tail_lt
  simp only [availableToWrite, gt_iff_lt, if_neg hlinear] at hfull
  simp only [store, gt_iff_lt, if_neg hlinear]
  have hright : memcpy rb.buffer rb.tail data ((rb.capacity - rb.tail) * size) =
      rb.buffer.take rb.tail ++ data.take (rb.capacity - rb.tail) := by
    have hend : rb.buffer.drop (rb.tail + (rb.capacity - rb.tail)) = [] :=
      List.drop_eq_nil_of_le (by omega)
    rw [memcpy_whole (by omega) (by omega), hend, List.append_nil]
  have hcount : data.length - (rb.capacity - rb.tail) = rb.tail + data.length - rb.capacity := by
    omega
  rw [if_neg (by omega), hright, memcpy_whole (by simp; omega) (by simp), Nat.zero_add,
    List.take_zero, List.nil_append, ← List.length_drop, List.take_length, List.length_drop,
    hcount, List.drop_append_of_le_length (by simp; omega)]

/-- A write that fits, leaves a free element and copies whole elements appends. -/
theorem unread_write {rb rb' : RingBuffer size} {data : List (Object size)} {ok : Bool}
    (hfree : data = [] ∨ data.length < rb.availableToWrite)
    (hwide : rb.tail < rb.head → size = 1 ∨ data = [])
    (hs : rb.write data = some (rb', ok)) :
    ok = true ∧ rb'.capacity = rb.capacity ∧ rb'.unread = rb.unread ++ data := by
  have hlen := rb.length_buffer
  have hhead := rb.head_lt
  have htail := rb.tail_lt
  replace hfree : data.length = 0 ∨ data.length < rb.availableToWrite :=
    hfree.imp_left List.length_eq_zero_iff.mpr
  have hfits : data.length ≤ rb.availableToWrite := by omega
  unfold write at hs
  rw [if_neg (by omega)] at hs
  split_ifs at hs with hc
  cases hs
  refine ⟨rfl, rfl, ?_⟩
  have hold : (rb.buffer.take rb.tail).length = rb.tail := by simp; omega
  have hfront : (rb.buffer.take rb.tail ++ data).length = rb.tail + data.length := by simp; omega
  simp only [unread, advance, gt_iff_lt]
  by_cases hwrap : rb.tail < rb.head
  · -- the free space is between `tail` and `head`
    simp only [availableToWrite, gt_iff_lt, if_pos hwrap] at hfree hfits
    have hlow : (rb.buffer.take rb.tail ++ data).drop rb.head = [] :=
      List.drop_eq_nil_of_le (by omega)
    rw [store_right (by omega) hwide, Nat.mod_eq_of_lt (by omega), if_pos (by omega),
      if_pos hwrap, List.take_left' hfront, List.drop_append, hlow, List.nil_append,
      List.drop_drop, hfront, Nat.add_sub_cancel' (by omega), List.append_assoc]
  · have hfull := hfits
    simp only [availableToWrite, gt_iff_lt, if_neg hwrap] at hfree hfits
    rw [if_neg hwrap]
    by_cases hroom : rb.tail + data.length ≤ rb.capacity
    · rw [store_right hroom hwide]
      by_cases hend : rb.tail + data.length < rb.capacity
      · rw [Nat.mod_eq_of_lt hend, if_neg (by omega), List.take_left' hfront,
          List.drop_append_of_le_length (by omega)]
      · -- the data ends with the buffer, and `tail` is the start
        have hzero : (rb.tail + data.length) % rb.capacity = 0 := by
          rw [show rb.tail + data.length = rb.capacity by omega, Nat.mod_self]
        have hrest : rb.buffer.drop (rb.tail + data.length) = [] :=
          List.drop_eq_nil_of_le (by omega)
        rw [hzero, if_pos (by omega), hrest, List.take_zero, List.append_nil, List.append_nil,
          List.drop_append_of_le_length (by omega)]
    · have hmod : (rb.tail + data.length) % rb.capacity =
          rb.tail + data.length - rb.capacity := by
        rw [Nat.mod_eq_sub_mod (by omega), Nat.mod_eq_of_lt (by omega)]
      have hover : (data.drop (rb.capacity - rb.tail)).length =
          rb.tail + data.length - rb.capacity := by
        rw [List.length_drop]
        omega
      have hpast : (data.drop (rb.capacity - rb.tail)).drop rb.head = [] :=
        List.drop_eq_nil_of_le (by omega)
      rw [store_around hwrap hfull (by omega), hmod, if_pos (by omega), List.take_left' hover,
        List.drop_append, hpast, hover, List.nil_append,
        List.drop_append_of_le_length (by simp; omega), List.drop_drop,
        Nat.add_sub_cancel' (by omega), List.append_assoc, List.take_append_drop]

theorem unread_new (size capacity : ℕ) : (new size capacity).unread = [] := by
  simp [unread, new]

/-- An index is advanced wherever the operation is not refused. -/
theorem skip_exists {rb : RingBuffer size} {num : ℕ} (h : 0 < rb.capacity ∨ 0 < num)
    (hnum : num ≤ rb.availableToRead) : ∃ rb', rb.skip num = some rb' := by
  have hhead := rb.head_lt
  have htail := rb.tail_lt
  have hc : rb.capacity ≠ 0 := by
    intro hc
    simp only [availableToRead] at hnum
    split_ifs at hnum <;> omega
  exact ⟨_, dif_neg hc⟩

/-- The buffer stands for the queue of its unread elements. -/
def Holds (capacity : ℕ) (rb : RingBuffer size) (queue : List (Object size)) : Prop :=
  rb.capacity = capacity ∧ rb.unread = queue

/-- The counts that the buffer reports are those of the queue. -/
theorem Holds.reply_eq {capacity : ℕ} {rb : RingBuffer size} {queue : List (Object size)}
    (h : Holds capacity rb queue) (ok : Bool) (data : List (Object size)) :
    rb.reply ok data = (rb, [⟨ok, data, queue.length, capacity - queue.length⟩]) := by
  obtain ⟨rfl, rfl⟩ := h
  rw [reply, availableToWrite_eq, length_unread]

/-- A step that replies as the queue does and holds its result refines it. -/
theorem Holds.refines {capacity : ℕ} {rb rb' : RingBuffer size} {queue queue' : List (Object size)}
    {op : Fifo.Op (Object size)} {ok : Bool} {data : List (Object size)}
    (h : Holds capacity rb' queue') (hs : rb.step op = some (rb'.reply ok data))
    (hq : op.apply capacity queue = (queue', ok, data)) :
    ∃ rb' queue' replies, rb.step op = some (rb', replies) ∧
      Fifo.step capacity queue op = some (queue', replies) ∧ Holds capacity rb' queue' := by
  refine ⟨rb', queue', [⟨ok, data, queue'.length, capacity - queue'.length⟩], ?_, ?_, h⟩
  · rw [hs, h.reply_eq]
  · rw [Fifo.step, hq]

theorem write_exists {rb : RingBuffer size} {data : List (Object size)}
    (hfit : rb.Fits (.write data)) (hroom : data.length ≤ rb.availableToWrite) :
    ∃ rb', rb.write data = some (rb', true) ∧ rb'.capacity = rb.capacity ∧
      rb'.unread = rb.unread ++ data := by
  have hhead := rb.head_lt
  have htail := rb.tail_lt
  unfold Fits at hfit
  have hc : rb.capacity ≠ 0 := by
    intro hc
    simp only [availableToWrite] at hroom hfit
    split_ifs at hroom hfit with hd <;> grind
  have hfree : data = [] ∨ data.length < rb.availableToWrite := by grind
  have hwide : rb.tail < rb.head → size = 1 ∨ data = [] := by grind
  obtain ⟨rb', hs⟩ : ∃ rb', rb.write data = some (rb', true) :=
    ⟨_, by rw [write, if_neg (by omega), dif_neg hc]⟩
  obtain ⟨-, hcap, hunread⟩ := unread_write hfree hwide hs
  exact ⟨rb', hs, hcap, hunread⟩

/-- Each operation within the condition is that of the queue. -/
theorem step_refines {capacity : ℕ} {rb : RingBuffer size} {queue : List (Object size)}
    {op : Fifo.Op (Object size)} (h : Holds capacity rb queue) (hfit : rb.Fits op) :
    ∃ rb' queue' replies, rb.step op = some (rb', replies) ∧
      Fifo.step capacity queue op = some (queue', replies) ∧ Holds capacity rb' queue' := by
  obtain ⟨rfl, rfl⟩ := h
  have hsame : Holds rb.capacity rb rb.unread := ⟨rfl, rfl⟩
  have hread := rb.length_unread
  have hwrite := rb.availableToWrite_eq
  cases op with
  | write data =>
    by_cases hroom : data.length ≤ rb.availableToWrite
    · obtain ⟨rb', hs, hholds⟩ := write_exists hfit hroom
      apply Holds.refines hholds (by rw [step, hs]; rfl)
      rw [Fifo.Op.apply, ← hwrite, if_pos hroom]
    · apply hsame.refines
      · rw [step, write, if_pos (by omega)]
        rfl
      · rw [Fifo.Op.apply, ← hwrite, if_neg hroom]
  | read length =>
    by_cases hroom : length ≤ rb.availableToRead
    · obtain ⟨rb', hs⟩ := skip_exists hfit hroom
      apply Holds.refines (unread_skip hroom hs)
      · rw [step, read, if_neg (by omega), hs]
        rfl
      · rw [Fifo.Op.apply, hread, if_pos hroom, copyOut_eq hroom]
    · apply hsame.refines
      · rw [step, read, if_pos (by omega)]
        rfl
      · rw [Fifo.Op.apply, hread, if_neg hroom]
  | peek length =>
    by_cases hroom : length ≤ rb.availableToRead
    · apply hsame.refines
      · rw [step, peek, if_neg (by omega)]
      · rw [Fifo.Op.apply, hread, if_pos hroom, copyOut_eq hroom]
    · apply hsame.refines
      · rw [step, peek, if_pos (by omega)]
      · rw [Fifo.Op.apply, hread, if_neg hroom]
  | remove num =>
    by_cases hroom : num ≤ rb.availableToRead
    · obtain ⟨rb', hs⟩ := skip_exists hfit hroom
      apply Holds.refines (unread_skip hroom hs)
      · rw [step, remove, if_neg (by omega), hs]
        rfl
      · rw [Fifo.Op.apply, hread, if_pos hroom]
    · apply hsame.refines
      · rw [step, remove, if_pos (by omega)]
        rfl
      · rw [Fifo.Op.apply, hread, if_neg hroom]
  | clear =>
    have hclear : Holds rb.capacity rb.clear [] := ⟨rfl, by simp [unread, clear]⟩
    exact hclear.refines rfl rfl

/-! ### A buffer that holds a queue -/

/-- A write of bytes that leaves a free element appends them. -/
theorem Holds.write {capacity : ℕ} {rb : RingBuffer 1} {queue data : List (Object 1)}
    (h : Holds capacity rb queue) (hdata : data ≠ []) (hfit : (queue ++ data).length < capacity) :
    ∃ rb', rb.write data = some (rb', true) ∧ Holds capacity rb' (queue ++ data) := by
  obtain ⟨rfl, rfl⟩ := h
  have hroom := rb.availableToWrite_eq
  rw [List.length_append] at hfit
  have hfits : rb.Fits (.write data) := by
    rw [Fits, if_neg hdata]
    exact ⟨by omega, fun _ _ => rfl⟩
  obtain ⟨rb', hs, hcap, hunread⟩ := write_exists hfits (by omega)
  exact ⟨rb', hs, hcap, hunread⟩

theorem Holds.availableToRead {capacity : ℕ} {rb : RingBuffer size} {queue : List (Object size)}
    (h : Holds capacity rb queue) : rb.availableToRead = queue.length := by
  rw [← h.2, length_unread]

/-- All unread elements are peeked. -/
theorem Holds.peek {capacity : ℕ} {rb : RingBuffer size} {queue : List (Object size)}
    (h : Holds capacity rb queue) : rb.peek queue.length = (true, queue) := by
  obtain ⟨rfl, rfl⟩ := h
  have hall := rb.length_unread
  rw [RingBuffer.peek, if_neg (by omega), copyOut_eq (by omega), List.take_length]

theorem Holds.remove {capacity : ℕ} {rb : RingBuffer size} {queue : List (Object size)}
    (h : Holds capacity rb queue) {num : ℕ} (h0 : 0 < num) (hnum : num ≤ queue.length) :
    ∃ rb', rb.remove num = some (rb', true) ∧ Holds capacity rb' (queue.drop num) := by
  obtain ⟨rfl, rfl⟩ := h
  rw [length_unread] at hnum
  obtain ⟨rb', hs⟩ := skip_exists (.inr h0) hnum
  refine ⟨rb', ?_, unread_skip hnum hs⟩
  rw [RingBuffer.remove, if_neg (by omega), hs, Option.map_some]

/-- Bytes that leave a free element are written, and can then be peeked with those that
were there before. -/
theorem Holds.write_peek {capacity : ℕ} {rb : RingBuffer 1} {unread data : List UInt8}
    (h : Holds capacity rb (objects unread)) (hdata : data ≠ [])
    (hroom : (unread ++ data).length < capacity) :
    ∃ rb', rb.write (objects data) = some (rb', true) ∧
      Holds capacity rb' (objects (unread ++ data)) ∧
      rb'.availableToRead = (unread ++ data).length ∧ (unread ++ data).length ≠ 0 ∧
      rb'.peek (unread ++ data).length = (true, objects (unread ++ data)) := by
  have hobjects : objects data ≠ [] := by simpa [objects] using hdata
  obtain ⟨rb', hwrite, hholds⟩ := h.write hobjects (by rwa [← objects_append, length_objects])
  rw [← objects_append] at hholds
  have hread := hholds.availableToRead
  have hpeek := hholds.peek
  rw [length_objects] at hread hpeek
  have hsome : (unread ++ data).length ≠ 0 := by
    have := List.length_pos_of_ne_nil hdata
    rw [List.length_append]
    omega
  exact ⟨rb', hwrite, hholds, hread, hsome, hpeek⟩

/-- Within the condition a ring buffer is a bounded queue: every operation returns what
it returns on the queue of the unread elements, and leaves the same counts. -/
theorem ring_buffer_refines (size capacity : ℕ) (ops : List (Fifo.Op (Object size)))
    (h : RunOk step Fits (new size capacity) ops) :
    ∃ rb queue replies, run step (new size capacity) ops = some (rb, replies) ∧
      run (Fifo.step capacity) [] ops = some (queue, replies) ∧
      (∀ reply ∈ replies, reply.unread + reply.free = capacity) ∧
      rb.unread = queue ∧ rb.availableToRead = queue.length := by
  have h0 : Holds capacity (new size capacity) [] := ⟨rfl, unread_new size capacity⟩
  have hstep (rb : RingBuffer size) (queue : List (Object size)) (op : Fifo.Op (Object size))
      (hR : Holds capacity rb queue) (hfit : rb.Fits op) :=
    step_refines hR hfit
  obtain ⟨rb, queue, replies, hr, hq, hholds⟩ := h.simulates (Holds capacity) hstep h0
  refine ⟨rb, queue, replies, hr, hq, Fifo.counts_add hq, hholds.2, ?_⟩
  rw [← hholds.2, length_unread]

instance (rb : RingBuffer size) : (op : Fifo.Op (Object size)) → Decidable (rb.Fits op)
  | .write data => inferInstanceAs (Decidable (if data = [] then _ else _))
  | .read length => inferInstanceAs (Decidable (0 < rb.capacity ∨ 0 < length))
  | .remove num => inferInstanceAs (Decidable (0 < rb.capacity ∨ 0 < num))
  | .peek _ => inferInstanceAs (Decidable True)
  | .clear => inferInstanceAs (Decidable True)

/-- Three bytes in a buffer of four, two of them read, and two more around the end. -/
theorem ring_buffer_refines_around :
    ∃ rb queue replies,
      run step (new 1 4) [.write [#v[1], #v[2], #v[3]], .read 2, .write [#v[4], #v[5]], .peek 3] =
          some (rb, replies) ∧
        run (Fifo.step 4) [] [.write [#v[1], #v[2], #v[3]], .read 2, .write [#v[4], #v[5]],
          .peek 3] = some (queue, replies) ∧
        (∀ reply ∈ replies, reply.unread + reply.free = 4) ∧
        rb.unread = queue ∧ rb.availableToRead = queue.length :=
  ring_buffer_refines 1 4 [.write [#v[1], #v[2], #v[3]], .read 2, .write [#v[4], #v[5]], .peek 3]
    (by decide)

/-- A write of one byte that fills a buffer of one succeeds, and nothing is there to
read; of two elements of two bytes that go between `tail` and `head` only the first
arrives. -/
theorem full_buffer_looks_empty :
    (run step (new 1 1) [.write [#v[7]], .peek 1]).map Prod.snd =
        some [⟨true, [], 0, 1⟩, ⟨false, [], 0, 1⟩] ∧
      (run step (new 2 5) [.write [#v[1, 1], #v[2, 2], #v[3, 3], #v[4, 4]], .remove 4,
          .write [#v[5, 5]], .write [#v[6, 6], #v[7, 7]], .read 3]).map Prod.snd =
        some [⟨true, [], 4, 1⟩, ⟨true, [], 0, 5⟩, ⟨true, [], 1, 4⟩, ⟨true, [], 3, 2⟩,
          ⟨true, [#v[5, 5], #v[6, 6], #v[2, 2]], 0, 5⟩] := by
  decide

end RingBuffer

end CxxDeps.Sys
