import CxxDeps.Library.Access
import Mathlib.Data.Int.Notation

/-! Parsers that keep an account of what they use. A reader goes through a buffer from a
position on; it notes its accesses and the lengths that it computes, and either gives up
or has a value and the position behind it.

`Reads` says what a reader makes of the bytes it was meant for, wherever they are in a
buffer; `SafeAt` says that its uses of any buffer are in order, and `Passes` how far it
goes. -/

namespace CxxDeps.Library

/-- An access, or a length that is computed. -/
inductive Use
  | access (a : Access)
  | length (n : ℤ)
  deriving DecidableEq, Repr

/-- The access is in the buffer; the length is one that an `int` holds, and not below
zero. -/
def Use.Ok : Use → Prop
  | .access a => a.InRange
  | .length n => 0 ≤ n ∧ n < 2147483648

instance : (u : Use) → Decidable u.Ok
  | .access a => inferInstanceAs (Decidable a.InRange)
  | .length _ => inferInstanceAs (Decidable (_ ∧ _))

def AllOk (uses : List Use) : Prop := ∀ u ∈ uses, u.Ok

instance (uses : List Use) : Decidable (AllOk uses) :=
  inferInstanceAs (Decidable (∀ u ∈ uses, u.Ok))

@[simp] theorem allOk_nil : AllOk [] := List.forall_mem_nil _

@[simp] theorem allOk_cons {u : Use} {us : List Use} : AllOk (u :: us) ↔ u.Ok ∧ AllOk us :=
  List.forall_mem_cons

@[simp] theorem allOk_append {us vs : List Use} : AllOk (us ++ vs) ↔ AllOk us ∧ AllOk vs :=
  List.forall_mem_append

def Reader (α : Type) : Type := List UInt8 → ℕ → List Use × Option (α × ℕ)

namespace Reader

variable {α β : Type}

/-- What is used from a position of a buffer on. -/
def uses (p : Reader α) (buffer : List UInt8) (pos : ℕ) : List Use := (p buffer pos).1

/-- The value and the position behind it. -/
def value (p : Reader α) (buffer : List UInt8) (pos : ℕ) : Option (α × ℕ) := (p buffer pos).2

instance : Monad Reader where
  pure a := fun _ pos => ([], some (a, pos))
  bind p f := fun buffer pos =>
    match p.value buffer pos with
    | none => (p.uses buffer pos, none)
    | some (a, pos') => (p.uses buffer pos ++ (f a).uses buffer pos', (f a).value buffer pos')

def giveUp : Reader α := fun _ _ => ([], none)

def position : Reader ℕ := fun _ pos => ([], some (pos, pos))

def size : Reader ℕ := fun buffer pos => ([], some (buffer.length, pos))

def skip (n : ℕ) : Reader Unit := fun _ pos => ([], some ((), pos + n))

/-- A length is computed. -/
def note (n : ℤ) : Reader Unit := fun _ pos => ([.length n], some ((), pos))

/-- Gives up unless `n` bytes are left. -/
def need (n : ℕ) : Reader Unit := fun buffer pos =>
  ([], if pos + n > buffer.length then none else some ((), pos))

/-- The byte `i` places on. -/
def byte (i : ℕ) : Reader UInt8 := fun buffer pos =>
  ([.access ⟨buffer.length, pos + i, pos + i + 1⟩], some (buffer.getD (pos + i) 0, pos))

/-- The next byte. -/
def next : Reader UInt8 := do
  let b ← byte 0
  skip 1
  return b

/-- A copy of the next `n` bytes. -/
def take (n : ℕ) : Reader (List UInt8) := fun buffer pos =>
  ([.access ⟨buffer.length, pos, pos + n⟩], some ((buffer.drop pos).take n, pos + n))

/-- A part that is there if a flag says so. -/
def part (flag : Bool) (absent : α) (p : Reader α) : Reader α := if flag then p else pure absent

/-- A parser that is given the rest of the buffer. -/
def within (p : Reader α) : Reader α := fun buffer pos =>
  (p.uses (buffer.drop pos) 0, (p.value (buffer.drop pos) 0).map fun r => (r.1, pos + r.2))

/-! ### What is used, and the value -/

section

variable (buffer : List UInt8) (pos : ℕ)

@[simp] theorem uses_pure (a : α) : (pure a : Reader α).uses buffer pos = [] := rfl

@[simp] theorem value_pure (a : α) : (pure a : Reader α).value buffer pos = some (a, pos) := rfl

theorem uses_bind (p : Reader α) (f : α → Reader β) :
    (p >>= f).uses buffer pos = p.uses buffer pos ++
      match p.value buffer pos with
      | none => []
      | some r => (f r.1).uses buffer r.2 := by
  simp only [bind, uses, value]
  rcases (p buffer pos).2 with _ | ⟨a, pos'⟩
  · simp
  · rfl

theorem value_bind (p : Reader α) (f : α → Reader β) :
    (p >>= f).value buffer pos = (p.value buffer pos).bind fun r => (f r.1).value buffer r.2 := by
  simp only [bind, value]
  rcases (p buffer pos).2 with _ | ⟨a, pos'⟩ <;> rfl

@[simp] theorem uses_giveUp : (giveUp : Reader α).uses buffer pos = [] := rfl

@[simp] theorem value_giveUp : (giveUp : Reader α).value buffer pos = none := rfl

@[simp] theorem uses_position : position.uses buffer pos = [] := rfl

@[simp] theorem value_position : position.value buffer pos = some (pos, pos) := rfl

@[simp] theorem uses_size : size.uses buffer pos = [] := rfl

@[simp] theorem value_size : size.value buffer pos = some (buffer.length, pos) := rfl

@[simp] theorem uses_skip (n : ℕ) : (skip n).uses buffer pos = [] := rfl

@[simp] theorem value_skip (n : ℕ) : (skip n).value buffer pos = some ((), pos + n) := rfl

@[simp] theorem uses_note (n : ℤ) : (note n).uses buffer pos = [.length n] := rfl

@[simp] theorem value_note (n : ℤ) : (note n).value buffer pos = some ((), pos) := rfl

@[simp] theorem uses_need (n : ℕ) : (need n).uses buffer pos = [] := rfl

theorem value_need (n : ℕ) :
    (need n).value buffer pos = if pos + n > buffer.length then none else some ((), pos) := rfl

@[simp] theorem uses_byte (i : ℕ) :
    (byte i).uses buffer pos = [.access ⟨buffer.length, pos + i, pos + i + 1⟩] := rfl

@[simp] theorem value_byte (i : ℕ) :
    (byte i).value buffer pos = some (buffer.getD (pos + i) 0, pos) := rfl

@[simp] theorem uses_next :
    next.uses buffer pos = [.access ⟨buffer.length, pos, pos + 1⟩] := rfl

@[simp] theorem value_next :
    next.value buffer pos = some (buffer.getD pos 0, pos + 1) := rfl

@[simp] theorem uses_take (n : ℕ) :
    (take n).uses buffer pos = [.access ⟨buffer.length, pos, pos + n⟩] := rfl

@[simp] theorem value_take (n : ℕ) :
    (take n).value buffer pos = some ((buffer.drop pos).take n, pos + n) := rfl

@[simp] theorem uses_within (p : Reader α) :
    (within p).uses buffer pos = p.uses (buffer.drop pos) 0 := rfl

theorem value_within (p : Reader α) :
    (within p).value buffer pos =
      (p.value (buffer.drop pos) 0).map fun r => (r.1, pos + r.2) := rfl

end

/-! ### Reading what was written -/

/-- Wherever the bytes stand, they are read as the value, to the last byte. -/
def Reads (p : Reader α) (s : List UInt8) (a : α) : Prop :=
  ∀ before after, p.value (before ++ s ++ after) before.length =
    some (a, before.length + s.length)

variable {p : Reader α} {f : α → Reader β} {s t : List UInt8} {a : α} {b : β}

theorem reads_pure (a : α) : (pure a : Reader α).Reads [] a := fun _ _ => rfl

theorem Reads.bind (hp : p.Reads s a) (hf : (f a).Reads t b) : (p >>= f).Reads (s ++ t) b := by
  intro before after
  have h₁ := hp before (t ++ after)
  have h₂ := hf (before ++ s) after
  simp only [List.append_assoc, List.length_append] at h₁ h₂ ⊢
  rw [value_bind, h₁, Option.bind_some, h₂, Nat.add_assoc]

/-- Bytes that are asked for are there. -/
theorem Reads.need {p : Reader β} {n : ℕ} (h : n ≤ s.length) (hp : p.Reads s b) :
    (Reader.need n >>= fun _ => p).Reads s b := by
  intro before after
  rw [value_bind, value_need, if_neg (by simp only [List.length_append]; omega)]
  exact hp before after

theorem getD_append_add (before s : List UInt8) (i : ℕ) :
    (before ++ s).getD (before.length + i) 0 = s.getD i 0 := by
  simp [List.getD_eq_getElem?_getD, List.getElem?_append_right]

theorem Reads.byte {f : UInt8 → Reader β} {i : ℕ} {x : UInt8} (h : s[i]? = some x)
    (hf : (f x).Reads s b) : (Reader.byte i >>= f).Reads s b := by
  intro before after
  have hi : i < s.length := (List.getElem?_eq_some_iff.mp h).1
  have hx : (before ++ s ++ after).getD (before.length + i) 0 = x := by
    rw [List.append_assoc, getD_append_add, List.getD_eq_getElem?_getD,
      List.getElem?_append_left hi, h, Option.getD_some]
  rw [value_bind, value_byte, Option.bind_some, hx]
  exact hf before after

theorem reads_skip {n : ℕ} (h : s.length = n) : (skip n).Reads s () := by
  intro before after
  rw [value_skip, h]

theorem reads_next (x : UInt8) : next.Reads [x] x := by
  intro before after
  have hx := getD_append_add before (x :: after) 0
  rw [value_next, List.append_assoc]
  exact congrArg (fun y => some (y, before.length + 1)) hx

theorem reads_next_pure (f : UInt8 → α) (x : UInt8) :
    (do let y ← next; return f y : Reader α).Reads [x] (f x) :=
  (reads_next x).bind (reads_pure (f x))

/-- The last step of a part whose bytes have all been looked at. -/
theorem reads_skip_pure {n : ℕ} (h : s.length = n) (a : α) :
    (do skip n; return a : Reader α).Reads s a := by
  have hs := (reads_skip h).bind (f := fun _ => pure a) (reads_pure a)
  rwa [List.append_nil] at hs

theorem reads_take {n : ℕ} (h : s.length = n) : (take n).Reads s s := by
  intro before after
  rw [value_take, List.append_assoc, List.drop_left, List.take_left' h, h]

/-- Where every unit takes a byte, there are no more units than bytes. -/
theorem length_le_length_flatMap {wire : α → List UInt8} (h : ∀ a, 1 ≤ (wire a).length)
    (units : List α) : units.length ≤ (units.flatMap wire).length := by
  induction units with
  | nil => exact Nat.le_refl _
  | cons a units ih =>
    rw [List.flatMap_cons, List.length_append, List.length_cons]
    have ha := h a
    omega

theorem Reads.within (h : p.Reads s a) : (Reader.within p).Reads s a := by
  intro before after
  have h₀ := h [] after
  simp only [List.nil_append, List.length_nil, Nat.zero_add] at h₀
  rw [value_within, List.append_assoc, List.drop_left, h₀, Option.map_some]

variable {buffer : List UInt8} {pos n : ℕ}

/-- From a position of the buffer on, the readers do the same. -/
structure SameAt (p q : Reader α) (buffer : List UInt8) (pos : ℕ) : Prop where
  uses : p.uses buffer pos = q.uses buffer pos
  value : p.value buffer pos = q.value buffer pos

theorem SameAt.refl (p : Reader α) (buffer : List UInt8) (pos : ℕ) : p.SameAt p buffer pos :=
  ⟨rfl, rfl⟩

theorem SameAt.symm {q : Reader α} (h : p.SameAt q buffer pos) : q.SameAt p buffer pos :=
  ⟨h.uses.symm, h.value.symm⟩

theorem SameAt.trans {q r : Reader α} (h : p.SameAt q buffer pos) (h' : q.SameAt r buffer pos) :
    p.SameAt r buffer pos := ⟨h.uses.trans h'.uses, h.value.trans h'.value⟩

/-- A reader that only finds something out. -/
theorem sameAt_silent {a : α} (huses : p.uses buffer pos = [])
    (hvalue : p.value buffer pos = some (a, pos)) : (p >>= f).SameAt (f a) buffer pos where
  uses := by rw [uses_bind, hvalue, huses, List.nil_append]
  value := by rw [value_bind, hvalue, Option.bind_some]

theorem SameAt.bind {q : Reader α} {f g : α → Reader β} (hp : p.SameAt q buffer pos)
    (h : ∀ a pos', p.value buffer pos = some (a, pos') → (f a).SameAt (g a) buffer pos') :
    (p >>= f).SameAt (q >>= g) buffer pos := by
  have huses := hp.uses
  have hvalue := hp.value
  cases hv : p.value buffer pos with
  | none =>
    rw [hv] at hvalue
    exact ⟨by rw [uses_bind, uses_bind, hv, ← hvalue, huses],
      by rw [value_bind, value_bind, hv, ← hvalue, Option.bind_none, Option.bind_none]⟩
  | some r =>
    rw [hv] at hvalue
    have hnext := h r.1 r.2 hv
    refine ⟨?_, ?_⟩
    · rw [uses_bind, uses_bind, hv, ← hvalue, huses]
      exact congrArg (q.uses buffer pos ++ ·) hnext.uses
    · rw [value_bind, value_bind, hv, ← hvalue, Option.bind_some, Option.bind_some]
      exact hnext.value

/-! ### Safety -/

/-- From a position on the uses are in order, and the position behind the value is in the
buffer. -/
structure SafeAt (p : Reader α) (buffer : List UInt8) (pos : ℕ) : Prop where
  uses : AllOk (p.uses buffer pos)
  value : ∀ r, p.value buffer pos = some r → r.2 ≤ buffer.length

theorem safeAt_pure (a : α) (h : pos ≤ buffer.length) : (pure a : Reader α).SafeAt buffer pos where
  uses := allOk_nil
  value r hr := by
    obtain rfl := Option.some.inj hr
    exact h

theorem safeAt_bind_none (hvalue : p.value buffer pos = none) :
    (p >>= f).SafeAt buffer pos ↔ AllOk (p.uses buffer pos) := by
  have huses : (p >>= f).uses buffer pos = p.uses buffer pos := by
    rw [uses_bind, hvalue, List.append_nil]
  refine ⟨fun h => huses ▸ h.uses, fun h => ⟨huses ▸ h, fun r hr => ?_⟩⟩
  rw [value_bind, hvalue] at hr
  cases hr

theorem safeAt_bind_some {a : α} {pos' : ℕ} (hvalue : p.value buffer pos = some (a, pos')) :
    (p >>= f).SafeAt buffer pos ↔ AllOk (p.uses buffer pos) ∧ (f a).SafeAt buffer pos' := by
  have huses : (p >>= f).uses buffer pos = p.uses buffer pos ++ (f a).uses buffer pos' := by
    rw [uses_bind, hvalue]
  have hbehind : (p >>= f).value buffer pos = (f a).value buffer pos' := by
    rw [value_bind, hvalue, Option.bind_some]
  constructor
  · intro h
    have hall := h.uses
    rw [huses, allOk_append] at hall
    exact ⟨hall.1, hall.2, fun r hr => h.value r (hbehind ▸ hr)⟩
  · rintro ⟨hp, hf⟩
    exact ⟨huses ▸ allOk_append.mpr ⟨hp, hf.uses⟩, fun r hr => hf.value r (hbehind ▸ hr)⟩

theorem SafeAt.bind (hp : p.SafeAt buffer pos)
    (hf : ∀ a pos', p.value buffer pos = some (a, pos') → pos' ≤ buffer.length →
      (f a).SafeAt buffer pos') : (p >>= f).SafeAt buffer pos := by
  cases hv : p.value buffer pos with
  | none => exact (safeAt_bind_none hv).mpr hp.uses
  | some r => exact (safeAt_bind_some hv).mpr ⟨hp.uses, hf r.1 r.2 hv (hp.value r hv)⟩

/-- A reader that has looked at nothing out of order goes on. -/
theorem SafeAt.step {a : α} {pos' : ℕ} (huses : AllOk (p.uses buffer pos))
    (hvalue : p.value buffer pos = some (a, pos')) (hf : (f a).SafeAt buffer pos') :
    (p >>= f).SafeAt buffer pos := (safeAt_bind_some hvalue).mpr ⟨huses, hf⟩

/-- What is asked for may be used. -/
theorem SafeAt.need {f : Unit → Reader β} (h : pos + n ≤ buffer.length → (f ()).SafeAt buffer pos) :
    (Reader.need n >>= f).SafeAt buffer pos := by
  by_cases hn : pos + n > buffer.length
  · exact (safeAt_bind_none (by rw [value_need, if_pos hn])).mpr allOk_nil
  · exact .step allOk_nil (by rw [value_need, if_neg hn]) (h (by omega))

theorem SafeAt.byte {f : UInt8 → Reader β} {i : ℕ} (hi : pos + i < buffer.length)
    (h : (f (buffer.getD (pos + i) 0)).SafeAt buffer pos) :
    (Reader.byte i >>= f).SafeAt buffer pos :=
  .step (allOk_cons.mpr ⟨⟨Nat.le_succ _, hi⟩, allOk_nil⟩) rfl h

theorem SafeAt.next {f : UInt8 → Reader β} (hi : pos < buffer.length)
    (h : (f (buffer.getD pos 0)).SafeAt buffer (pos + 1)) :
    (Reader.next >>= f).SafeAt buffer pos :=
  .step (allOk_cons.mpr ⟨⟨Nat.le_succ _, hi⟩, allOk_nil⟩) rfl h

theorem SafeAt.skip {f : Unit → Reader β} (h : (f ()).SafeAt buffer (pos + n)) :
    (Reader.skip n >>= f).SafeAt buffer pos := .step allOk_nil rfl h

theorem SafeAt.take {f : List UInt8 → Reader β} (hn : pos + n ≤ buffer.length)
    (h : (f ((buffer.drop pos).take n)).SafeAt buffer (pos + n)) :
    (Reader.take n >>= f).SafeAt buffer pos :=
  .step (allOk_cons.mpr ⟨⟨Nat.le_add_right _ _, hn⟩, allOk_nil⟩) rfl h

/-! ### How far a reader goes -/

/-- The reader passes `len` bytes, of which up to `slack` may be missing, and gives up
where more are missing. Its uses are in order if none is missing or it gives up. -/
structure Passes (p : Reader α) (buffer : List UInt8) (pos len slack : ℕ) : Prop where
  passes : pos + len ≤ buffer.length + slack → ∃ a, p.value buffer pos = some (a, pos + len)
  givesUp : buffer.length + slack < pos + len → p.value buffer pos = none
  uses : pos + len ≤ buffer.length ∨ buffer.length + slack < pos + len →
    AllOk (p.uses buffer pos)

variable {len len' slack : ℕ}

/-- A reader that gives up before it uses anything. -/
theorem passes_of_none (h : buffer.length + slack < pos + len)
    (hvalue : p.value buffer pos = none) (huses : AllOk (p.uses buffer pos)) :
    p.Passes buffer pos len slack :=
  ⟨fun hle => absurd hle (by omega), fun _ => hvalue, fun _ => huses⟩

/-- Behind the value no more is missing than may be. -/
theorem Passes.le (hp : p.Passes buffer pos len slack) {r : α × ℕ}
    (h : p.value buffer pos = some r) : r.2 ≤ buffer.length + slack := by
  by_cases hle : pos + len ≤ buffer.length + slack
  · obtain ⟨a, ha⟩ := hp.passes hle
    rw [h] at ha
    rw [Option.some.inj ha]
    exact hle
  · rw [hp.givesUp (by omega)] at h
    cases h

/-- Nothing is missing of the bytes before those of the last reader. -/
theorem Passes.bind (hslack : slack ≤ len') (hp : p.Passes buffer pos len 0)
    (hf : pos + len ≤ buffer.length → ∀ a, (f a).Passes buffer (pos + len) len' slack) :
    (p >>= f).Passes buffer pos (len + len') slack := by
  by_cases hfits : pos + len ≤ buffer.length
  · obtain ⟨a, hvalue⟩ := hp.passes hfits
    have hnext := hf hfits a
    refine ⟨fun h => ?_, fun h => ?_, fun h => ?_⟩
    · obtain ⟨b, hb⟩ := hnext.passes (by omega)
      exact ⟨b, by rw [value_bind, hvalue, Option.bind_some, hb, Nat.add_assoc]⟩
    · rw [value_bind, hvalue, Option.bind_some]
      exact hnext.givesUp (by omega)
    · rw [uses_bind, hvalue]
      exact allOk_append.mpr ⟨hp.uses (.inl hfits), hnext.uses (by omega)⟩
  · have hvalue := hp.givesUp (by omega)
    refine passes_of_none (by omega) ?_ ?_
    · rw [value_bind, hvalue, Option.bind_none]
    · rw [uses_bind, hvalue, List.append_nil]
      exact hp.uses (.inr (by omega))

/-- The value alone is changed. -/
theorem Passes.map (hp : p.Passes buffer pos len slack) (g : α → β) :
    (p >>= fun a => pure (g a)).Passes buffer pos len slack := by
  refine ⟨fun h => ?_, fun h => ?_, fun h => ?_⟩
  · obtain ⟨a, ha⟩ := hp.passes h
    exact ⟨g a, by rw [value_bind, ha, Option.bind_some, value_pure]⟩
  · rw [value_bind, hp.givesUp h, Option.bind_none]
  · rw [uses_bind]
    refine allOk_append.mpr ⟨hp.uses h, ?_⟩
    cases p.value buffer pos <;> exact allOk_nil

/-- A part that asks for its bytes first. -/
theorem passes_need {f : Unit → Reader β} (h : pos + len ≤ buffer.length →
      AllOk ((f ()).uses buffer pos) ∧ ∃ b, (f ()).value buffer pos = some (b, pos + len)) :
    (Reader.need len >>= f).Passes buffer pos len 0 := by
  by_cases hn : pos + len > buffer.length
  · refine passes_of_none hn ?_ ?_
    · rw [value_bind, value_need, if_pos hn, Option.bind_none]
    · rw [uses_bind, value_need, if_pos hn]
      exact allOk_nil
  · obtain ⟨huses, b, hb⟩ := h (by omega)
    refine ⟨fun _ => ⟨b, ?_⟩, fun h => absurd h (by omega), fun _ => ?_⟩
    · rw [value_bind, value_need, if_neg hn, Option.bind_some, hb]
    · rw [uses_bind, value_need, if_neg hn]
      exact huses

/-- The bytes behind the first one depend on it. -/
theorem Passes.next {f : UInt8 → Reader β} (hslack : slack ≤ len)
    (hf : pos + 1 ≤ buffer.length → (f (buffer.getD pos 0)).Passes buffer (pos + 1) len slack) :
    (Reader.need 1 >>= fun _ => Reader.next >>= f).Passes buffer pos (1 + len) slack := by
  by_cases hn : pos + 1 > buffer.length
  · refine passes_of_none (by omega) ?_ ?_
    · rw [value_bind, value_need, if_pos hn, Option.bind_none]
    · rw [uses_bind, value_need, if_pos hn]
      exact allOk_nil
  · have hnext := hf (by omega)
    have hvalue : (Reader.need 1 >>= fun _ => Reader.next >>= f).value buffer pos =
        (f (buffer.getD pos 0)).value buffer (pos + 1) := by
      rw [value_bind, value_need, if_neg hn, Option.bind_some, value_bind, value_next,
        Option.bind_some]
    have huses : (Reader.need 1 >>= fun _ => Reader.next >>= f).uses buffer pos =
        .access ⟨buffer.length, pos, pos + 1⟩ ::
          (f (buffer.getD pos 0)).uses buffer (pos + 1) := by
      rw [uses_bind, value_need, if_neg hn]
      rfl
    refine ⟨fun h => ?_, fun h => ?_, fun h => ?_⟩
    · obtain ⟨b, hb⟩ := hnext.passes (by omega)
      exact ⟨b, by rw [hvalue, hb, Nat.add_assoc]⟩
    · rw [hvalue]
      exact hnext.givesUp (by omega)
    · rw [huses]
      exact allOk_cons.mpr ⟨⟨Nat.le_succ _, Nat.not_lt.mp hn⟩, hnext.uses (by omega)⟩

theorem passes_part (flag : Bool) (absent : α) (hpos : pos ≤ buffer.length)
    (hp : flag = true → p.Passes buffer pos len slack) :
    (part flag absent p).Passes buffer pos (if flag then len else 0)
      (if flag then slack else 0) := by
  cases flag with
  | true => exact hp rfl
  | false => exact ⟨fun _ => ⟨absent, rfl⟩, fun h => absurd h (Nat.not_lt.mpr hpos),
      fun _ => allOk_nil⟩

end Reader

end CxxDeps.Library
