import CxxDeps.H265.Depacketize
import CxxDeps.Library.Run

/-! The caches of `h264_gop` and `h265_gop`: the frames from the last key frame on, for
those who join late. The two classes differ in how they tell the type of a frame.

`all` leaves the mark of `clear`, that the last frame was a key frame, and keeps the frames.
The next key frame is then taken for one that continues a group of them. -/

namespace CxxDeps.Video

open Library

/-- What the scanner finds lies in the buffer. -/
theorem findNalLoop_inside {size : ℕ} {bs : List UInt8} {i nalStart curPos : ℕ} {z : ℤ}
    {n : H264.FoundNal} (hi : i + bs.length = size) (hcur : curPos ≤ i)
    (hs : nalStart = 0 ∨ nalStart = curPos)
    (h : H264.findNalLoop size bs i z nalStart curPos = some n) :
    n.nalStart < size ∧ n.nalStart + n.nalSize ≤ size := by
  induction bs generalizing i z nalStart curPos with
  | nil =>
    rw [H264.findNalLoop] at h
    obtain ⟨hlt, hn⟩ := Option.ite_none_right_eq_some.mp h
    obtain rfl := Option.some.inj hn
    simp only
    omega
  | cons b bs ih =>
    rw [List.length_cons] at hi
    rw [H264.findNalLoop] at h
    by_cases hzero : b = 0
    · rw [if_pos hzero] at h
      exact ih (by omega) (by omega) hs h
    rw [if_neg hzero] at h
    by_cases hone : b = 1 ∧ z ≥ 2
    · rw [if_pos hone] at h
      by_cases hstart : nalStart > 0
      · -- a NAL unit that ends in front of this start code
        rw [if_pos hstart] at h
        obtain ⟨hend, hn⟩ := Option.ite_none_left_eq_some.mp h
        obtain rfl := Option.some.inj hn
        simp only
        omega
      · rw [if_neg hstart] at h
        exact ih (by omega) le_rfl (.inr rfl) h
    · rw [if_neg hone] at h
      exact ih (by omega) (by omega) hs h

/-- The byte that tells the type is a byte of the frame. -/
theorem findNextNal_inside {frame : List UInt8} {n : H264.FoundNal}
    (h : H264.findNextNal frame 0 = some n) : n.nalStart < frame.length := by
  rw [H264.findNextNal, List.drop_zero] at h
  exact (findNalLoop_inside (by rw [Nat.zero_add]) le_rfl (.inl rfl) h).1

inductive Coding
  | h264
  | h265
  deriving DecidableEq, Repr

namespace Coding

/-- The type of the first NAL unit, where `find_next_nal` finds one. -/
def frameType : Coding → List UInt8 → Option UInt8
  | .h264, frame =>
    (H264.findNextNal frame 0).map fun n => H264.getNalType (frame.getD n.nalStart 0)
  | .h265, frame => (H265.findNextNal frame 0).map fun n => H265.getNalType (n.bytes frame)

def isKeyFrame : Coding → UInt8 → Bool
  | .h264 => H264.keyType
  | .h265 => H265.keyType

end Coding

/-- `frame_t`. -/
structure Frame where
  frame : List UInt8
  type : UInt8
  duration : UInt32
  deriving DecidableEq, Repr

/-- `h264_gop` or `h265_gop`. -/
structure Gop where
  maxPkts : ℕ := 10000
  lastKeyframe : Bool := true
  frames : List Frame := []
  deriving DecidableEq, Repr

namespace Gop

variable (coding : Coding)

def add (frame : List UInt8) (duration : UInt32) (s : Gop) : Gop × Bool :=
  match coding.frameType frame with
  | none => (s, false)
  | some t =>
    let iskey := coding.isKeyFrame t
    let frames :=
      if (iskey && !s.lastKeyframe) || s.frames.length > s.maxPkts then [] else s.frames
    if frames.length = 0 ∧ !iskey then ({ s with lastKeyframe := iskey, frames }, false)
    else ({ s with lastKeyframe := iskey, frames := frames ++ [⟨frame, t, duration⟩] }, true)

def clear (s : Gop) : Gop := { s with frames := [], lastKeyframe := true }

def all (s : Gop) : Gop × List Frame := ({ s with lastKeyframe := true }, s.frames)

inductive Action
  | add (frame : List UInt8) (duration : UInt32)
  | all
  | clear
  deriving DecidableEq, Repr

inductive Reply
  | added (ok : Bool)
  | frames (frames : List Frame)
  deriving DecidableEq, Repr

def step (s : Gop) : Action → Option (Gop × List Reply)
  | .add frame duration => some ((s.add coding frame duration).1,
      [.added (s.add coding frame duration).2])
  | .all => some (s.all.1, [.frames s.all.2])
  | .clear => some (s.clear, [])

/-- The list is empty or starts with a key frame, and no key frame stands behind a frame
that is none. -/
structure Shaped (frames : List Frame) : Prop where
  first : ∀ f ∈ frames.head?, coding.isKeyFrame f.type
  keys : frames.Pairwise fun f g => coding.isKeyFrame g.type → coding.isKeyFrame f.type

/-- No key frame is added while the last frame counts as one, unless the cache is over its
limit or holds nothing else. -/
def StepOk (s : Gop) : Action → Prop
  | .add frame _ => ∀ t ∈ coding.frameType frame, coding.isKeyFrame t → s.lastKeyframe →
      s.frames.length ≤ s.maxPkts → ∀ f ∈ s.frames, coding.isKeyFrame f.type
  | _ => True

variable {coding}

theorem shaped_nil : Shaped coding [] := ⟨by simp, List.Pairwise.nil⟩

theorem shaped_concat {frames : List Frame} {f : Frame} : Shaped coding (frames ++ [f]) ↔
    Shaped coding frames ∧ (frames = [] → coding.isKeyFrame f.type) ∧
      (coding.isKeyFrame f.type → ∀ g ∈ frames, coding.isKeyFrame g.type) := by
  constructor
  · rintro ⟨hfirst, hkeys⟩
    obtain ⟨hframes, -, hlast⟩ := List.pairwise_append.mp hkeys
    refine ⟨⟨fun g hg => hfirst g ?_, hframes⟩, ?_, fun hf g hg => hlast g hg f (by simp) hf⟩
    · rw [List.head?_append, Option.mem_def.mp hg]
      rfl
    · rintro rfl
      exact hfirst f rfl
  · rintro ⟨⟨hfirst, hkeys⟩, hempty, hlast⟩
    refine ⟨fun g hg => ?_, List.pairwise_append.mpr ⟨hkeys, List.pairwise_singleton _ _, ?_⟩⟩
    · cases frames with
      | nil =>
        obtain rfl := Option.some.inj hg
        exact hempty rfl
      | cons h frames => exact hfirst g hg
    · intro g hg f' hf' hkey
      obtain rfl := List.mem_singleton.mp hf'
      exact hlast hkey g hg

/-- What is left of the cache before a frame of this type goes in. -/
def kept (coding : Coding) (t : UInt8) (s : Gop) : List Frame :=
  if (coding.isKeyFrame t && !s.lastKeyframe) || s.frames.length > s.maxPkts then [] else s.frames

theorem frames_add {frame : List UInt8} {t : UInt8} (ht : coding.frameType frame = some t)
    (duration : UInt32) (s : Gop) :
    (s.add coding frame duration).1.frames =
      if s.kept coding t = [] ∧ coding.isKeyFrame t = false then []
      else s.kept coding t ++ [⟨frame, t, duration⟩] := by
  simp only [add, ht, kept, List.length_eq_zero_iff, Bool.not_eq_eq_eq_not, Bool.not_true]
  split_ifs with h1 h2 h2 <;> simp_all

theorem Shaped.kept {s : Gop} (h : Shaped coding s.frames) (t : UInt8) :
    Shaped coding (s.kept coding t) := by
  rw [Gop.kept]
  split
  · exact shaped_nil
  · exact h

/-- The condition is that a key frame goes in behind key frames only. -/
theorem stepOk_add_iff {frame : List UInt8} {t : UInt8} (ht : coding.frameType frame = some t)
    (duration : UInt32) (s : Gop) : StepOk coding s (.add frame duration) ↔
      (coding.isKeyFrame t → ∀ f ∈ s.kept coding t, coding.isKeyFrame f.type) := by
  simp only [StepOk, ht, Option.mem_some_iff, forall_eq', kept]
  refine imp_congr_right fun hkey => ?_
  by_cases hlast : s.lastKeyframe <;> by_cases hlen : s.frames.length ≤ s.maxPkts <;>
    simp [hkey, hlast, hlen, Nat.not_lt.mpr, Nat.lt_of_not_le]

theorem shaped_add_iff {s : Gop} (h : Shaped coding s.frames) (frame : List UInt8)
    (duration : UInt32) :
    Shaped coding (s.add coding frame duration).1.frames ↔
      StepOk coding s (.add frame duration) := by
  cases ht : coding.frameType frame with
  | none => simp [add, StepOk, ht, h]
  | some t =>
    rw [stepOk_add_iff ht, frames_add ht]
    by_cases hskip : s.kept coding t = [] ∧ coding.isKeyFrame t = false
    · simp [hskip, shaped_nil]
    · rw [if_neg hskip, shaped_concat]
      have hfirst : s.kept coding t = [] → coding.isKeyFrame t :=
        fun hnil => by simpa using fun hkey => hskip ⟨hnil, hkey⟩
      constructor
      · rintro ⟨-, -, hkeys⟩
        exact hkeys
      · intro hkeys
        exact ⟨h.kept t, hfirst, hkeys⟩

theorem step_shaped_iff {s t : Gop} {a : Action} {out : List Reply} (h : Shaped coding s.frames)
    (hs : step coding s a = some (t, out)) : Shaped coding t.frames ↔ StepOk coding s a := by
  cases a with
  | add frame duration =>
    obtain ⟨rfl, -⟩ := Prod.mk.inj (Option.some.inj hs)
    exact shaped_add_iff h frame duration
  | all =>
    obtain ⟨rfl, -⟩ := Prod.mk.inj (Option.some.inj hs)
    exact iff_of_true h trivial
  | clear =>
    obtain ⟨rfl, -⟩ := Prod.mk.inj (Option.some.inj hs)
    exact iff_of_true shaped_nil trivial

/-- The cache has its shape at all times exactly if no step of the run puts a key frame
behind a frame that is none. -/
theorem always_shaped_iff (coding : Coding) (maxPkts : ℕ) (actions : List Action) :
    RunOk (step coding) (StepOk coding) { maxPkts } actions ↔
      ∀ pre, pre <+: actions → ∀ s out, run (step coding) { maxPkts } pre = some (s, out) →
        Shaped coding s.frames := by
  constructor
  · rintro hok pre ⟨rest, rfl⟩ s out hr
    refine RunOk.invariant (fun s _ => Shaped coding s.frames) ?_ [] hok.append_left shaped_nil hr
    intro s _ a t out h ha hs
    exact (step_shaped_iff h hs).mpr ha
  · intro h
    refine RunOk.of_good (fun s => Shaped coding s.frames) (fun s => Shaped coding s.frames)
      (p := fun _ => True) ?_ ?_ (fun _ _ => trivial) shaped_nil h
    · intro s a _ hs hgood
      obtain ⟨⟨t, out⟩, ht⟩ : ∃ r, step coding s a = some r := by cases a <;> exact ⟨_, rfl⟩
      exact (step_shaped_iff hs ht).mp (hgood t out ht)
    · intro s a t out _ h ha hs
      exact (step_shaped_iff h hs).mpr ha

/-- Two key frames with a frame in between, and `all` before the second one. -/
private def joined (key frame : List UInt8) : List Action :=
  [.add key 40, .add frame 40, .all, .add key 40]

/-- The old group of frames stays in front of the new one, in either class. -/
theorem always_shaped_fails :
    (∃ s out, run (step .h264) {} (joined [0, 0, 1, 0x65] [0, 0, 1, 0x41]) = some (s, out) ∧
      s.frames.map Frame.type = [5, 1, 5] ∧ ¬ Shaped .h264 s.frames) ∧
    (∃ s out, run (step .h265) {} (joined [0, 0, 1, 0x26, 1] [0, 0, 1, 0x02, 1]) = some (s, out) ∧
      s.frames.map Frame.type = [19, 1, 19] ∧ ¬ Shaped .h265 s.frames) := by
  refine ⟨⟨_, _, rfl, rfl, fun h => ?_⟩, ⟨_, _, rfl, rfl, fun h => ?_⟩⟩
  · exact absurd h.keys (by decide)
  · exact absurd h.keys (by decide)

end Gop

end CxxDeps.Video
