import CxxDeps.Library.Run
import CxxDeps.Rtp.Report
import CxxDeps.Sys.StringUtil

/-! `rtp_source.c`: what a receiver knows of the numbers of a source, and what it reports of
them. Its counts are of type `int`; where one of them overflows the model has no value. Against
it stands the tally of RFC 3550, which counts with numbers that do not wrap. -/

namespace CxxDeps.Rtp

open Library Sys

/-! ### `rtp_source` -/

/-- A result of type `int`. -/
def intOf (n : ℤ) : Option ℤ := if -2 ^ 31 ≤ n ∧ n < 2 ^ 31 then some n else none

theorem intOf_eq_some {n m : ℤ} : intOf n = some m ↔ (-2 ^ 31 ≤ n ∧ n < 2 ^ 31) ∧ n = m := by
  unfold intOf
  split_ifs with h
  · rw [Option.some.injEq, and_iff_right h]
  · exact iff_of_false (by simp) fun hn => h hn.1

theorem intOf_of_fits {n : ℤ} (hlow : -2 ^ 31 ≤ n) (hhigh : n < 2 ^ 31) : intOf n = some n :=
  intOf_eq_some.mpr ⟨⟨hlow, hhigh⟩, rfl⟩

/-- `rtp_source`, without the estimates that are floating point. -/
structure Source where
  id : UInt32 := 0
  maxSeq : UInt16 := 0
  cycles : UInt32 := 0
  baseSeq : UInt32 := 0
  badSeq : UInt32 := 0
  probation : ℤ := 0
  received : ℤ := 0
  expectedPrior : ℤ := 0
  receivedPrior : ℤ := 0
  fraction : UInt8 := 0
  lost : ℤ := 0
  deriving DecidableEq, Repr

namespace Source

/-- `rtp_source_reset_seq`; no number is `65537`. -/
def resetSeq (s : Source) (seq : UInt16) : Source :=
  { s with
    baseSeq := seq.toUInt32
    maxSeq := seq
    badSeq := 65537
    cycles := 0
    received := 0
    receivedPrior := 0
    expectedPrior := 0 }

/-- `rtp_source_init` of a structure of zeros. -/
def init (id : UInt32) (seq : UInt16) : Source :=
  { resetSeq {} seq with id, maxSeq := seq - 1, probation := 2 }

/-- `udelta`, the way from the greatest number. -/
def udelta (s : Source) (seq : UInt16) : UInt16 := seq - s.maxSeq

/-- `received++`. -/
def count (s : Source) : Option Source :=
  (intOf (s.received + 1)).map fun received => { s with received }

/-- The packet of a source on probation; `max_seq + 1` is an `int`, so 0 does not follow
65535. -/
def updateProbation (s : Source) (seq : UInt16) : Option (ℤ × Source) :=
  if seq.toNat = s.maxSeq.toNat + 1 then
    let s := { s with probation := s.probation - 1, maxSeq := seq }
    if s.probation = 0 then (s.resetSeq seq).count.map (0, ·)
    else some (-1, s)
  else some (-1, { s with probation := 1, maxSeq := seq })

/-- `rtp_source_update_seq`. -/
def updateSeq (s : Source) (seq : UInt16) : Option (ℤ × Source) :=
  if s.probation > 0 then s.updateProbation seq
  else if s.udelta seq < 3000 then
    let cycles := if seq < s.maxSeq then s.cycles + 65536 else s.cycles
    ({ s with cycles, maxSeq := seq } : Source).count.map (0, ·)
  else if s.udelta seq ≤ 65436 then
    if seq.toUInt32 = s.badSeq then (s.resetSeq seq).count.map (0, ·)
    else some (-2, { s with badSeq := (seq.toUInt32 + 1) &&& 65535 })
  else s.count.map (0, ·)

/-- The packets that should have come. -/
def expected (s : Source) : ℤ := toInt32 (s.cycles + s.maxSeq.toUInt32 - s.baseSeq + 1).toNat

def expectedInterval (s : Source) : ℤ := s.expected - s.expectedPrior

def receivedInterval (s : Source) : ℤ := s.received - s.receivedPrior

def lostInterval (s : Source) : ℤ := s.expectedInterval - s.receivedInterval

/-- `(lost_interval << 8) / expected_interval` in eight bits. -/
def fractionOf (lost expected : ℤ) : Option UInt8 :=
  if expected = 0 ∨ lost ≤ 0 then some 0
  else (intOf (lost * 256)).map fun shifted =>
    UInt8.ofNat (shifted.tdiv expected % 256).toNat

/-- `rtp_source_update_lost`; `lost` has 24 bits. -/
def updateLost (s : Source) : Option Source := do
  let expectedInterval ← intOf s.expectedInterval
  let receivedInterval ← intOf s.receivedInterval
  let lostInterval ← intOf (expectedInterval - receivedInterval)
  let lost ← intOf (s.expected - s.received)
  let fraction ← fractionOf lostInterval expectedInterval
  return { s with
    lost := lost.bmod (2 ^ 24)
    expectedPrior := s.expected
    receivedPrior := s.received
    fraction }

/-- `rtcp_report_init`; the words that come of the clock are given. -/
def reportInit (s : Source) (jitter lsr dlsr : UInt32) : RtcpReport where
  ssrc := s.id
  fraction := s.fraction
  lost := s.lost
  lastSeq := s.maxSeq.toUInt32
  jitter
  lsr
  dlsr

end Source

/-! ### Runs of a source -/

/-- What a receiver does with its source: the packets that arrive, by the numbers that they
would have if numbers did not wrap, and the reports of `prepare_rr`. -/
inductive SourceEvent
  | packet (n : ℕ)
  | report (jitter lsr dlsr : UInt32)
  deriving DecidableEq, Repr

def seqOf (n : ℕ) : UInt16 := UInt16.ofNat n

def Source.step (s : Source) : SourceEvent → Option (Source × List RtcpReport)
  | .packet n => (s.updateSeq (seqOf n)).map fun r => (r.2, [])
  | .report jitter lsr dlsr => s.updateLost.map fun s => (s, [s.reportInit jitter lsr dlsr])

/-! ### The tally -/

/-- What is to be counted: from which number on, up to which, how many came, and how far
the last report was. -/
structure Tally where
  first : ℕ
  top : ℕ
  count : ℕ := 1
  expectedPrior : ℤ := 0
  countPrior : ℕ := 0
  deriving DecidableEq, Repr

namespace Tally

/-- The tally of a source at its first packet that counts. -/
def start (n : ℕ) : Tally := { first := n, top := n }

def expected (q : Tally) : ℤ := q.top - q.first + 1

def expectedInterval (q : Tally) : ℤ := q.expected - q.expectedPrior

def lostInterval (q : Tally) : ℤ := q.expectedInterval - (q.count - q.countPrior)

/-- The share of the packets lost since the last report, in 1/256. -/
def share (q : Tally) : ℤ :=
  if q.lostInterval ≤ 0 then 0 else q.lostInterval * 256 / q.expectedInterval

def report (id : UInt32) (q : Tally) (jitter lsr dlsr : UInt32) : RtcpReport where
  ssrc := id
  fraction := UInt8.ofNat q.share.toNat
  lost := q.expected - q.count
  lastSeq := UInt32.ofNat (q.top % 65536)
  jitter
  lsr
  dlsr

def step (id : UInt32) (q : Tally) : SourceEvent → Option (Tally × List RtcpReport)
  | .packet n => some ({ q with top := max q.top n, count := q.count + 1 }, [])
  | .report jitter lsr dlsr =>
    some ({ q with expectedPrior := q.expected, countPrior := q.count },
      [q.report id jitter lsr dlsr])

/-- A packet is at most 2999 ahead of the greatest number and at most 99 behind it, and is
counted; at a report the counts fit the fields that hold them. -/
def InWindow (q : Tally) : SourceEvent → Prop
  | .packet n => q.top < n + 100 ∧ n < q.top + 3000 ∧ q.count + 1 < 2 ^ 31
  | .report _ _ _ => q.expected < 2 ^ 31 ∧ q.lostInterval < 2 ^ 23 ∧
      -2 ^ 23 ≤ q.expected - q.count ∧ q.expected - q.count < 2 ^ 23

instance (q : Tally) (e : SourceEvent) : Decidable (q.InWindow e) := by
  unfold InWindow
  split <;> infer_instance

end Tally

/-! ### Numbers that wrap -/

@[simp] theorem toNat_seqOf (n : ℕ) : (seqOf n).toNat = n % 65536 := UInt16.toNat_ofNat'

theorem toNat_udelta (s : Source) (seq : UInt16) :
    (s.udelta seq).toNat = (65536 - s.maxSeq.toNat + seq.toNat) % 65536 := UInt16.toNat_sub _ _

/-- The turns of the counter between two numbers. -/
def turns (first top : ℕ) : ℕ := (top / 65536 - first / 65536) * 65536

theorem turns_add {first top : ℕ} (h : first ≤ top) :
    turns first top + top % 65536 = top - first + first % 65536 := by
  have hle : first / 65536 ≤ top / 65536 := Nat.div_le_div_right h
  unfold turns
  omega

theorem toInt32_of_lt {n : ℕ} (h : n < 2 ^ 31) : toInt32 n = n := by
  unfold toInt32
  rw [Int.bmod_eq_of_le (by omega) (by omega)]

namespace Source

theorem updateSeq_probation {s : Source} (h : 0 < s.probation) (seq : UInt16) :
    s.updateSeq seq = s.updateProbation seq := if_pos h

theorem count_of_lt {s : Source} (hlow : 0 ≤ s.received) (hhigh : s.received + 1 < 2 ^ 31) :
    s.count = some { s with received := s.received + 1 } := by
  rw [count, intOf_of_fits (by omega) hhigh, Option.map_some]

/-- The first packet that counts. -/
theorem count_resetSeq (s : Source) (seq : UInt16) :
    (s.resetSeq seq).count = some { s.resetSeq seq with received := 1 } :=
  count_of_lt le_rfl (show (0 : ℤ) + 1 < 2 ^ 31 by omega)

/-- What is expected, of the greatest number with its turns. -/
theorem expected_of_turns {s : Source} {first top : ℕ} (hle : first ≤ top)
    (hcycles : s.cycles = UInt32.ofNat (turns first top)) (hmax : s.maxSeq = seqOf top)
    (hbase : s.baseSeq = (seqOf first).toUInt32) (hlt : top - first + 1 < 2 ^ 31) :
    s.expected = (top : ℤ) - first + 1 := by
  have hturns := turns_add hle
  have hsum : (s.cycles + s.maxSeq.toUInt32 - s.baseSeq + 1).toNat = top - first + 1 := by
    rw [hcycles, hmax, hbase]
    simp only [UInt32.toNat_add, UInt32.toNat_sub, UInt32.toNat_ofNat', UInt16.toNat_toUInt32,
      toNat_seqOf, UInt32.toNat_ofNat]
    omega
  rw [expected, hsum, toInt32_of_lt hlt]
  omega

/-- A number that is ahead, but not far. -/
theorem updateSeq_ahead {s : Source} {first top n : ℕ} (hprobation : s.probation = 0)
    (hmax : s.maxSeq = seqOf top) (hcycles : s.cycles = UInt32.ofNat (turns first top))
    (hfirst : first ≤ top) (hle : top ≤ n) (hlt : n < top + 3000) (hlow : 0 ≤ s.received)
    (hhigh : s.received + 1 < 2 ^ 31) :
    s.updateSeq (seqOf n) = some (0, { s with
      cycles := UInt32.ofNat (turns first n)
      maxSeq := seqOf n
      received := s.received + 1 }) := by
  have hnear : s.udelta (seqOf n) < 3000 := by
    rw [UInt16.lt_iff_toNat_lt, toNat_udelta, hmax, toNat_seqOf, toNat_seqOf]
    change _ < 3000
    omega
  have hwrap : (if seqOf n < s.maxSeq then s.cycles + 65536 else s.cycles) =
      UInt32.ofNat (turns first n) := by
    rw [hmax, hcycles]
    simp only [UInt16.lt_iff_toNat_lt, toNat_seqOf]
    have hdiv : first / 65536 ≤ top / 65536 := Nat.div_le_div_right hfirst
    split
    · rw [show turns first n = turns first top + 65536 by unfold turns; omega, UInt32.ofNat_add]
      rfl
    · rw [show turns first n = turns first top by unfold turns; omega]
  rw [updateSeq, if_neg (by omega), if_pos hnear, hwrap]
  have hcount := count_of_lt (s := { s with
    cycles := UInt32.ofNat (turns first n)
    maxSeq := seqOf n }) hlow hhigh
  exact congrArg (Option.map (0, ·)) hcount

/-- A number that is a little behind. -/
theorem updateSeq_behind {s : Source} {top n : ℕ} (hprobation : s.probation = 0)
    (hmax : s.maxSeq = seqOf top) (hlt : n < top) (hle : top < n + 100) (hlow : 0 ≤ s.received)
    (hhigh : s.received + 1 < 2 ^ 31) :
    s.updateSeq (seqOf n) = some (0, { s with received := s.received + 1 }) := by
  have hdelta : (s.udelta (seqOf n)).toNat = 65536 - (top - n) := by
    rw [toNat_udelta, hmax, toNat_seqOf, toNat_seqOf]
    omega
  have hahead : ¬ s.udelta (seqOf n) < 3000 := by
    rw [UInt16.lt_iff_toNat_lt, hdelta]
    change ¬ _ < 3000
    omega
  have hnear : ¬ s.udelta (seqOf n) ≤ 65436 := by
    rw [UInt16.le_iff_toNat_le, hdelta]
    change ¬ _ ≤ 65436
    omega
  rw [updateSeq, if_neg (by omega), if_neg hahead, if_neg hnear, count_of_lt hlow hhigh,
    Option.map_some]

end Source

/-! ### The share of a tally -/

namespace Tally

/-- Since the last report a packet has come, or nothing is expected; no count is negative, and
that of the packets fits an `int`. -/
structure Sound (q : Tally) : Prop where
  first_le : q.first ≤ q.top
  count_lt : q.count < 2 ^ 31
  countPrior_le : q.countPrior ≤ q.count
  expectedPrior_nonneg : 0 ≤ q.expectedPrior
  expectedPrior_le : q.expectedPrior ≤ q.expected
  expectedPrior_eq : q.countPrior = q.count → q.expectedPrior = q.expected

variable {q q' : Tally}

theorem sound_start (n : ℕ) : (start n).Sound where
  first_le := le_rfl
  count_lt := show 1 < 2 ^ 31 by omega
  countPrior_le := Nat.zero_le 1
  expectedPrior_nonneg := le_rfl
  expectedPrior_le := show (0 : ℤ) ≤ n - n + 1 by omega
  expectedPrior_eq := fun h => absurd h Nat.zero_ne_one

theorem Sound.step (h : q.Sound) {id : UInt32} {e : SourceEvent} (hok : q.InWindow e)
    {o : List RtcpReport} (hstep : q.step id e = some (q', o)) : q'.Sound := by
  have hle := h.first_le
  cases e with
  | packet n =>
    obtain ⟨rfl, -⟩ := Prod.mk.inj (Option.some.inj hstep)
    have htop : q.top ≤ max q.top n := le_max_left _ _
    refine ⟨hle.trans htop, hok.2.2, h.countPrior_le.trans (Nat.le_succ _),
      h.expectedPrior_nonneg, h.expectedPrior_le.trans ?_, fun heq =>
        absurd (heq ▸ h.countPrior_le) (Nat.not_succ_le_self _)⟩
    show (q.top : ℤ) - q.first + 1 ≤ (max q.top n : ℕ) - q.first + 1
    omega
  | report jitter lsr dlsr =>
    obtain ⟨rfl, -⟩ := Prod.mk.inj (Option.some.inj hstep)
    refine ⟨hle, h.count_lt, le_rfl, ?_, le_rfl, fun _ => rfl⟩
    show (0 : ℤ) ≤ q.top - q.first + 1
    omega

/-- Not all packets of an interval are lost: the greatest number has come with one. -/
theorem Sound.lostInterval_lt (h : q.Sound) (hpos : 0 < q.lostInterval) :
    q.lostInterval < q.expectedInterval := by
  have hle := h.countPrior_le
  have hne : q.countPrior ≠ q.count := by
    intro heq
    have hprior := h.expectedPrior_eq heq
    unfold lostInterval expectedInterval at hpos
    omega
  have hlost : q.lostInterval = q.expectedInterval - (q.count - q.countPrior) := rfl
  omega

theorem share_nonneg (h : q.Sound) : 0 ≤ q.share := by
  unfold share
  split
  · exact le_rfl
  · rename_i hpos
    have hlt := h.lostInterval_lt (by omega)
    exact Int.ediv_nonneg (by omega) (by omega)

theorem share_lt (h : q.Sound) : q.share < 256 := by
  unfold share
  split
  · decide
  · rename_i hpos
    have hlt := h.lostInterval_lt (by omega)
    exact Int.ediv_lt_of_lt_mul (by omega) (by omega)

end Tally

/-! ### A source and its tally -/

/-- The source has what the tally has, in fields that wrap. -/
structure Follows (id : UInt32) (q : Tally) (s : Source) : Prop where
  id_eq : s.id = id
  probation_eq : s.probation = 0
  maxSeq_eq : s.maxSeq = seqOf q.top
  baseSeq_eq : s.baseSeq = (seqOf q.first).toUInt32
  cycles_eq : s.cycles = UInt32.ofNat (turns q.first q.top)
  received_eq : s.received = q.count
  expectedPrior_eq : s.expectedPrior = q.expectedPrior
  receivedPrior_eq : s.receivedPrior = q.countPrior
  first_le : q.first ≤ q.top

namespace Follows

variable {id : UInt32} {q : Tally} {s : Source}

theorem expected_eq (h : Follows id q s) (hlt : q.expected < 2 ^ 31) : s.expected = q.expected := by
  have hle := h.first_le
  have hfit : q.top - q.first + 1 < 2 ^ 31 := by unfold Tally.expected at hlt; omega
  exact Source.expected_of_turns hle h.cycles_eq h.maxSeq_eq h.baseSeq_eq hfit

/-- A packet in the window. -/
theorem packet (h : Follows id q s) {n : ℕ} (hn : q.InWindow (.packet n)) :
    ∃ code s', s.updateSeq (seqOf n) = some (code, s') ∧
      Follows id { q with top := max q.top n, count := q.count + 1 } s' := by
  obtain ⟨hbehind, hahead, hcount⟩ := hn
  have hreceived := h.received_eq
  rcases Nat.lt_or_ge n q.top with hlt | hle
  · refine ⟨_, _, Source.updateSeq_behind h.probation_eq h.maxSeq_eq hlt hbehind (by omega)
      (by omega), ?_⟩
    rw [max_eq_left hlt.le]
    exact { h with received_eq := by simp [h.received_eq] }
  · refine ⟨_, _, Source.updateSeq_ahead h.probation_eq h.maxSeq_eq h.cycles_eq h.first_le hle
      hahead (by omega) (by omega), ?_⟩
    rw [max_eq_right hle]
    exact { h with
      maxSeq_eq := rfl
      cycles_eq := rfl
      received_eq := by simp [h.received_eq]
      first_le := h.first_le.trans hle }

/-- The intervals of the source are those of the tally. -/
theorem intervals_eq (h : Follows id q s) (hexpected : q.expected < 2 ^ 31) :
    s.expectedInterval = q.expectedInterval ∧ s.receivedInterval = q.count - q.countPrior ∧
      s.lostInterval = q.lostInterval := by
  have hinterval : s.expectedInterval = q.expectedInterval := by
    rw [Source.expectedInterval, h.expected_eq hexpected, h.expectedPrior_eq]
    rfl
  have hreceived : s.receivedInterval = q.count - q.countPrior := by
    rw [Source.receivedInterval, h.received_eq, h.receivedPrior_eq]
  refine ⟨hinterval, hreceived, ?_⟩
  rw [Source.lostInterval, hinterval, hreceived]
  rfl

end Follows

/-- The quotient of the source is the share. -/
theorem fractionOf_eq {q : Tally} (hsound : q.Sound) (hlost : q.lostInterval < 2 ^ 23) :
    Source.fractionOf q.lostInterval q.expectedInterval = some (UInt8.ofNat q.share.toNat) := by
  have hnonneg := Tally.share_nonneg hsound
  have hlt := Tally.share_lt hsound
  rw [Tally.share] at hnonneg hlt ⊢
  unfold Source.fractionOf
  by_cases hpos : q.lostInterval ≤ 0
  · rw [if_pos (.inr hpos), if_pos hpos]
    rfl
  · have hinter := hsound.lostInterval_lt (by omega)
    rw [if_neg hpos] at hnonneg hlt ⊢
    rw [if_neg (by omega), intOf_of_fits (by omega) (by omega), Option.map_some,
      Int.tdiv_eq_ediv_of_nonneg (by omega), Int.emod_eq_of_lt hnonneg hlt]

namespace Follows

variable {id : UInt32} {q : Tally} {s : Source}

/-- A report. -/
theorem report (h : Follows id q s) (hsound : q.Sound) {jitter lsr dlsr : UInt32}
    (hok : q.InWindow (.report jitter lsr dlsr)) :
    ∃ s', s.updateLost = some s' ∧
      Follows id { q with expectedPrior := q.expected, countPrior := q.count } s' ∧
      s'.reportInit jitter lsr dlsr = q.report id jitter lsr dlsr := by
  obtain ⟨hexpected, hlost, hlow, hhigh⟩ := hok
  obtain ⟨hinterval, hreceived, -⟩ := h.intervals_eq hexpected
  have heq := h.expected_eq hexpected
  have hcount := hsound.count_lt
  have hprior := hsound.countPrior_le
  have hnonneg := hsound.expectedPrior_nonneg
  have hle := hsound.expectedPrior_le
  have hbmod : (q.expected - q.count).bmod (2 ^ 24) = q.expected - q.count := by
    rw [Int.bmod_eq_of_le (by omega) (by omega)]
  have hseq : s.maxSeq.toUInt32 = UInt32.ofNat (q.top % 65536) := by
    apply UInt32.toNat_inj.mp
    rw [h.maxSeq_eq, UInt16.toNat_toUInt32, toNat_seqOf, UInt32.toNat_ofNat']
    omega
  have hexp : intOf q.expectedInterval = some q.expectedInterval := by
    rw [Tally.expectedInterval]
    exact intOf_of_fits (by omega) (by omega)
  have hrec : intOf (q.count - q.countPrior) = some ((q.count : ℤ) - q.countPrior) :=
    intOf_of_fits (by omega) (by omega)
  have hloss : intOf (q.expectedInterval - (q.count - q.countPrior)) = some q.lostInterval := by
    refine intOf_eq_some.mpr ⟨⟨?_, hlost.trans (by omega)⟩, rfl⟩
    rw [Tally.expectedInterval]
    omega
  have hcum : intOf (q.expected - q.count) = some (q.expected - q.count) :=
    intOf_of_fits (by omega) (by omega)
  refine ⟨{ s with
    lost := q.expected - q.count
    expectedPrior := q.expected
    receivedPrior := q.count
    fraction := UInt8.ofNat q.share.toNat }, ?_, ?_, ?_⟩
  · simp only [Source.updateLost, hinterval, hreceived, heq, h.received_eq, hexp, hrec, hloss, hcum,
      fractionOf_eq hsound hlost, hbmod, Option.bind_eq_bind, Option.bind_some, Option.pure_def]
  · exact { h with expectedPrior_eq := rfl, receivedPrior_eq := rfl }
  · simp only [Source.reportInit, Tally.report, h.id_eq, hseq]

/-- One event in the window. -/
theorem step (h : Follows id q s) (hsound : q.Sound) {e : SourceEvent} (hok : q.InWindow e) :
    ∃ q' s' o, q.step id e = some (q', o) ∧ s.step e = some (s', o) ∧ Follows id q' s' := by
  cases e with
  | packet n =>
    obtain ⟨code, s', hs, hfollows⟩ := h.packet hok
    exact ⟨_, s', [], rfl, by rw [Source.step, hs, Option.map_some], hfollows⟩
  | report jitter lsr dlsr =>
    obtain ⟨s', hs, hfollows, hreport⟩ := h.report hsound hok
    exact ⟨_, s', _, rfl, by rw [Source.step, hs, Option.map_some, hreport], hfollows⟩

end Follows

/-! ### Probation -/

/-- Two packets in order end the probation of a source that has seen nothing. -/
theorem follows_start (id : UInt32) {n : ℕ} (hn : (n + 1) % 65536 ≠ 0) :
    ∃ s, run Source.step (Source.init id 0) [.packet n, .packet (n + 1)] = some (s, []) ∧
      Follows id (Tally.start (n + 1)) s := by
  have hfirst : (Source.init id 0).updateSeq (seqOf n) =
      some (-1, { Source.init id 0 with probation := 1, maxSeq := seqOf n }) := by
    have hprobation : 0 < (Source.init id 0).probation := by
      rw [show (Source.init id 0).probation = 2 from rfl]
      omega
    rw [Source.updateSeq_probation hprobation, Source.updateProbation, if_neg]
    rw [toNat_seqOf]
    change ¬ _ = 65535 + 1
    omega
  have hnext : (seqOf (n + 1)).toNat = (seqOf n).toNat + 1 := by
    rw [toNat_seqOf, toNat_seqOf]
    omega
  obtain ⟨waiting, hwaiting⟩ : ∃ waiting : Source, waiting =
    { Source.init id 0 with probation := 0, maxSeq := seqOf (n + 1) } := ⟨_, rfl⟩
  have hlast : ({ Source.init id 0 with probation := 1, maxSeq := seqOf n } : Source).updateSeq
      (seqOf (n + 1)) =
        some (0, { waiting.resetSeq (seqOf (n + 1)) with received := 1 }) := by
    rw [Source.updateSeq_probation (show (0 : ℤ) < 1 by omega), Source.updateProbation,
      if_pos hnext, hwaiting]
    exact congrArg (Option.map _) (Source.count_resetSeq _ _)
  refine ⟨{ waiting.resetSeq (seqOf (n + 1)) with received := 1 }, ?_, ?_⟩
  · simp only [run_cons, run_nil, Source.step, hfirst, hlast, Option.bind_some, Option.map_some,
      List.append_nil]
  · rw [hwaiting]
    exact
      { id_eq := rfl
        probation_eq := rfl
        maxSeq_eq := rfl
        baseSeq_eq := rfl
        cycles_eq := by simp [turns, Source.resetSeq, Tally.start]
        received_eq := rfl
        expectedPrior_eq := rfl
        receivedPrior_eq := rfl
        first_le := le_rfl }

/-! ### A block on the wire -/

theorem readS24_bounds (a b c : UInt8) : -2 ^ 23 ≤ readS24 a b c ∧ readS24 a b c < 2 ^ 23 := by
  have hmod := readS24_emod a b c
  rw [readS24] at hmod ⊢
  obtain ⟨u, hread⟩ : ∃ u, u = readU24 a b c := ⟨_, rfl⟩
  rw [← hread] at hmod ⊢
  by_cases hsmall : u < 0x800000
  · have hlt : u.toNat < 0x800000 := UInt32.lt_iff_toNat_lt.mp hsmall
    rw [if_pos hsmall]
    omega
  · have hge : 0x800000 ≤ u.toNat := by
      rw [UInt32.lt_iff_toNat_lt] at hsmall
      exact Nat.le_of_not_lt hsmall
    have hmask : (~~~u &&& 0xffffff).toNat ≤ 2 ^ 24 - 1 := by
      rw [UInt32.toNat_and]
      exact Nat.and_le_right
    rw [if_neg hsmall] at hmod ⊢
    rw [UInt32.toNat_add, show (1 : UInt32).toNat = 1 from rfl] at hmod ⊢
    omega

/-- The three bytes of a number that fits. -/
theorem exists_writeS24 {v : ℤ} (hlow : -2 ^ 23 ≤ v) (hhigh : v < 2 ^ 23) :
    ∃ a b c, writeS24 v = [a, b, c] ∧ readS24 a b c = v := by
  refine ⟨_, _, _, rfl, ?_⟩
  obtain ⟨u, hword⟩ : ∃ u, u = UInt32.ofNat (v % 2 ^ 32).toNat := ⟨_, rfl⟩
  have hu : u.toNat = (v % 2 ^ 32).toNat := by
    rw [hword, UInt32.toNat_ofNat']
    omega
  rw [← hword]
  have hbounds := readS24_bounds (u >>> 16).toUInt8 (u >>> 8).toUInt8 u.toUInt8
  have hmod := readS24_emod (u >>> 16).toUInt8 (u >>> 8).toUInt8 u.toUInt8
  rw [toNat_readU24] at hmod
  simp only [UInt32.toNat_toUInt8, UInt32.toNat_shiftRight, Nat.shiftRight_eq_div_pow,
    show (16 : UInt32).toNat % 32 = 16 from rfl, show (8 : UInt32).toNat % 32 = 8 from rfl] at hmod
  omega

/-- The other end reads the block that was written. -/
theorem RtcpReport.parse_bytes {r : RtcpReport} (hlow : -2 ^ 23 ≤ r.lost)
    (hhigh : r.lost < 2 ^ 23) : parse r.bytes = some r := by
  obtain ⟨a, b, c, hbytes, hread⟩ := exists_writeS24 hlow hhigh
  rw [parse, bytes, hbytes]
  simp [ofBytes, u32At, toBe32, hread]

/-! ### Every run in the window -/

/-- The reports of a source whose packets stay in the window are those of the tally, and the
other end reads them so. -/
theorem source_reports (id : UInt32) {n : ℕ} {es : List SourceEvent} (hn : (n + 1) % 65536 ≠ 0)
    (hok : RunOk (Tally.step id) Tally.InWindow (Tally.start (n + 1)) es) :
    ∃ s q rs, run Source.step (Source.init id 0) (.packet n :: .packet (n + 1) :: es) =
        some (s, rs) ∧
      run (Tally.step id) (Tally.start (n + 1)) es = some (q, rs) ∧ Follows id q s ∧
      ∀ r ∈ rs, RtcpReport.parse r.bytes = some r := by
  obtain ⟨s₀, hstart, hfollows⟩ := follows_start id hn
  obtain ⟨q, s, rs, hq, hs, hend⟩ := RunOk.simulates (fun q s => Follows id q s ∧ q.Sound)
    (fun q s e hR hin => by
      obtain ⟨q', s', o, hq, hs, hR'⟩ := hR.1.step hR.2 hin
      exact ⟨q', s', o, hq, hs, hR', hR.2.step hin hq⟩)
    hok ⟨hfollows, Tally.sound_start _⟩
  refine ⟨s, q, rs, run_append_eq_some.mpr ⟨s₀, [], rs, hstart, hs, rfl⟩, hq, hend.1, ?_⟩
  have hwire := RunOk.invariant (fun _ out => ∀ r ∈ out, RtcpReport.parse r.bytes = some r)
    (fun q out e q' o hout hin hstep => by
      intro r hr
      rcases List.mem_append.mp hr with hr | hr
      · exact hout r hr
      · cases e with
        | packet n =>
          obtain ⟨-, rfl⟩ := Prod.mk.inj (Option.some.inj hstep)
          simp at hr
        | report jitter lsr dlsr =>
          obtain ⟨-, rfl⟩ := Prod.mk.inj (Option.some.inj hstep)
          obtain rfl := List.mem_singleton.mp hr
          exact RtcpReport.parse_bytes hin.2.2.1 hin.2.2.2)
    [] hok (by simp) hq
  simpa using hwire

/-- Three packets, one of them late, and two reports at the turn of the counter. -/
theorem source_reports_turn :
    ∃ s q rs, run Source.step (Source.init 7 0) (.packet 65533 :: .packet 65534 ::
        [.packet 65538, .report 0 0 0, .packet 65536, .packet 65539, .report 0 0 0]) =
        some (s, rs) ∧
      run (Tally.step 7) (Tally.start 65534)
        [.packet 65538, .report 0 0 0, .packet 65536, .packet 65539, .report 0 0 0] =
        some (q, rs) ∧ Follows 7 q s ∧ ∀ r ∈ rs, RtcpReport.parse r.bytes = some r :=
  source_reports 7 (by decide) (by decide)

/-! ### Every run -/

namespace Source

/-- What holds of the counts, whatever numbers arrive. Off probation a packet has come since
the last report, or nothing is expected. -/
structure Counts (s : Source) : Prop where
  probation_nonneg : 0 ≤ s.probation
  waiting : 0 < s.probation →
    s.received = 0 ∧ s.receivedPrior = 0 ∧ s.baseSeq = 0 ∧ s.cycles = 0
  receivedPrior_le : s.receivedPrior ≤ s.received
  expectedPrior_eq : s.probation = 0 → s.receivedPrior = s.received → s.expectedPrior = s.expected

variable {s : Source}

theorem counts_init (id : UInt32) : (init id 0).Counts where
  probation_nonneg := Int.zero_le_ofNat 2
  waiting := fun _ => ⟨rfl, rfl, rfl, rfl⟩
  receivedPrior_le := le_rfl
  expectedPrior_eq := fun h => absurd h (by rw [show (init id 0).probation = 2 from rfl]; omega)

/-- One more packet of a source that is off probation. -/
theorem Counts.count (h : s.Counts) {t t' : Source} (hcount : t.count = some t')
    (hprobation : t.probation = 0) (hreceived : t.received = s.received)
    (hprior : t.receivedPrior = s.receivedPrior) : t'.Counts := by
  obtain ⟨received, hfits, rfl⟩ := Option.map_eq_some_iff.mp hcount
  obtain ⟨-, rfl⟩ := intOf_eq_some.mp hfits
  have hle := h.receivedPrior_le
  have hlt : t.receivedPrior < t.received + 1 := by omega
  exact ⟨hprobation.ge, fun hpos => absurd hprobation hpos.ne', hlt.le,
    fun _ heq => absurd heq hlt.ne⟩

theorem counts_restart {s t : Source} (hprobation : s.probation = 0) {seq : UInt16}
    (hcount : (s.resetSeq seq).count = some t) : t.Counts := by
  rw [count_resetSeq] at hcount
  obtain rfl := Option.some.inj hcount
  exact ⟨hprobation.ge, fun hpos => absurd hprobation hpos.ne', Int.zero_le_ofNat 1,
    fun _ heq => absurd heq (show (0 : ℤ) ≠ 1 by omega)⟩

theorem Counts.updateProbation (h : s.Counts) (hpos : 0 < s.probation) {seq : UInt16}
    {r : ℤ × Source} (hr : s.updateProbation seq = some r) : r.2.Counts := by
  obtain ⟨hreceived, hprior, hbase, hcycles⟩ := h.waiting hpos
  have hwaits {n : ℤ} (hn : 0 < n) : Counts { s with probation := n, maxSeq := seq } :=
    ⟨hn.le, fun _ => ⟨hreceived, hprior, hbase, hcycles⟩, h.receivedPrior_le,
      fun hoff => absurd hoff hn.ne'⟩
  unfold Source.updateProbation at hr
  dsimp only at hr
  split_ifs at hr with hnext hend
  · obtain ⟨t, ht, rfl⟩ := Option.map_eq_some_iff.mp hr
    exact counts_restart hend ht
  · obtain rfl := Option.some.inj hr
    exact hwaits (by omega)
  · obtain rfl := Option.some.inj hr
    exact hwaits Int.one_pos

theorem Counts.updateSeq (h : s.Counts) {seq : UInt16} {r : ℤ × Source}
    (hr : s.updateSeq seq = some r) : r.2.Counts := by
  have hnonneg := h.probation_nonneg
  unfold Source.updateSeq at hr
  dsimp only at hr
  by_cases hpos : s.probation > 0
  · rw [if_pos hpos] at hr
    exact h.updateProbation hpos hr
  have hoff : s.probation = 0 := by omega
  rw [if_neg hpos] at hr
  split at hr
  · obtain ⟨t, ht, rfl⟩ := Option.map_eq_some_iff.mp hr
    exact h.count ht hoff rfl rfl
  · split at hr
    · split at hr
      · obtain ⟨t, ht, rfl⟩ := Option.map_eq_some_iff.mp hr
        exact counts_restart hoff ht
      · obtain rfl := Option.some.inj hr
        exact { h with }
    · obtain ⟨t, ht, rfl⟩ := Option.map_eq_some_iff.mp hr
      exact h.count ht hoff rfl rfl

/-- What `updateLost` gives where no count overflows. -/
theorem updateLost_eq_some {t : Source} (ht : s.updateLost = some t) :
    ∃ fraction, fractionOf s.lostInterval s.expectedInterval = some fraction ∧ t = { s with
      lost := (s.expected - s.received).bmod (2 ^ 24)
      expectedPrior := s.expected
      receivedPrior := s.received
      fraction } := by
  simp only [updateLost, Option.bind_eq_bind, Option.bind_eq_some_iff, intOf_eq_some,
    Option.pure_def, Option.some.injEq] at ht
  obtain ⟨-, ⟨-, rfl⟩, -, ⟨-, rfl⟩, -, ⟨-, rfl⟩, -, ⟨-, rfl⟩, fraction, hfraction, rfl⟩ := ht
  exact ⟨fraction, hfraction, rfl⟩

theorem Counts.updateLost (h : s.Counts) {t : Source} (ht : s.updateLost = some t) : t.Counts := by
  obtain ⟨fraction, -, rfl⟩ := updateLost_eq_some ht
  exact ⟨h.probation_nonneg, fun hpos => ⟨(h.waiting hpos).1, (h.waiting hpos).1,
    (h.waiting hpos).2.2⟩, le_rfl, fun _ _ => by simp only [expected]⟩

theorem Counts.step (h : s.Counts) {e : SourceEvent} {s' : Source} {o : List RtcpReport}
    (hstep : s.step e = some (s', o)) : s'.Counts := by
  cases e with
  | packet n =>
    rw [Source.step] at hstep
    obtain ⟨r, hr, heq⟩ := Option.map_eq_some_iff.mp hstep
    obtain ⟨rfl, -⟩ := Prod.mk.inj heq
    exact h.updateSeq hr
  | report jitter lsr dlsr =>
    rw [Source.step] at hstep
    obtain ⟨t, ht, heq⟩ := Option.map_eq_some_iff.mp hstep
    obtain ⟨rfl, -⟩ := Prod.mk.inj heq
    exact h.updateLost ht

/-- A source on probation counts from 0 on, and has received nothing. -/
theorem Counts.expected_waiting (h : s.Counts) (hpos : 0 < s.probation) :
    s.expected = s.maxSeq.toNat + 1 := by
  obtain ⟨-, -, hbase, hcycles⟩ := h.waiting hpos
  have hlt := s.maxSeq.toNat_lt
  have hsum : (s.cycles + s.maxSeq.toUInt32 - s.baseSeq + 1).toNat = s.maxSeq.toNat + 1 := by
    rw [hbase, hcycles]
    simp only [UInt32.toNat_add, UInt32.toNat_sub, UInt16.toNat_toUInt32, UInt32.toNat_ofNat]
    omega
  rw [expected, hsum, toInt32_of_lt (by omega)]
  omega

/-- All packets of an interval lost are 256 of 256, which is 0 in the eight bits. -/
theorem fractionOf_self {n : ℤ} {fraction : UInt8} (h : fractionOf n n = some fraction) :
    fraction = 0 := by
  unfold fractionOf at h
  split_ifs at h with hpos
  · exact (Option.some.inj h).symm
  · obtain ⟨shifted, hshifted, rfl⟩ := Option.map_eq_some_iff.mp h
    obtain ⟨-, rfl⟩ := intOf_eq_some.mp hshifted
    rw [Int.mul_tdiv_cancel_left _ (by omega)]
    rfl

theorem Counts.lostInterval_lt (h : s.Counts) (hoff : s.probation = 0) (hpos : 0 < s.lostInterval) :
    s.lostInterval < s.expectedInterval := by
  have hle := h.receivedPrior_le
  have hne : s.receivedPrior ≠ s.received := by
    intro heq
    have hprior := h.expectedPrior_eq hoff heq
    unfold lostInterval expectedInterval receivedInterval at hpos
    omega
  have hlost : s.lostInterval = s.expectedInterval - (s.received - s.receivedPrior) := rfl
  omega

/-- The quotient of an interval of which something is lost, but not all. -/
theorem fractionOf_exact {lost expected : ℤ} {fraction : UInt8}
    (h : fractionOf lost expected = some fraction) (hpos : 0 < lost) (hlt : lost < expected) :
    (fraction.toNat : ℤ) = lost * 256 / expected := by
  have hnonneg : 0 ≤ lost * 256 / expected := Int.ediv_nonneg (by omega) (by omega)
  have hsmall : lost * 256 / expected < 256 := Int.ediv_lt_of_lt_mul (by omega) (by omega)
  rw [fractionOf, if_neg (by omega)] at h
  obtain ⟨shifted, hshifted, rfl⟩ := Option.map_eq_some_iff.mp h
  obtain ⟨-, rfl⟩ := intOf_eq_some.mp hshifted
  rw [Int.tdiv_eq_ediv_of_nonneg (by omega), Int.emod_eq_of_lt hnonneg hsmall, UInt8.toNat_ofNat']
  omega

end Source

/-- In every run in which no `int` overflows, a report before the end of probation says that the
greatest number and one packets are lost, with a fraction of 0. After it, not all packets of an
interval are lost, and the fraction is the exact quotient. -/
theorem source_counts (id : UInt32) {es : List SourceEvent} {s t : Source} {rs : List RtcpReport}
    (hrun : run Source.step (Source.init id 0) es = some (s, rs)) (ht : s.updateLost = some t) :
    (0 < s.probation → t.fraction = 0 ∧ t.lost = s.maxSeq.toNat + 1) ∧
      (s.probation = 0 → 0 < s.lostInterval → s.lostInterval < s.expectedInterval ∧
        (t.fraction.toNat : ℤ) = s.lostInterval * 256 / s.expectedInterval) := by
  have hcounts : s.Counts := run_invariant (fun _ _ _ _ h hstep => h.step hstep)
    (Source.counts_init id) hrun
  obtain ⟨fraction, hfraction, rfl⟩ := Source.updateLost_eq_some ht
  constructor
  · intro hpos
    have hlt := s.maxSeq.toNat_lt
    obtain ⟨hreceived, hprior, -, -⟩ := hcounts.waiting hpos
    have hall : s.lostInterval = s.expectedInterval := by
      rw [Source.lostInterval, Source.receivedInterval, hreceived, hprior]
      omega
    have hlost : s.expected - s.received = s.maxSeq.toNat + 1 := by
      rw [hcounts.expected_waiting hpos, hreceived]
      omega
    rw [hall] at hfraction
    refine ⟨Source.fractionOf_self hfraction, ?_⟩
    rw [hlost, Int.bmod_eq_of_le (by omega) (by omega)]
  · intro hoff hpos
    have hlt := hcounts.lostInterval_lt hoff hpos
    exact ⟨hlt, Source.fractionOf_exact hfraction hpos hlt⟩

/-- A source that has seen one packet is taken to have lost all before it. Behind its probation,
two packets of five are lost. -/
theorem source_counts_two :
    (∃ s t, run Source.step (Source.init 7 0) [.packet 40000] = some (s, []) ∧
      s.updateLost = some t ∧ 0 < s.probation ∧ t.fraction = 0 ∧ t.lost = 40001) ∧
    ∃ s t, run Source.step (Source.init 7 0)
        [.packet 40000, .packet 40001, .packet 40003, .packet 40005] = some (s, []) ∧
      s.updateLost = some t ∧ s.probation = 0 ∧ s.lostInterval = 2 ∧
      (t.fraction.toNat : ℤ) = 2 * 256 / 5 := by
  have hends {l : List SourceEvent} {P : Source → Prop} [DecidablePred P]
      (h : ((run Source.step (Source.init 7 0) l).any fun r =>
        r.2 = [] && r.1.updateLost.isSome && P r.1) = true) :
      ∃ s t, run Source.step (Source.init 7 0) l = some (s, []) ∧ s.updateLost = some t ∧ P s := by
    obtain ⟨⟨s, rs⟩, hrun, hr⟩ := (Option.any_eq_true _ _).mp h
    simp only [Bool.and_eq_true, decide_eq_true_eq, Option.isSome_iff_exists] at hr
    obtain ⟨⟨rfl, t, ht⟩, hP⟩ := hr
    exact ⟨s, t, hrun, ht, hP⟩
  constructor
  · obtain ⟨s, t, hrun, ht, hpos, hmax⟩ := hends (l := [.packet 40000])
      (P := fun s => 0 < s.probation ∧ s.maxSeq = 40000) (by decide +kernel)
    have hcounts := (source_counts 7 hrun ht).1 hpos
    rw [hmax] at hcounts
    exact ⟨s, t, hrun, ht, hpos, hcounts⟩
  · obtain ⟨s, t, hrun, ht, hoff, hlost, hexpected⟩ := hends
      (l := [.packet 40000, .packet 40001, .packet 40003, .packet 40005])
      (P := fun s => s.probation = 0 ∧ s.lostInterval = 2 ∧ s.expectedInterval = 5)
      (by decide +kernel)
    have hcounts := (source_counts 7 hrun ht).2 hoff (by omega)
    rw [hlost, hexpected] at hcounts
    exact ⟨s, t, hrun, ht, hoff, hlost, hcounts.2⟩

end CxxDeps.Rtp
