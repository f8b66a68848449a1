import CxxDeps.Sctp.Message

/-! What `calc_gaps` computes. It looks at a window of TSNs from `begin_tsn` on; the
fragments there form runs. If a begin fragment is among them, the last TSN of the
first run is acknowledged, and the other runs are the gap blocks. -/

namespace CxxDeps.Sctp

/-- The TSNs that `calc_gaps` looks at: it stops at an end fragment. -/
def windowLoop (blocks : Blocks) : ℕ → UInt32 → List UInt32
  | 0, _ => []
  | n + 1, tsn =>
    if blocks[tsn]?.any Block.isEnd then [tsn] else tsn :: windowLoop blocks n (tsn + 1)

def Message.window (msg : Message) : List UInt32 :=
  windowLoop msg.blocks maxChunksPerMessage msg.beginTsn

/-- The parts that are not empty between the TSNs that are missing. -/
def heldRuns (blocks : Blocks) (tsns : List UInt32) : List (List UInt32) :=
  (tsns.splitOnP fun tsn => !blocks.contains tsn).filter (!·.isEmpty)

def Message.heldRuns (msg : Message) : List (List UInt32) := Sctp.heldRuns msg.blocks msg.window

/-- The window has a begin fragment. -/
def Message.begun (msg : Message) : Bool :=
  msg.window.any fun tsn => msg.blocks[tsn]?.any Block.isBegin

/-- The TSN up to which a SACK of the message acknowledges. -/
def Message.ackPoint (msg : Message) : UInt32 :=
  if msg.begun then (msg.heldRuns.head?.bind List.getLast?).getD msg.cumulativeTsn
  else msg.cumulativeTsn

/-- The runs that become gap blocks. -/
def Message.gapRuns (msg : Message) : List (List UInt32) :=
  msg.heldRuns.drop (if msg.begun then 1 else 0)

/-! ### The loop -/

/-- One round of the loop. -/
def GapScan.see (blocks : Blocks) (s : GapScan) (tsn : UInt32) : GapScan :=
  match blocks[tsn]? with
  | none => s.miss
  | some block => s.hit tsn block

theorem gapLoop_eq_foldl (blocks : Blocks) (n : ℕ) (tsn : UInt32) (s : GapScan) :
    gapLoop blocks n tsn s = (windowLoop blocks n tsn).foldl (GapScan.see blocks) s := by
  induction n generalizing tsn s with
  | zero => rfl
  | succ n ih =>
    rw [gapLoop, windowLoop]
    cases hb : blocks[tsn]? with
    | none => simp [ih, GapScan.see, hb]
    | some block => by_cases hend : block.isEnd <;> simp [ih, GapScan.see, hb, hend]

@[simp] theorem GapScan.miss_hasBegin (s : GapScan) : s.miss.hasBegin = s.hasBegin := by
  rw [miss]
  split <;> rfl

@[simp] theorem GapScan.miss_hasFirst (s : GapScan) : s.miss.hasFirst = false := by
  rw [miss]
  split
  · rfl
  · next h => simpa using h

theorem foldl_see_hasBegin (blocks : Blocks) (tsns : List UInt32) (s : GapScan) :
    (tsns.foldl (GapScan.see blocks) s).hasBegin =
      (s.hasBegin || tsns.any fun tsn => blocks[tsn]?.any Block.isBegin) := by
  induction tsns generalizing s with
  | nil => simp
  | cons tsn tsns ih =>
    rw [List.foldl_cons, ih, List.any_cons, ← Bool.or_assoc]
    cases hb : blocks[tsn]? with
    | none => simp [GapScan.see, hb]
    | some block => simp [GapScan.see, GapScan.hit, hb]

theorem heldRuns_cons_of_not_mem {blocks : Blocks} {tsn : UInt32} (h : tsn ∉ blocks)
    (tsns : List UInt32) : heldRuns blocks (tsn :: tsns) = heldRuns blocks tsns := by
  have h' : blocks.contains tsn = false := by
    rwa [← Bool.not_eq_true, Std.ExtTreeMap.contains_iff_mem]
  simp [heldRuns, List.splitOnP_cons_eq_if_modifyHead, h']

/-- A TSN that is there begins a run, with those that follow it. -/
theorem heldRuns_cons_of_mem {blocks : Blocks} {tsn : UInt32} (h : tsn ∈ blocks)
    (tsns : List UInt32) :
    heldRuns blocks (tsn :: tsns) = (tsn :: tsns.takeWhile blocks.contains) ::
      heldRuns blocks (tsns.dropWhile blocks.contains) := by
  have hrun : ∀ t ∈ tsn :: tsns.takeWhile blocks.contains, (!blocks.contains t) = false := by
    intro t ht
    rcases List.mem_cons.mp ht with rfl | ht
    · simpa using h
    · simpa using List.all_eq_true.mp List.all_takeWhile t ht
  have hsplit : tsn :: tsns = (tsn :: tsns.takeWhile blocks.contains) ++
      tsns.dropWhile blocks.contains := by
    rw [List.cons_append, List.takeWhile_append_dropWhile]
  rw [hsplit, heldRuns, heldRuns]
  cases hd : tsns.dropWhile blocks.contains with
  | nil => simp [List.splitOnP_eq_singleton hrun]
  | cons t rest =>
    have ht : (!blocks.contains t) = true := by
      have := List.head?_dropWhile_not blocks.contains tsns
      simpa [hd] using this
    rw [List.splitOnP_append_cons_of_forall_mem hrun t ht, List.splitOnP_cons_eq_if_modifyHead,
      if_pos ht]
    simp

/-- The first and the last TSN of a run. -/
def ends (tsns : List UInt32) : GapItem := ⟨tsns.headD 0, tsns.getLastD 0⟩

/-- The loop closes the open run and adds the runs after it. -/
theorem foldl_see_miss (blocks : Blocks) (tsns : List UInt32) (s : GapScan) :
    (tsns.foldl (GapScan.see blocks) s).miss.tmp = s.tmp ++
      if s.hasFirst then
        ⟨s.item.first, (tsns.takeWhile blocks.contains).getLastD s.item.last⟩ ::
          (heldRuns blocks (tsns.dropWhile blocks.contains)).map ends
      else (heldRuns blocks tsns).map ends := by
  induction tsns generalizing s with
  | nil => cases hs : s.hasFirst <;> simp [GapScan.miss, hs, heldRuns]
  | cons tsn tsns ih =>
    rw [List.foldl_cons, ih]
    cases hb : blocks[tsn]? with
    | none =>
      have hmem : tsn ∉ blocks := by
        rw [← Std.ExtTreeMap.isSome_getElem?_iff_mem, hb]
        exact nofun
      have hruns := heldRuns_cons_of_not_mem hmem tsns
      cases hs : s.hasFirst <;> simp [GapScan.see, GapScan.miss, hs, hmem, hruns]
    | some block =>
      have hmem : tsn ∈ blocks := Std.ExtTreeMap.isSome_getElem?_iff_mem.mp (by simp [hb])
      have hruns := heldRuns_cons_of_mem hmem tsns
      cases hs : s.hasFirst <;>
        simp [GapScan.see, GapScan.hit, hs, hmem, hruns, ends, List.getLast?_cons]

/-! ### The result -/

theorem Message.runs_eq (msg : Message) : msg.runs = (msg.heldRuns.map ends, msg.begun) := by
  rw [runs, gapLoop_eq_foldl]
  refine Prod.ext ?_ ?_
  · exact foldl_see_miss msg.blocks msg.window {}
  · exact (foldl_see_hasBegin msg.blocks msg.window {}).trans (Bool.false_or _)

theorem Message.heldRuns_of_isEmpty {msg : Message} (h : msg.blocks.isEmpty) :
    msg.heldRuns = [] := by
  have hnone : ∀ tsns, Sctp.heldRuns msg.blocks tsns = [] := by
    intro tsns
    induction tsns with
    | nil => rfl
    | cons tsn tsns ih =>
      rw [heldRuns_cons_of_not_mem, ih]
      rw [Std.ExtTreeMap.isEmpty_iff.mp h]
      simp
  exact hnone _

/-- What `calc_gaps` changes. -/
theorem Message.calcGaps_eq (msg : Message) :
    msg.calcGaps =
      { msg with
        cumulativeTsn := msg.ackPoint
        gaps := msg.gapRuns.map fun run =>
          ⟨(ends run).first - msg.ackPoint, (ends run).last - msg.ackPoint⟩ } := by
  rw [calcGaps]
  split
  · next h => simp [ackPoint, gapRuns, heldRuns_of_isEmpty h]
  · rw [runs_eq]
    cases hb : msg.begun with
    | false => simp [ackPoint, gapRuns, hb, Function.comp_def]
    | true =>
      cases hr : msg.heldRuns with
      | nil => simp [ackPoint, gapRuns, hb, hr]
      | cons run rest =>
        have hne : run ≠ [] := by
          have hmem : run ∈ msg.heldRuns := by simp [hr]
          simpa using (List.mem_filter.mp hmem).2
        simp [ackPoint, gapRuns, hb, hr, ends, List.getLast?_eq_some_getLast hne, Function.comp_def]

theorem windowLoop_length_le (blocks : Blocks) (n : ℕ) (tsn : UInt32) :
    (windowLoop blocks n tsn).length ≤ n := by
  induction n generalizing tsn with
  | zero => exact le_rfl
  | succ n ih =>
    rw [windowLoop]
    split
    · simp
    · exact Nat.succ_le_succ (ih _)

theorem heldRuns_length_le (blocks : Blocks) (tsns : List UInt32) :
    (heldRuns blocks tsns).length ≤ tsns.length := by
  induction h : tsns.length using Nat.strong_induction_on generalizing tsns with
  | _ n ih =>
    cases tsns with
    | nil => simp [heldRuns]
    | cons tsn tsns =>
      rw [List.length_cons] at h
      by_cases hmem : tsn ∈ blocks
      · have hle : (tsns.dropWhile blocks.contains).length ≤ tsns.length :=
          (List.dropWhile_suffix _).length_le
        have := ih (tsns.dropWhile blocks.contains).length (by omega) _ rfl
        rw [heldRuns_cons_of_mem hmem, List.length_cons]
        omega
      · have := ih tsns.length (by omega) tsns rfl
        rw [heldRuns_cons_of_not_mem hmem]
        omega

/-- The gap blocks fit into the SACK. -/
theorem Message.gapRuns_length_le (msg : Message) : msg.gapRuns.length ≤ maxChunksPerMessage := by
  have hheld := heldRuns_length_le msg.blocks msg.window
  have hwindow := windowLoop_length_le msg.blocks maxChunksPerMessage msg.beginTsn
  rw [gapRuns, List.length_drop]
  exact (Nat.sub_le _ _).trans (hheld.trans hwindow)

end CxxDeps.Sctp
