import CxxDeps.Sctp.Acknowledgement
import CxxDeps.Sctp.Reassembly

/-! What the SACK of one message takes out of the sender. `process_sack` takes out the 256
TSNs up to the cumulative one and the two ends of every gap block, so the inside of a
gap block stays, and without the first fragment the cumulative TSN says nothing about
the message. -/

namespace CxxDeps.Sctp

open Library

/-! ### The ends of the runs -/

/-- The TSNs at the ends of the runs. -/
def runEnds (runs : List (List UInt32)) : List UInt32 :=
  runs.flatMap fun run => [(ends run).first, (ends run).last]

theorem mem_of_mem_run {blocks : Blocks} {x : UInt32} (hx : x ∈ blocks) {xs : List UInt32} :
    ∀ z ∈ x :: xs.takeWhile blocks.contains, z ∈ blocks := by
  intro z hz
  rcases List.mem_cons.mp hz with rfl | hz
  · exact hx
  · have := List.all_eq_true.mp List.all_takeWhile z hz
    simpa using this

theorem not_mem_after_run {blocks : Blocks} (xs : List UInt32) :
    ∀ z ∈ (xs.dropWhile blocks.contains).head?, z ∉ blocks := by
  intro z hz hmem
  have := List.head?_dropWhile_not blocks.contains xs
  rw [Option.mem_def.mp hz] at this
  simp [Std.ExtTreeMap.contains_iff_mem.mpr hmem] at this

theorem getLastD_mem_blocks {blocks : Blocks} {x : UInt32} {tw : List UInt32}
    (hall : ∀ z ∈ x :: tw, z ∈ blocks) : (x :: tw).getLastD 0 ∈ blocks := by
  rw [List.getLastD_eq_getLast?, List.getLast?_eq_some_getLast (List.cons_ne_nil x tw)]
  exact hall _ (List.getLast_mem _)

/-- The ends of the runs are the TSNs that are there and have a neighbour that is not. -/
theorem mem_runEnds {blocks : Blocks} {t : UInt32} (xs : List UInt32) :
    t ∈ runEnds (heldRuns blocks xs) ↔ ∃ l r, xs = l ++ t :: r ∧ t ∈ blocks ∧
      ((∀ z ∈ l.getLast?, z ∉ blocks) ∨ ∀ z ∈ r.head?, z ∉ blocks) := by
  induction h : xs.length using Nat.strong_induction_on generalizing xs with
  | _ n ih =>
    cases xs with
    | nil => simp [runEnds, heldRuns]
    | cons x xs =>
      rw [List.length_cons] at h
      by_cases hx : x ∈ blocks
      · set tw := xs.takeWhile blocks.contains with htw
        set dw := xs.dropWhile blocks.contains with hdw
        have hsplit : x :: xs = (x :: tw) ++ dw := by
          rw [List.cons_append, htw, hdw, List.takeWhile_append_dropWhile]
        have hrun : ∀ z ∈ x :: tw, z ∈ blocks := mem_of_mem_run hx
        have hdrop : ∀ z ∈ dw.head?, z ∉ blocks := not_mem_after_run xs
        have hlen : dw.length ≤ xs.length := (List.dropWhile_suffix _).length_le
        have hih := ih dw.length (by omega) dw rfl
        rw [heldRuns_cons_of_mem hx, ← htw, ← hdw, runEnds, List.flatMap_cons, List.mem_append,
          ← runEnds, hih, hsplit]
        constructor
        · rintro (hends | ⟨l, r, heq, ht, hor⟩)
          · rcases List.mem_pair.mp hends with rfl | rfl
            · exact ⟨[], tw ++ dw, rfl, hx, .inl (by simp)⟩
            · refine ⟨(x :: tw).dropLast, dw, ?_, getLastD_mem_blocks hrun, .inr hdrop⟩
              have hlast := List.dropLast_append_getLast (List.cons_ne_nil x tw)
              have hD : (ends (x :: tw)).last = (x :: tw).getLast (List.cons_ne_nil x tw) := by
                rw [ends, List.getLastD_eq_getLast?,
                  List.getLast?_eq_some_getLast (List.cons_ne_nil x tw)]
                rfl
              rw [hD, List.append_cons, hlast]
          · refine ⟨(x :: tw) ++ l, r, by rw [heq, List.append_assoc], ht, hor.imp ?_ id⟩
            intro hl z hz
            cases l with
            | nil => exact absurd ht (hdrop t (by rw [heq]; rfl))
            | cons y l =>
              rw [List.getLast?_append_of_ne_nil _ (List.cons_ne_nil y l)] at hz
              exact hl z hz
        · rintro ⟨l, r, heq, ht, hor⟩
          rcases List.append_eq_append_iff.mp heq with ⟨a', hl, hd⟩ | ⟨c', hrun', hr⟩
          · refine .inr ⟨a', r, hd, ht, hor.imp (fun hlast z hz => hlast z ?_) id⟩
            cases a' with
            | nil => simp at hz
            | cons y a' => rwa [hl, List.getLast?_append_of_ne_nil _ (List.cons_ne_nil y a')]
          · left
            cases c' with
            | nil => exact absurd ht (hdrop t (by rw [← List.nil_append dw, ← hr]; rfl))
            | cons c c' =>
              obtain ⟨rfl, rfl⟩ := List.cons.inj hr
              rcases hor with hfirst | hlast
              · cases l with
                | nil =>
                  obtain ⟨rfl, -⟩ := List.cons.inj hrun'
                  exact List.mem_pair.mpr (.inl rfl)
                | cons y l =>
                  have hne := List.cons_ne_nil y l
                  refine absurd (hrun _ ?_) (hfirst _ (List.getLast?_eq_some_getLast hne))
                  rw [hrun']
                  exact List.mem_append_left _ (List.getLast_mem hne)
              · cases c' with
                | nil =>
                  refine List.mem_pair.mpr (.inr ?_)
                  rw [hrun', ends, List.getLastD_eq_getLast?, List.getLast?_concat]
                  rfl
                | cons w c' =>
                  refine absurd (hrun w ?_) (hlast w rfl)
                  rw [hrun']
                  simp
      · have hih := ih xs.length (by omega) xs rfl
        rw [heldRuns_cons_of_not_mem hx, hih]
        constructor
        · rintro ⟨l, r, rfl, ht, hor⟩
          refine ⟨x :: l, r, rfl, ht, hor.imp (fun hl z hz => ?_) id⟩
          cases l with
          | nil =>
            obtain rfl : x = z := by simpa using hz
            exact hx
          | cons y l =>
            rw [List.getLast?_cons_cons] at hz
            exact hl z hz
        · rintro ⟨l, r, heq, ht, hor⟩
          cases l with
          | nil =>
            obtain ⟨rfl, -⟩ := List.cons.inj heq
            exact absurd ht hx
          | cons y l =>
            obtain ⟨rfl, rfl⟩ := List.cons.inj heq
            refine ⟨l, r, rfl, ht, hor.imp (fun hl z hz => hl z ?_) id⟩
            cases l with
            | nil => simp at hz
            | cons w l => rwa [List.getLast?_cons_cons]

/-- The same by position. -/
theorem mem_runEnds_iff {blocks : Blocks} {t : UInt32} (xs : List UInt32) :
    t ∈ runEnds (heldRuns blocks xs) ↔ ∃ i : ℕ, xs[i]? = some t ∧ t ∈ blocks ∧
      (i = 0 ∨ (∀ z ∈ xs[i - 1]?, z ∉ blocks) ∨ ∀ z ∈ xs[i + 1]?, z ∉ blocks) := by
  rw [mem_runEnds]
  constructor
  · rintro ⟨l, r, rfl, ht, hor⟩
    have hnext : (l ++ t :: r)[l.length + 1]? = r.head? := by
      rw [List.getElem?_append_right (by omega), Nat.add_sub_cancel_left, List.getElem?_cons_succ,
        List.head?_eq_getElem?]
    refine ⟨l.length, by simp, ht, ?_⟩
    rw [hnext]
    rcases hor with hfirst | hlast
    · rcases Nat.eq_zero_or_pos l.length with h0 | hpos
      · exact .inl h0
      · right
        left
        rw [List.getElem?_append_left (by omega), ← List.getLast?_eq_getElem?]
        exact hfirst
    · exact .inr (.inr hlast)
  · rintro ⟨i, hi, ht, hor⟩
    obtain ⟨hlt, rfl⟩ := List.getElem?_eq_some_iff.mp hi
    refine ⟨xs.take i, xs.drop (i + 1), ?_, ht, ?_⟩
    · rw [← List.drop_eq_getElem_cons hlt, List.take_append_drop]
    · rw [List.head?_drop]
      rcases hor with rfl | hprev | hnext
      · exact .inl (by simp)
      · left
        rw [List.getLast?_take]
        split
        · simp
        · rw [List.getElem?_eq_getElem (by omega), Option.some_or,
            ← List.getElem?_eq_getElem (by omega)]
          exact hprev
      · exact .inr hnext

/-! ### The window -/

/-- The window is a row of TSNs, which ends on an end fragment or after `n`. -/
theorem windowLoop_eq (blocks : Blocks) (n : ℕ) (tsn : UInt32) :
    ∃ m ≤ n, windowLoop blocks n tsn = (List.range m).map (fun i => tsn + UInt32.ofNat i) ∧
      (m = n ∨ ∃ j, m = j + 1 ∧ blocks[tsn + UInt32.ofNat j]?.any Block.isEnd = true) := by
  induction n generalizing tsn with
  | zero => exact ⟨0, le_rfl, rfl, .inl rfl⟩
  | succ n ih =>
    have hzero : tsn + UInt32.ofNat 0 = tsn := by simp
    have hshift (i : ℕ) : tsn + 1 + UInt32.ofNat i = tsn + UInt32.ofNat (i + 1) := by
      rw [UInt32.ofNat_add, UInt32.add_assoc, UInt32.add_comm 1]
      rfl
    rw [windowLoop]
    split_ifs with hend
    · exact ⟨1, by omega, by simp, .inr ⟨0, rfl, by rwa [hzero]⟩⟩
    · obtain ⟨m, hm, heq, hor⟩ := ih (tsn + 1)
      refine ⟨m + 1, by omega, ?_, hor.imp (by omega) ?_⟩
      · rw [heq, List.range_succ_eq_map, List.map_cons, List.map_map, hzero]
        simp only [Function.comp_def, hshift]
      · rintro ⟨j, rfl, hj⟩
        exact ⟨j + 1, rfl, by rwa [← hshift]⟩

section

variable {p : Posted} {msg : Message} (h : Holds p msg)
  (hn : (payloads p.data).length ≤ maxChunksPerMessage)
include h hn

omit hn in
/-- A TSN that the message holds is that of a fragment. -/
theorem Holds.index {t : UInt32} (ht : t ∈ msg.blocks) :
    ∃ i < (payloads p.data).length, t = p.tsn + UInt32.ofNat i := by
  obtain ⟨i, part, hpart, rfl, -⟩ :=
    h.pieces t _ (Std.ExtTreeMap.getElem?_eq_some_getElem ht)
  exact ⟨i, (List.getElem?_eq_some_iff.mp hpart).1, rfl⟩

omit hn in
/-- Nothing is held behind the last fragment. -/
theorem Holds.past {j : ℕ} (hj : (payloads p.data).length ≤ j) (hj' : j ≤ 2 * maxChunksPerMessage) :
    p.tsn + UInt32.ofNat j ∉ msg.blocks := by
  intro hmem
  obtain ⟨k, hk, heq⟩ := h.index hmem
  simp only [maxChunksPerMessage] at hj'
  have := tsn_injective (n := 2 ^ 32) le_rfl (by omega) (by omega) heq
  omega

/-- The end fragment is the last one. -/
theorem Holds.after_end {t : UInt32} (hend : msg.blocks[t]?.any Block.isEnd = true) (d : ℕ)
    (hd : 0 < d) (hd' : d ≤ maxChunksPerMessage) : t + UInt32.ofNat d ∉ msg.blocks := by
  obtain ⟨block, hb, hblock⟩ := (Option.any_eq_true _ _).mp hend
  obtain ⟨i, part, hpart, rfl, -, hlast, -⟩ := h.pieces t block hb
  rw [hblock, eq_comm, beq_iff_eq] at hlast
  rw [UInt32.add_assoc, ← UInt32.ofNat_add]
  exact h.past (by omega) (by omega)

omit h hn in
theorem tsn_pred (a : UInt32) {i : ℕ} (hi : i ≠ 0) :
    a + UInt32.ofNat (i - 1) = a + UInt32.ofNat i - 1 := by
  obtain ⟨j, rfl⟩ := Nat.exists_eq_succ_of_ne_zero hi
  rw [Nat.succ_sub_one, Nat.succ_eq_add_one, ← ofNat_succ_tsn]
  grind

omit h hn in
/-- The window, and why it ends where it does: 256 TSNs, or the end fragment. -/
theorem Message.exists_window (msg : Message) : ∃ m ≤ maxChunksPerMessage,
    (∀ i : ℕ, msg.window[i]? = if i < m then some (msg.beginTsn + UInt32.ofNat i) else none) ∧
    (m = maxChunksPerMessage ∨ ∃ j, m = j + 1 ∧
      msg.blocks[msg.beginTsn + UInt32.ofNat j]?.any Block.isEnd = true) := by
  obtain ⟨m, hm, hwindow, hend⟩ := windowLoop_eq msg.blocks maxChunksPerMessage msg.beginTsn
  refine ⟨m, hm, fun i => ?_, hend⟩
  rw [Message.window, hwindow, List.getElem?_map]
  split_ifs with hi
  · rw [List.getElem?_range hi, Option.map_some]
  · rw [List.getElem?_eq_none (by simpa using hi), Option.map_none]

/-- No TSN of the message is behind its window. -/
theorem Holds.lt_window {m i : ℕ} (hi : i < maxChunksPerMessage)
    (hend : m = maxChunksPerMessage ∨ ∃ j, m = j + 1 ∧
      msg.blocks[msg.beginTsn + UInt32.ofNat j]?.any Block.isEnd = true)
    (ht : msg.beginTsn + UInt32.ofNat i ∈ msg.blocks) : i < m := by
  by_contra hge
  rcases hend with rfl | ⟨j, rfl, hj⟩
  · exact hge hi
  · have hafter := h.after_end hn hj (i - j) (by omega) (by omega)
    rw [UInt32.add_assoc, ← UInt32.ofNat_add, Nat.add_sub_cancel' (by omega)] at hafter
    exact hafter ht

/-- The ends of the runs of a message. -/
theorem Holds.mem_runEnds {t : UInt32} :
    t ∈ runEnds msg.heldRuns ↔ t ∈ msg.blocks ∧ ∃ i < maxChunksPerMessage,
      t = msg.beginTsn + UInt32.ofNat i ∧
        (i = 0 ∨ i = 255 ∨ t - 1 ∉ msg.blocks ∨ t + 1 ∉ msg.blocks) := by
  obtain ⟨m, hm, hget, hend⟩ := msg.exists_window
  have hnext (i : ℕ) : msg.beginTsn + UInt32.ofNat (i + 1) = msg.beginTsn + UInt32.ofNat i + 1 :=
    (ofNat_succ_tsn _ i).symm
  rw [Message.heldRuns, Sctp.mem_runEnds_iff]
  constructor
  · rintro ⟨i, hi, ht, hor⟩
    rw [hget] at hi
    split_ifs at hi with hlt
    obtain rfl := Option.some.inj hi
    refine ⟨ht, i, by omega, rfl, ?_⟩
    rcases hor with h0 | hleft | hright
    · exact .inl h0
    · rcases Nat.eq_zero_or_pos i with h0 | hpos
      · exact .inl h0
      · rw [hget, if_pos (by omega), tsn_pred _ (by omega)] at hleft
        exact .inr (.inr (.inl (hleft _ rfl)))
    · by_cases hlast : i + 1 < m
      · rw [hget, if_pos hlast, hnext] at hright
        exact .inr (.inr (.inr (hright _ rfl)))
      · -- the window ends here
        rcases hend with rfl | ⟨j, rfl, hj⟩
        · simp only [maxChunksPerMessage] at hlt hlast
          exact .inr (.inl (by omega))
        · obtain rfl : j = i := by omega
          exact .inr (.inr (.inr (h.after_end hn hj 1 Nat.one_pos (by decide))))
  · rintro ⟨ht, i, hi, rfl, hor⟩
    have hlt : i < m := h.lt_window hn hi hend ht
    refine ⟨i, by rw [hget, if_pos hlt], ht, ?_⟩
    rcases Nat.eq_zero_or_pos i with h0 | hpos
    · exact .inl h0
    · right
      rcases hor with h0 | h255 | hleft | hright
      · omega
      · right
        have hout : ¬ i + 1 < m := by
          simp only [maxChunksPerMessage] at hm
          omega
        rw [hget, if_neg hout]
        exact fun z hz => by cases hz
      · left
        rw [hget, if_pos (by omega), tsn_pred _ (by omega)]
        intro z hz
        rwa [← Option.some.inj hz]
      · right
        rw [hget]
        split_ifs
        · rw [hnext]
          intro z hz
          rwa [← Option.some.inj hz]
        · exact fun z hz => by cases hz

/-! ### What the SACK takes out -/

omit h hn in
theorem mem_tsns {sack : SackChunk} {t : UInt32} :
    t ∈ sack.tsns ↔ Covers sack.tsn t ∨
      ∃ gap ∈ sack.gaps, t = gap.first + sack.tsn ∨ t = gap.last + sack.tsn := by
  have hgap : (t ∈ sack.gaps.flatMap fun gap => [gap.first + sack.tsn, gap.last + sack.tsn]) ↔
      ∃ gap ∈ sack.gaps, t = gap.first + sack.tsn ∨ t = gap.last + sack.tsn := by
    simp only [List.mem_flatMap, List.mem_pair]
  rw [SackChunk.tsns, List.mem_append, hgap]
  refine or_congr_left ?_
  constructor
  · intro hmem
    let plain : SackChunk := { sack with gaps := [] }
    have hplain : t ∈ plain.tsns := by
      rw [SackChunk.tsns]
      exact List.mem_append_left _ hmem
    have hgaps : plain.gaps = [] := rfl
    have hcovers : Covers plain.tsn t := covers_of_mem_tsns hgaps hplain
    exact hcovers
  · intro hcovers
    rw [Covers] at hcovers
    rw [List.mem_append, List.mem_map, List.mem_singleton]
    rcases Nat.eq_zero_or_pos (sack.tsn - t).toNat with h0 | hpos
    · right
      have := UInt32.toNat_inj.mp (h0.trans UInt32.toNat_zero.symm)
      grind
    · refine .inl ⟨maxChunksPerMessage - (sack.tsn - t).toNat,
        List.mem_range.mpr (by simp only [maxChunksPerMessage]; omega), ?_⟩
      rw [UInt32.ofNat_sub hcovers, UInt32.ofNat_toNat]
      grind

/-- A SACK whose gap offsets went through 16 bits. -/
def SackChunk.carried (sack : SackChunk) : SackChunk :=
  { sack with gaps := sack.gaps.map fun gap =>
      ⟨gap.first.toUInt16.toUInt32, gap.last.toUInt16.toUInt32⟩ }

omit h hn in
theorem carried_offset {t point : UInt32} (ht : (t - point).toNat < 2 ^ 16) :
    (t - point).toUInt16.toUInt32 + point = t := by
  have hsame : (t - point).toUInt16.toUInt32 = t - point := by
    apply UInt32.toNat_inj.mp
    rw [UInt16.toNat_toUInt32, UInt32.toNat_toUInt16]
    exact Nat.mod_eq_of_lt ht
  rw [hsame]
  grind

omit h hn in
/-- The ends of the gap blocks come through. -/
theorem mem_tsns_sackOf {t : UInt32}
    (hfar : ∀ e ∈ runEnds msg.gapRuns, (e - msg.ackPoint).toNat < 2 ^ 16) :
    t ∈ (sackOf msg).carried.tsns ↔ Covers msg.ackPoint t ∨ t ∈ runEnds msg.gapRuns := by
  rw [mem_tsns]
  have htsn : (sackOf msg).carried.tsn = msg.ackPoint := by
    simp only [SackChunk.carried, sackOf, Message.calcGaps_eq]
  have hgaps : (sackOf msg).carried.gaps = msg.gapRuns.map fun run =>
      ⟨((ends run).first - msg.ackPoint).toUInt16.toUInt32,
        ((ends run).last - msg.ackPoint).toUInt16.toUInt32⟩ := by
    simp only [SackChunk.carried, sackOf, Message.calcGaps_eq, List.map_map, Function.comp_def]
  rw [htsn, hgaps, runEnds]
  refine or_congr_right ?_
  simp only [List.mem_map, List.mem_flatMap, List.mem_pair]
  constructor
  · rintro ⟨_, ⟨run, hrun, rfl⟩, heq⟩
    have hmem (e : UInt32) (he : e ∈ [(ends run).first, (ends run).last]) :
        e ∈ runEnds msg.gapRuns := List.mem_flatMap.mpr ⟨run, hrun, he⟩
    rw [carried_offset (hfar _ (hmem _ (by simp))), carried_offset (hfar _ (hmem _ (by simp)))]
      at heq
    exact ⟨run, hrun, heq⟩
  · rintro ⟨run, hrun, heq⟩
    have hmem (e : UInt32) (he : e ∈ [(ends run).first, (ends run).last]) :
        e ∈ runEnds msg.gapRuns := List.mem_flatMap.mpr ⟨run, hrun, he⟩
    refine ⟨_, ⟨run, hrun, rfl⟩, ?_⟩
    rwa [carried_offset (hfar _ (hmem _ (by simp))), carried_offset (hfar _ (hmem _ (by simp)))]

/-- With the first fragment there, the scan begins at it, and the cumulative TSN is the
last one of the first run. -/
theorem Holds.first_run (hfirst : p.tsn ∈ msg.blocks) :
    ∃ a < maxChunksPerMessage, msg.ackPoint = p.tsn + UInt32.ofNat a ∧
      (∀ j ≤ a, p.tsn + UInt32.ofNat j ∈ msg.blocks) ∧
      p.tsn + UInt32.ofNat (a + 1) ∉ msg.blocks ∧ msg.beginTsn = p.tsn ∧
      (∀ t, t ∈ runEnds msg.heldRuns ↔
        (t = p.tsn ∨ t = msg.ackPoint) ∨ t ∈ runEnds msg.gapRuns) ∧
      ∀ e ∈ runEnds msg.gapRuns, ∃ i, a < i ∧ i < maxChunksPerMessage ∧
        e = p.tsn + UInt32.ofNat i := by
  obtain ⟨block, hb⟩ : ∃ block, msg.blocks[p.tsn + UInt32.ofNat 0]? = some block := by
    have hzero : p.tsn + UInt32.ofNat 0 = p.tsn := by simp
    rw [hzero]
    exact ⟨_, Std.ExtTreeMap.getElem?_eq_some_getElem hfirst⟩
  have hbegin : block.isBegin = true := by
    have hn' : (payloads p.data).length ≤ 2 ^ 32 := by
      simp only [maxChunksPerMessage] at hn
      omega
    rw [(h.block hn' (payloads_length_pos p.data) hb).1]
    rfl
  have hzero : p.tsn + UInt32.ofNat 0 = p.tsn := by simp
  have hbeginTsn : msg.beginTsn = p.tsn := by
    rw [h.begins _ block hb hbegin, hzero]
  rw [hzero] at hb
  obtain ⟨m, hm, hget, hend⟩ := msg.exists_window
  simp only [hbeginTsn] at hget
  have hmpos : 0 < m := by
    rcases hend with rfl | ⟨j, rfl, -⟩
    · decide
    · omega
  obtain ⟨rest, hrest⟩ : ∃ rest, msg.window = p.tsn :: rest := by
    have h0 := hget 0
    rw [if_pos hmpos, hzero] at h0
    cases hw : msg.window with
    | nil => simp [hw] at h0
    | cons x rest =>
      rw [hw, List.getElem?_cons_zero] at h0
      exact ⟨rest, by rw [Option.some.inj h0]⟩
  set tw := rest.takeWhile msg.blocks.contains with htw
  set dw := rest.dropWhile msg.blocks.contains with hdw
  have hsplit : msg.window = (p.tsn :: tw) ++ dw := by
    rw [hrest, List.cons_append, htw, hdw, List.takeWhile_append_dropWhile]
  have hruns : msg.heldRuns = (p.tsn :: tw) :: heldRuns msg.blocks dw := by
    rw [Message.heldRuns, hrest, heldRuns_cons_of_mem hfirst]
  have hall : ∀ z ∈ p.tsn :: tw, z ∈ msg.blocks := mem_of_mem_run hfirst
  have hrun (j : ℕ) (hj : j ≤ tw.length) :
      (p.tsn :: tw)[j]? = some (p.tsn + UInt32.ofNat j) ∧ j < m := by
    have hlt : j < (p.tsn :: tw).length := by rw [List.length_cons]; omega
    have hj' := hget j
    rw [hsplit, List.getElem?_append_left hlt, List.getElem?_eq_getElem hlt] at hj'
    split_ifs at hj' with hjm
    exact ⟨by rw [List.getElem?_eq_getElem hlt]; exact hj', hjm⟩
  have hlast : (ends (p.tsn :: tw)).last = p.tsn + UInt32.ofNat tw.length := by
    have := (hrun tw.length le_rfl).1
    rw [ends, List.getLastD_eq_getLast?, List.getLast?_eq_getElem?, List.length_cons,
      Nat.add_sub_cancel, this]
    rfl
  have hbegun : msg.begun = true := by
    rw [Message.begun, hrest, List.any_cons, hb, Option.any_some, hbegin, Bool.true_or]
  have hpoint : msg.ackPoint = p.tsn + UInt32.ofNat tw.length := by
    have := (hrun tw.length le_rfl).1
    rw [Message.ackPoint, if_pos hbegun, hruns, List.head?_cons, Option.bind_some,
      List.getLast?_eq_getElem?, List.length_cons, Nat.add_sub_cancel, this]
    rfl
  have hgap : msg.gapRuns = heldRuns msg.blocks dw := by
    rw [Message.gapRuns, if_pos hbegun, hruns]
    rfl
  refine ⟨tw.length, by have := (hrun tw.length le_rfl).2; omega, hpoint, fun j hj => ?_, ?_,
    hbeginTsn, fun t => ?_, fun e he => ?_⟩
  · exact hall _ (List.mem_of_getElem? (hrun j hj).1)
  · have hlt := (hrun tw.length le_rfl).2
    by_cases hnext : tw.length + 1 < m
    · have hhead := hget (tw.length + 1)
      rw [if_pos hnext, hsplit, List.getElem?_append_right (by simp), List.length_cons,
        Nat.sub_self, ← List.head?_eq_getElem?] at hhead
      exact not_mem_after_run rest _ hhead
    · rcases hend with rfl | ⟨j, rfl, hj⟩
      · exact h.past (by omega) (by omega)
      · obtain rfl : j = tw.length := by omega
        rw [← ofNat_succ_tsn, ← hbeginTsn]
        exact h.after_end hn hj 1 Nat.one_pos (by decide)
  · rw [hruns, runEnds, List.flatMap_cons, List.mem_append, ← runEnds, hgap, List.mem_pair, hlast,
      hpoint]
    rfl
  · rw [hgap, Sctp.mem_runEnds] at he
    obtain ⟨l, r, heq, -⟩ := he
    have hpos := hget (tw.length + 1 + l.length)
    rw [hsplit, heq, List.getElem?_append_right (by rw [List.length_cons]; omega),
      List.length_cons, Nat.add_sub_cancel_left, List.getElem?_append_right le_rfl, Nat.sub_self,
      List.getElem?_cons_zero] at hpos
    split_ifs at hpos with hlt
    exact ⟨tw.length + 1 + l.length, by omega, by omega, Option.some.inj hpos⟩

end

/-! ### A message that some fragments have reached -/

def Message.arrive (msg : Message) (a : ℤ × Fragment) : Message := (msg.insert a.1 a.2.1 a.2.2).1

/-- The message number `k` of a stream after some arrivals. -/
def received (sid : UInt16) (k : ℕ) (initTsn : UInt32) (arrivals : List (ℤ × Fragment)) : Message :=
  arrivals.foldl Message.arrive
    { Message.new initTsn with streamId := sid, ssn := UInt16.ofNat k }

/-- A fragment with the TSN has arrived. -/
def Arrived (arrivals : List (ℤ × Fragment)) (t : UInt32) : Prop := ∃ a ∈ arrivals, a.2.2.tsn = t

/-- The fragments that have arrived, before the first one is there. -/
structure Assembled (p : Posted) (sid : UInt16) (k : ℕ) (initTsn : UInt32) (msg : Message) :
    Prop where
  holds : Holds p msg
  streamId : msg.streamId = sid
  ssn : msg.ssn = UInt16.ofNat k
  cumulative : msg.cumulativeTsn = initTsn - 1
  start : p.tsn ∉ msg.blocks → msg.beginTsn = initTsn - 1

section

variable {p : Posted} {sid : UInt16} {k : ℕ}

theorem Assembled.arrive {initTsn : UInt32} {msg : Message}
    (h : Assembled p sid k initTsn msg) {a : ℤ × Fragment}
    (ha : a.2 ∈ p.chunks sid k) : Assembled p sid k initTsn (msg.arrive a) ∧
      ∀ t, t ∈ (msg.arrive a).blocks ↔ t ∈ msg.blocks ∨ a.2.2.tsn = t := by
  obtain ⟨i, part, hpart, hchunk, hbegin, -⟩ := mem_chunks ha
  have hput : msg.arrive a = msg.put a.1 a.2.1 a.2.2 := by
    have hid : a.2.2.streamId = msg.streamId := by rw [hchunk, h.streamId]
    have hssn : a.2.2.streamSequence = msg.ssn := by rw [hchunk, h.ssn]
    rw [Message.arrive, Message.insert, if_neg (not_not.mpr hid), if_neg (not_not.mpr hssn)]
  have hmem (t : UInt32) : t ∈ (msg.put a.1 a.2.1 a.2.2).blocks ↔
      t ∈ msg.blocks ∨ a.2.2.tsn = t := by
    rw [Message.put, Std.ExtTreeMap.mem_insertIfNew, Std.LawfulEqCmp.compare_eq_iff_eq, or_comm]
  rw [hput]
  refine ⟨⟨h.holds.put ha a.1, h.streamId, h.ssn, h.cumulative, fun hfirst => ?_⟩, hmem⟩
  rw [hmem, not_or] at hfirst
  have hnot : (Block.ofChunk a.2.1 a.2.2).isBegin = false := by
    rw [hbegin, beq_eq_false_iff_ne]
    rintro rfl
    exact hfirst.2 (by rw [hchunk]; simp)
  rw [Message.put]
  dsimp only
  rw [hnot]
  exact h.start hfirst.1

theorem assembled_received (initTsn : UInt32) {arrivals : List (ℤ × Fragment)}
    (harr : ∀ a ∈ arrivals, a.2 ∈ p.chunks sid k) :
    Assembled p sid k initTsn (received sid k initTsn arrivals) ∧
      ∀ t, t ∈ (received sid k initTsn arrivals).blocks ↔ Arrived arrivals t := by
  have hfold (l : List (ℤ × Fragment)) (msg : Message) (hl : ∀ a ∈ l, a.2 ∈ p.chunks sid k)
      (h : Assembled p sid k initTsn msg) :
      Assembled p sid k initTsn (l.foldl Message.arrive msg) ∧
        ∀ t, t ∈ (l.foldl Message.arrive msg).blocks ↔ t ∈ msg.blocks ∨ Arrived l t := by
    induction l generalizing msg with
    | nil => exact ⟨h, fun t => by simp [Arrived]⟩
    | cons a l ih =>
      obtain ⟨ha, hl⟩ := List.forall_mem_cons.mp hl
      obtain ⟨h', hmem⟩ := h.arrive ha
      obtain ⟨h'', hmem'⟩ := ih (msg.arrive a) hl h'
      refine ⟨h'', fun t => ?_⟩
      rw [List.foldl_cons, hmem', hmem, or_assoc]
      simp [Arrived]
  obtain ⟨h, hmem⟩ := hfold arrivals _ harr
    ⟨holds_new p sid (UInt16.ofNat k) initTsn, rfl, rfl, rfl, fun _ => rfl⟩
  refine ⟨h, fun t => (hmem t).trans ?_⟩
  simp [Message.new]

end

/-! ### The sender -/

/-- The fragment waits for an acknowledgement. -/
def Stream.Awaits (stream : Stream) (ssn : UInt16) (t : UInt32) : Prop :=
  ∃ msg, stream.sentMessages[ssn]? = some msg ∧ t ∈ msg.blocks

theorem Stream.awaits_processSack (stream : Stream) (sack : SackChunk) (ssn : UInt16)
    (t : UInt32) :
    (stream.processSack sack).Awaits ssn t ↔ stream.Awaits ssn t ∧ t ∉ sack.tsns := by
  have hblocks (msg : Message) : t ∈ updateAll
      (fun tsn block => if sack.tsns.contains tsn then none else some block) msg.blocks ↔
      t ∈ msg.blocks ∧ t ∉ sack.tsns := by
    rw [← Std.ExtTreeMap.isSome_getElem?_iff_mem, getElem?_updateAll,
      ← Std.ExtTreeMap.isSome_getElem?_iff_mem]
    cases hb : msg.blocks[t]? with
    | none => simp
    | some block => by_cases hc : t ∈ sack.tsns <;> simp [hc]
  constructor
  · rintro ⟨msg', hmsg', ht⟩
    rw [processSack, getElem?_updateAll] at hmsg'
    obtain ⟨msg, hmsg, hkeep⟩ := Option.bind_eq_some_iff.mp hmsg'
    simp only [Message.keepBlocks] at hkeep
    split at hkeep
    · cases hkeep
    · obtain rfl := Option.some.inj hkeep
      obtain ⟨hmem, hnot⟩ := (hblocks msg).mp ht
      exact ⟨⟨msg, hmsg, hmem⟩, hnot⟩
  · rintro ⟨⟨msg, hmsg, hmem⟩, hnot⟩
    have hkept := (hblocks msg).mpr ⟨hmem, hnot⟩
    let f := fun tsn (block : Block) => if sack.tsns.contains tsn then none else some block
    refine ⟨{ msg with blocks := updateAll f msg.blocks }, ?_, hkept⟩
    rw [processSack, getElem?_updateAll, hmsg, Option.bind_some, Message.keepBlocks]
    refine if_neg fun hempty => ?_
    rw [Std.ExtTreeMap.isEmpty_iff.mp hempty] at hkept
    simp at hkept

/-! ### Precision -/

/-- The SACK takes out what has arrived. With the first fragment there, no gap block has
an inside. Without it, the 256 TSNs before the initial one are taken out, and of the
256 from there on the fragments at the ends of the runs. -/
def Precise (p : Posted) (initTsn : UInt32) (R : ℕ → Prop) : Prop :=
  (R 0 → ∀ i < (payloads p.data).length, R i → (∀ j ≤ i, R j) ∨ ¬ R (i - 1) ∨ ¬ R (i + 1)) ∧
  (¬ R 0 → ∀ i < (payloads p.data).length,
    (Covers (initTsn - 1) (p.tsn + UInt32.ofNat i) → R i) ∧
    (R i → Covers (initTsn - 1) (p.tsn + UInt32.ofNat i) ∨
      (p.tsn + UInt32.ofNat i - (initTsn - 1)).toNat < maxChunksPerMessage ∧
        ((p.tsn + UInt32.ofNat i - (initTsn - 1)).toNat = 255 ∨ ¬ R (i - 1) ∨ ¬ R (i + 1))))

section

variable {p : Posted} {sid : UInt16} {k : ℕ} {initTsn : UInt32} {msg : Message}
  (h : Assembled p sid k initTsn msg)
  (hn : (payloads p.data).length ≤ maxChunksPerMessage)
include h hn

/-- With the first fragment there. -/
theorem Assembled.mem_tsns_of_first (hfirst : p.tsn ∈ msg.blocks) {i : ℕ}
    (hi : i < (payloads p.data).length) :
    p.tsn + UInt32.ofNat i ∈ (sackOf msg).carried.tsns ↔
      p.tsn + UInt32.ofNat i ∈ msg.blocks ∧
        ((∀ j ≤ i, p.tsn + UInt32.ofNat j ∈ msg.blocks) ∨
          p.tsn + UInt32.ofNat (i - 1) ∉ msg.blocks ∨
          p.tsn + UInt32.ofNat (i + 1) ∉ msg.blocks) := by
  obtain ⟨a, ha, hpoint, hrun, hnext, hbegin, hends, hfar⟩ := h.holds.first_run hn hfirst
  have hn' := hn
  simp only [maxChunksPerMessage] at hn' ha hfar
  have hoffset (j : ℕ) (hj : a < j) (hj' : j < 256) :
      (p.tsn + UInt32.ofNat j - msg.ackPoint).toNat = j - a := by
    have heq : p.tsn + UInt32.ofNat j - msg.ackPoint = UInt32.ofNat (j - a) := by
      rw [hpoint, UInt32.ofNat_sub hj.le]
      grind
    rw [heq, UInt32.toNat_ofNat', Nat.mod_eq_of_lt (by omega)]
  have hcovers : Covers msg.ackPoint (p.tsn + UInt32.ofNat i) ↔ i ≤ a := by
    rw [Covers]
    by_cases hia : i ≤ a
    · have heq : msg.ackPoint - (p.tsn + UInt32.ofNat i) = UInt32.ofNat (a - i) := by
        rw [hpoint, UInt32.ofNat_sub hia]
        grind
      rw [heq, UInt32.toNat_ofNat', Nat.mod_eq_of_lt (by omega)]
      simp only [maxChunksPerMessage]
      omega
    · have heq : msg.ackPoint - (p.tsn + UInt32.ofNat i) = 0 - UInt32.ofNat (i - a) := by
        rw [hpoint, UInt32.ofNat_sub (by omega)]
        grind
      rw [heq, UInt32.toNat_sub, UInt32.toNat_ofNat', Nat.mod_eq_of_lt (by omega : i - a < _)]
      simp only [maxChunksPerMessage, UInt32.toNat_zero]
      omega
  have hprefix : (∀ j ≤ i, p.tsn + UInt32.ofNat j ∈ msg.blocks) ↔ i ≤ a := by
    constructor
    · intro hall
      by_contra hlt
      exact hnext (hall (a + 1) (by omega))
    · exact fun hia j hj => hrun j (by omega)
  rw [mem_tsns_sackOf, hcovers, hprefix]
  · have hrunEnds := hends (p.tsn + UInt32.ofNat i)
    rw [h.holds.mem_runEnds hn, hbegin] at hrunEnds
    constructor
    · rintro (hia | hgap)
      · exact ⟨hrun i hia, .inl hia⟩
      · obtain ⟨ht, j, hj, heq, hor⟩ := hrunEnds.mpr (.inr hgap)
        simp only [maxChunksPerMessage] at hj
        obtain rfl : i = j := tsn_injective (n := 2 ^ 32) le_rfl (by omega) (by omega) heq
        refine ⟨ht, ?_⟩
        by_cases h0 : i = 0
        · exact .inl (by omega)
        · right
          rcases hor with h0' | rfl | hleft | hright
          · exact absurd h0' h0
          · exact .inr (h.holds.past (by omega) (by simp [maxChunksPerMessage]))
          · exact .inl (tsn_pred p.tsn h0 ▸ hleft)
          · exact .inr (ofNat_succ_tsn p.tsn i ▸ hright)
    · rintro ⟨ht, hor⟩
      by_cases hia : i ≤ a
      · exact .inl hia
      · have hout := hor.resolve_left hia
        rw [tsn_pred p.tsn (by omega : i ≠ 0), ← ofNat_succ_tsn] at hout
        have hi' : i < maxChunksPerMessage := hi.trans_le hn
        rcases hrunEnds.mp ⟨ht, i, hi', rfl, .inr (.inr hout)⟩ with (heq | heq) | hgap
        · have hzero : p.tsn + UInt32.ofNat i = p.tsn + UInt32.ofNat 0 := by simpa using heq
          have := tsn_injective (n := 2 ^ 32) le_rfl (by omega) (by omega) hzero
          omega
        · have := tsn_injective (n := 2 ^ 32) le_rfl (by omega) (by omega) (heq.trans hpoint)
          omega
        · exact .inr hgap
  · intro e he
    obtain ⟨j, hj, hj', rfl⟩ := hfar e he
    rw [hoffset j hj hj']
    omega

/-- Without the first fragment. -/
theorem Assembled.mem_tsns_of_not_first (hfirst : p.tsn ∉ msg.blocks) {i : ℕ}
    (hi : i < (payloads p.data).length) :
    p.tsn + UInt32.ofNat i ∈ (sackOf msg).carried.tsns ↔
      Covers (initTsn - 1) (p.tsn + UInt32.ofNat i) ∨ p.tsn + UInt32.ofNat i ∈ msg.blocks ∧
        (p.tsn + UInt32.ofNat i - (initTsn - 1)).toNat < maxChunksPerMessage ∧
        ((p.tsn + UInt32.ofNat i - (initTsn - 1)).toNat = 255 ∨
          p.tsn + UInt32.ofNat (i - 1) ∉ msg.blocks ∨
          p.tsn + UInt32.ofNat (i + 1) ∉ msg.blocks) := by
  have hbegun : msg.begun = false := by
    rw [Message.begun, List.any_eq_false]
    intro t _ hany
    obtain ⟨block, hb, hbegin⟩ := (Option.any_eq_true _ _).mp hany
    obtain ⟨j, part, -, rfl, hzero, -⟩ := h.holds.pieces t block hb
    rw [hbegin, eq_comm, beq_iff_eq] at hzero
    subst hzero
    have hmem : p.tsn + UInt32.ofNat 0 ∈ msg.blocks :=
      Std.ExtTreeMap.mem_iff_isSome_getElem?.mpr (hb ▸ rfl)
    exact hfirst (by simpa using hmem)
  have hpoint : msg.ackPoint = initTsn - 1 := by
    rw [Message.ackPoint, hbegun, ← h.cumulative]
    rfl
  have hgap : msg.gapRuns = msg.heldRuns := by
    rw [Message.gapRuns, hbegun]
    rfl
  have hstart := h.start hfirst
  have hdist (j : ℕ) (hj : j < 256) :
      (initTsn - 1 + UInt32.ofNat j - (initTsn - 1)).toNat = j := by
    have heq : initTsn - 1 + UInt32.ofNat j - (initTsn - 1) = UInt32.ofNat j := by grind
    rw [heq, UInt32.toNat_ofNat', Nat.mod_eq_of_lt (by omega)]
  rw [mem_tsns_sackOf, hgap, hpoint, h.holds.mem_runEnds hn, hstart]
  · have hne (ht : p.tsn + UInt32.ofNat i ∈ msg.blocks) : i ≠ 0 := by
      rintro rfl
      exact hfirst (by simpa using ht)
    constructor
    · rintro (hc | ⟨ht, j, hj, heq, hor⟩)
      · exact .inl hc
      · have hD : (p.tsn + UInt32.ofNat i - (initTsn - 1)).toNat = j := by rw [heq, hdist j hj]
        rw [hD]
        rcases hor with rfl | h255 | hleft | hright
        · left
          rw [heq, Covers]
          simp
        · exact .inr ⟨ht, hj, .inl h255⟩
        · exact .inr ⟨ht, hj, .inr (.inl (tsn_pred p.tsn (hne ht) ▸ hleft))⟩
        · exact .inr ⟨ht, hj, .inr (.inr (ofNat_succ_tsn p.tsn i ▸ hright))⟩
    · rintro (hc | ⟨ht, hD, hor⟩)
      · exact .inl hc
      · refine .inr ⟨ht, _, hD, ?_, .inr (hor.imp id (Or.imp (fun hleft => ?_) fun hright => ?_))⟩
        · rw [UInt32.ofNat_toNat]
          grind
        · rwa [← tsn_pred p.tsn (hne ht)]
        · rwa [ofNat_succ_tsn]
  · intro e he
    rw [hgap, h.holds.mem_runEnds hn, hstart] at he
    obtain ⟨-, j, hj, rfl, -⟩ := he
    simp only [maxChunksPerMessage] at hj
    rw [hpoint, hdist j hj]
    omega

end

/-- The SACK of a message takes out exactly what has arrived of it, or not, depending on
which fragments are there and where the message lies. -/
theorem sack_precise_iff {p : Posted} {sid : UInt16} {k : ℕ} {initTsn : UInt32}
    {arrivals : List (ℤ × Fragment)} {sender : Stream}
    (hn : (payloads p.data).length ≤ maxChunksPerMessage)
    (harr : ∀ a ∈ arrivals, a.2 ∈ p.chunks sid k)
    (hsent : ∀ i < (payloads p.data).length,
      sender.Awaits (UInt16.ofNat k) (p.tsn + UInt32.ofNat i)) :
    (∀ i < (payloads p.data).length,
      ¬ (sender.processSack (sackOf (received sid k initTsn arrivals)).carried).Awaits
          (UInt16.ofNat k) (p.tsn + UInt32.ofNat i) ↔
        Arrived arrivals (p.tsn + UInt32.ofNat i)) ↔
      Precise p initTsn fun i => Arrived arrivals (p.tsn + UInt32.ofNat i) := by
  obtain ⟨h, hmem⟩ := assembled_received initTsn harr
  have htaken (i : ℕ) (hi : i < (payloads p.data).length) :
      ¬ (sender.processSack (sackOf (received sid k initTsn arrivals)).carried).Awaits
          (UInt16.ofNat k) (p.tsn + UInt32.ofNat i) ↔
        p.tsn + UInt32.ofNat i ∈ (sackOf (received sid k initTsn arrivals)).carried.tsns := by
    rw [Stream.awaits_processSack, and_iff_right (hsent i hi), not_not]
  have hzero : p.tsn + UInt32.ofNat 0 = p.tsn := by simp
  simp only [Precise, ← hmem, hzero]
  by_cases hfirst : p.tsn ∈ (received sid k initTsn arrivals).blocks
  · rw [and_iff_left fun hnot => absurd hfirst hnot, forall_prop_of_true hfirst]
    refine forall₂_congr fun i hi => ?_
    rw [htaken i hi, h.mem_tsns_of_first hn hfirst hi]
    exact ⟨fun hiff hi => (hiff.mpr hi).2, fun himp => ⟨And.left, fun hi => ⟨hi, himp hi⟩⟩⟩
  · rw [and_iff_right fun hyes => absurd hyes hfirst, forall_prop_of_true hfirst]
    refine forall₂_congr fun i hi => ?_
    rw [htaken i hi, h.mem_tsns_of_not_first hn hfirst hi]
    constructor
    · exact fun hiff => ⟨fun hc => hiff.mp (.inl hc), fun hi => (hiff.mpr hi).imp id And.right⟩
    · rintro ⟨hsound, hfull⟩
      exact ⟨fun hor => hor.elim hsound And.left, fun hi => (hfull hi).imp id fun hin => ⟨hi, hin⟩⟩

instance (arrivals : List (ℤ × Fragment)) (t : UInt32) : Decidable (Arrived arrivals t) :=
  inferInstanceAs (Decidable (∃ a ∈ arrivals, _))

/-- A message of three fragments around the wrap of the TSNs, and one of two fragments far behind
the initial TSN. -/
private def wrapPost : Posted := ⟨0xffffffff, Ppid.binary, List.replicate 2401 0⟩

private def farPost : Posted := ⟨1000, Ppid.binary, List.replicate 1201 0⟩

/-- The sending half after it sent the message. -/
private def posting (p : Posted) : Stream :=
  (Stream.send 0 p.tsn p.data p.ppid { streamId := 1, initTsn := 1 }).1

private theorem posting_awaits (p : Posted) (i : ℕ)
    (h : ((posting p).sentMessages[(0 : UInt16)]?.any fun msg =>
      msg.blocks.contains (p.tsn + UInt32.ofNat i)) = true) :
    (posting p).Awaits (UInt16.ofNat 0) (p.tsn + UInt32.ofNat i) := by
  obtain ⟨msg, hmsg, hcontains⟩ := (Option.any_eq_true _ _).mp h
  exact ⟨msg, hmsg, Std.ExtTreeMap.contains_iff_mem.mp hcontains⟩

/-- The last fragment arrives, then the first, and the last again. -/
private def wrapArrivals : List (ℤ × Fragment) :=
  [(0, flagsEnd, ⟨1, 1, 0, Ppid.binary, [0]⟩),
    (0, flagsBegin, ⟨0xffffffff, 1, 0, Ppid.binary, List.replicate 1200 0⟩),
    (0, flagsEnd, ⟨1, 1, 0, Ppid.binary, [0]⟩)]

/-- The first and the last fragment are taken out, the one between them is not. -/
theorem sack_precise_wrap :
    ¬ ((posting wrapPost).processSack (sackOf (received 1 0 7 wrapArrivals)).carried).Awaits
        (UInt16.ofNat 0) (0xffffffff + UInt32.ofNat 0) ∧
      ((posting wrapPost).processSack (sackOf (received 1 0 7 wrapArrivals)).carried).Awaits
        (UInt16.ofNat 0) (0xffffffff + UInt32.ofNat 1) ∧
      ¬ ((posting wrapPost).processSack (sackOf (received 1 0 7 wrapArrivals)).carried).Awaits
        (UInt16.ofNat 0) (0xffffffff + UInt32.ofNat 2) := by
  have hlen : (payloads wrapPost.data).length = 3 := by decide +kernel
  have hprecise : Precise wrapPost 7 fun i =>
      Arrived wrapArrivals (0xffffffff + UInt32.ofNat i) := by
    refine ⟨fun _ => ?_, fun hnot => absurd (by decide +kernel) hnot⟩
    rw [hlen]
    decide +kernel
  have htaken := (@sack_precise_iff wrapPost 1 0 7 wrapArrivals (posting wrapPost)
    (by rw [hlen]; decide) (by decide +kernel) fun i hi => by
      rw [hlen] at hi
      obtain rfl | rfl | rfl : i = 0 ∨ i = 1 ∨ i = 2 := by omega
      · exact posting_awaits wrapPost 0 (by decide +kernel)
      · exact posting_awaits wrapPost 1 (by decide +kernel)
      · exact posting_awaits wrapPost 2 (by decide +kernel)).mpr hprecise
  rw [hlen] at htaken
  refine ⟨(htaken 0 (by decide)).mpr (by decide +kernel), ?_,
    (htaken 2 (by decide)).mpr (by decide +kernel)⟩
  exact not_not.mp fun hnot => absurd ((htaken 1 (by decide)).mp hnot) (by decide +kernel)

/-- The second fragment arrives, and nothing is taken out. -/
theorem sack_misses_far_fragment :
    ¬ ∀ (p : Posted) (sid : UInt16) (k : ℕ) (initTsn : UInt32) (arrivals : List (ℤ × Fragment))
      (sender : Stream), (payloads p.data).length ≤ maxChunksPerMessage → arrivals ≠ [] →
      (∀ a ∈ arrivals, a.2 ∈ p.chunks sid k) →
      (∀ i < (payloads p.data).length,
        sender.Awaits (UInt16.ofNat k) (p.tsn + UInt32.ofNat i)) →
      ∀ i < (payloads p.data).length,
        ¬ (sender.processSack (sackOf (received sid k initTsn arrivals)).carried).Awaits
            (UInt16.ofNat k) (p.tsn + UInt32.ofNat i) ↔
          Arrived arrivals (p.tsn + UInt32.ofNat i) := by
  intro hall
  have hlen : (payloads farPost.data).length = 2 := by decide +kernel
  have hmem : (flagsEnd, (⟨1001, 1, 0, Ppid.binary, [0]⟩ : DataChunk)) ∈ farPost.chunks 1 0 := by
    decide +kernel
  have harr : ∀ a ∈ [((0 : ℤ), flagsEnd, (⟨1001, 1, 0, Ppid.binary, [0]⟩ : DataChunk))],
      a.2 ∈ farPost.chunks 1 0 := List.forall_mem_singleton.mpr hmem
  have hsent : ∀ i < (payloads farPost.data).length,
      (posting farPost).Awaits (UInt16.ofNat 0) (farPost.tsn + UInt32.ofNat i) := by
    intro i hi
    rw [hlen] at hi
    obtain rfl | rfl : i = 0 ∨ i = 1 := by omega
    · exact posting_awaits farPost 0 (by decide +kernel)
    · exact posting_awaits farPost 1 (by decide +kernel)
  have htaken := (hall farPost 1 0 1 _ (posting farPost) (by rw [hlen]; decide) (by simp) harr
    hsent 1 (by rw [hlen]; decide)).mpr ⟨_, List.mem_singleton_self _, rfl⟩
  rw [Stream.awaits_processSack, and_iff_right (hsent 1 (by rw [hlen]; decide)), not_not] at htaken
  obtain ⟨h, hblocks⟩ := assembled_received 1 harr
  have hfirst : farPost.tsn ∉ (received 1 0 1
      [(0, flagsEnd, ⟨1001, 1, 0, Ppid.binary, [0]⟩)]).blocks := by
    rw [hblocks]
    rintro ⟨a, ha, htsn⟩
    rw [List.mem_singleton.mp ha] at htsn
    exact absurd htsn (by decide)
  rw [h.mem_tsns_of_not_first (by rw [hlen]; decide) hfirst (by rw [hlen]; decide)] at htaken
  rcases htaken with hcovers | ⟨-, hnear, -⟩
  · exact absurd hcovers (by decide)
  · exact absurd hnear (by decide)

end CxxDeps.Sctp
