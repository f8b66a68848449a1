import CxxDeps.Ps.PesRoundTrip
import CxxDeps.Ps.ProgramMap
import Mathlib.Logic.Relation

/-! What the parsers of a program stream use of a buffer that holds any bytes. A pack
header asks for eight bytes and uses ten, a system header does not ask whether its last
entry is complete, and a PES packet takes the length of its header for that of the parts
which its flags announce. Where none of this matters is said exactly, for every buffer. -/

namespace CxxDeps.Ps

open Library Reader

variable {buffer : List UInt8} {pos : ℕ}

/-! ### The pack header -/

/-- Ten bytes are used where eight are asked for. -/
theorem Psh.uses_read (h : AllOk (Psh.read.uses buffer 0)) :
    buffer.length ≠ 8 ∧ buffer.length ≠ 9 := by
  by_contra hlen
  have hlast : Use.access ⟨buffer.length, 9, 10⟩ ∈ Psh.read.uses buffer 0 := by
    rw [Psh.read, uses_bind, value_need, if_neg (by omega)]
    simp [uses_bind]
  have hin : 10 ≤ buffer.length := (h _ hlast).2
  omega

theorem Psh.read_safe (h : buffer.length ≠ 8 ∧ buffer.length ≠ 9) : Psh.read.SafeAt buffer 0 := by
  refine .need fun hsize => ?_
  refine .byte (by omega) (.byte (by omega) (.byte (by omega) (.byte (by omega)
    (.byte (by omega) (.skip ?_)))))
  refine .byte (by omega) (.byte (by omega) (.byte (by omega) (.skip (.next (by omega) ?_))))
  refine .step allOk_nil rfl ?_
  split_ifs with hover
  · exact ⟨allOk_nil, fun r hr => by cases hr⟩
  · exact .skip (safeAt_pure _ (by omega))

/-! ### The stream map and the blocks -/

theorem SafeAt.readLength {α : Type} {f : UInt16 → Reader α} (hpos : pos + 2 ≤ buffer.length)
    (hf : ∀ length, (f length).SafeAt buffer (pos + 2)) :
    (Ps.readLength >>= f).SafeAt buffer pos := by
  refine .step ?_ rfl (hf _)
  simp [Ps.readLength, uses_bind, Use.Ok, Access.InRange]
  omega

theorem Psm.readInfo_safe (buffer : List UInt8) : Psm.readInfo.SafeAt buffer 0 := by
  refine .need fun h => .byte (by omega) (.skip (SafeAt.readLength (by omega) fun length => ?_))
  exact .need fun h => .take (by omega) (safeAt_pure _ (by omega))

theorem passEntries_safe (n : ℕ) (hpos : pos ≤ buffer.length) :
    (passEntries n).SafeAt buffer pos := by
  induction n generalizing pos with
  | zero => exact safeAt_pure _ hpos
  | succ n ih =>
    refine .need fun h => .byte (by omega) (.byte (by omega) (.skip ?_))
    exact SafeAt.readLength (by omega) fun _ => ih (by omega)

theorem Psm.read_safe (buffer : List UInt8) : Psm.read.SafeAt buffer 0 := by
  refine (readInfo_safe buffer).bind fun psm pos _ _ => .need fun h => ?_
  refine SafeAt.readLength h fun length => (passEntries_safe _ h).bind fun _ pos' _ _ => ?_
  refine .need fun h => .byte (by omega) (.byte (by omega) (.byte (by omega) (.byte (by omega) ?_)))
  exact .skip (safeAt_pure _ h)

theorem Block.read_safe (buffer : List UInt8) : Block.read.SafeAt buffer 0 := by
  refine .need fun h => .byte (by omega) (.byte (by omega) (.byte (by omega) (.skip ?_)))
  exact .need fun h => .take (by omega) (safeAt_pure _ (by omega))

/-! ### The frame -/

/-- The length of the unit at `pos`: a pack header or a block. -/
def unitLength (buffer : List UInt8) (pos : ℕ) : ℕ :=
  if buffer.getD (pos + 3) 0 = packHeader then 14 + ((buffer.getD (pos + 13) 0).toNat &&& 0x07)
  else 6 + (be16 (buffer.getD (pos + 4) 0) (buffer.getD (pos + 5) 0)).toNat

/-- The unit at `pos` is in the buffer, and the next one begins at `pos'`. Two bytes more
are asked for behind a pack header. -/
def NextUnit (buffer : List UInt8) (pos pos' : ℕ) : Prop :=
  pos' = pos + unitLength buffer pos ∧
    (if buffer.getD (pos + 3) 0 = packHeader then pos' + 2 else pos') ≤ buffer.length

/-- No pack header is reached that ends before its tenth byte but behind its eighth. -/
def PacksEnd (buffer : List UInt8) (pos : ℕ) : Prop :=
  ∀ pos', Relation.ReflTransGen (NextUnit buffer) pos pos' →
    buffer.getD (pos' + 3) 0 = packHeader → pos' + 12 ≠ buffer.length ∧ pos' + 13 ≠ buffer.length

theorem packsEnd_iff : PacksEnd buffer pos ↔
    (buffer.getD (pos + 3) 0 = packHeader →
      pos + 12 ≠ buffer.length ∧ pos + 13 ≠ buffer.length) ∧
    ∀ pos', NextUnit buffer pos pos' → PacksEnd buffer pos' := by
  constructor
  · intro h
    exact ⟨h pos .refl, fun pos' hnext pos'' hreach => h pos'' (.head hnext hreach)⟩
  · rintro ⟨hhere, hnext⟩ pos' hreach
    rcases Relation.ReflTransGen.cases_head hreach with rfl | ⟨pos'', hstep, hrest⟩
    · exact hhere
    · exact hnext pos'' hstep pos' hrest

theorem six_le_unitLength (buffer : List UInt8) (pos : ℕ) : 6 ≤ unitLength buffer pos := by
  rw [unitLength]
  split_ifs <;> omega

theorem packsEnd_of_end (h : buffer.length < pos + 4) : PacksEnd buffer pos := by
  rw [packsEnd_iff]
  refine ⟨fun _ => by omega, fun pos' hnext => ?_⟩
  obtain ⟨rfl, hle⟩ := hnext
  have hlength := six_le_unitLength buffer pos
  split_ifs at hle <;> omega

theorem getD_drop (buffer : List UInt8) (k i : ℕ) :
    (buffer.drop k).getD i 0 = buffer.getD (k + i) 0 := by
  rw [List.getD_eq_getElem?_getD, List.getElem?_drop, ← List.getD_eq_getElem?_getD]

theorem Psh.value_read (buffer : List UInt8) : ∃ psh, Psh.read.value buffer 0 =
    if buffer.length < 10 + ((buffer.getD 9 0).toNat &&& 0x07) + 2 then none
    else some (psh, 10 + ((buffer.getD 9 0).toNat &&& 0x07)) := by
  have hstuffing (b₀ b₁ b₂ b₃ b₄ r₀ r₁ r₂ s : UInt8) :
      (Psh.ofBytes b₀ b₁ b₂ b₃ b₄ r₀ r₁ r₂ s).packStuffingLength.toNat = s.toNat &&& 0x07 :=
    UInt64.toNat_ofNat_of_lt' (lt_of_le_of_lt Nat.and_le_right (by decide))
  refine ⟨Psh.ofBytes (buffer.getD 0 0) (buffer.getD 1 0) (buffer.getD 2 0) (buffer.getD 3 0)
    (buffer.getD 4 0) (buffer.getD 6 0) (buffer.getD 7 0) (buffer.getD 8 0) (buffer.getD 9 0), ?_⟩
  rw [Psh.read, value_bind, value_need]
  by_cases hsize : 0 + 8 > buffer.length
  · rw [if_pos hsize, if_pos (by omega), Option.bind_none]
  · rw [if_neg hsize]
    simp only [value_bind, value_byte, value_skip, value_next, value_size, Option.bind_some,
      Nat.zero_add, Nat.reduceAdd, hstuffing]
    by_cases hover : buffer.length < 10 + ((buffer.getD 9 0).toNat &&& 0x07) + 2
    · rw [if_pos hover, if_pos (by omega), value_giveUp]
    · rw [if_neg hover, if_neg (by omega), value_bind, value_skip, Option.bind_some, value_pure]

theorem Block.value_read (buffer : List UInt8) : ∃ block, Block.read.value buffer 0 =
    if buffer.length < 6 + (be16 (buffer.getD 4 0) (buffer.getD 5 0)).toNat then none
    else some (block, 6 + (be16 (buffer.getD 4 0) (buffer.getD 5 0)).toNat) := by
  refine ⟨⟨buffer.getD 3 0,
    (buffer.drop 6).take (be16 (buffer.getD 4 0) (buffer.getD 5 0)).toNat⟩, ?_⟩
  rw [Block.read, value_bind, value_need]
  by_cases hsize : 0 + 6 > buffer.length
  · rw [if_pos hsize, if_pos (by omega), Option.bind_none]
  · rw [if_neg hsize]
    simp only [value_bind, value_byte, value_skip, value_need, Option.bind_some, Nat.zero_add]
    by_cases hover : buffer.length < 6 + (be16 (buffer.getD 4 0) (buffer.getD 5 0)).toNat
    · rw [if_pos hover, if_pos (by omega), Option.bind_none]
    · rw [if_neg hover, if_neg (by omega), Option.bind_some, value_take, Option.bind_some,
        value_pure]

/-- The parser of the unit at `pos`, where the loop leaves it. -/
theorem value_unit {α : Type} {p : Reader α} (len more : ℕ) (hpos : pos ≤ buffer.length)
    (h : ∃ a, p.value (buffer.drop pos) 0 =
      if (buffer.drop pos).length < len + more then none else some (a, len)) :
    ∃ a, (within p).value buffer pos =
      if buffer.length < pos + len + more then none else some (a, pos + len) := by
  obtain ⟨a, ha⟩ := h
  refine ⟨a, ?_⟩
  rw [value_within, ha, List.length_drop]
  by_cases hover : buffer.length < pos + len + more
  · rw [if_pos hover, if_pos (by omega), Option.map_none]
  · rw [if_neg hover, if_neg (by omega), Option.map_some]

/-- One round of the loop, whose parser goes from `start` on. -/
theorem unit_safe_iff {α β : Type} {p : Reader α} {f : α → Reader β} {start len more : ℕ}
    {ok : Prop}
    (huses : AllOk ((within p).uses buffer start) ↔ ok)
    (hvalue : ∃ a, (within p).value buffer start =
      if buffer.length < start + len + more then none else some (a, start + len))
    (hok : ok ↔ (buffer.getD (pos + 3) 0 = packHeader →
      pos + 12 ≠ buffer.length ∧ pos + 13 ≠ buffer.length))
    (hnext : ∀ pos', NextUnit buffer pos pos' ↔
      pos' = start + len ∧ start + len + more ≤ buffer.length)
    (hf : ∀ a, start + len + more ≤ buffer.length →
      ((f a).SafeAt buffer (start + len) ↔ PacksEnd buffer (start + len))) :
    (within p >>= f).SafeAt buffer start ↔ PacksEnd buffer pos := by
  obtain ⟨a, ha⟩ := hvalue
  rw [packsEnd_iff, ← hok, ← huses]
  by_cases hover : buffer.length < start + len + more
  · rw [if_pos hover] at ha
    rw [safeAt_bind_none ha]
    refine ⟨fun h => ⟨h, fun pos' hstep => ?_⟩, And.left⟩
    exact absurd ((hnext pos').mp hstep).2 (by omega)
  · rw [if_neg hover] at ha
    rw [safeAt_bind_some ha, hf a (by omega)]
    refine and_congr_right fun _ => ⟨fun h pos' hstep => ?_, fun h => ?_⟩
    · exact ((hnext pos').mp hstep).1 ▸ h
    · exact h _ ((hnext _).mpr ⟨rfl, by omega⟩)

/-- The loop is safe exactly where no pack header ends too early. -/
theorem readPacks_safe_iff (n : ℕ) (frame : PsFrame) (hpos : pos ≤ buffer.length)
    (hn : buffer.length ≤ pos + n) :
    (readPacks n frame).SafeAt buffer pos ↔ PacksEnd buffer pos := by
  induction n generalizing pos frame with
  | zero => exact ⟨fun _ => packsEnd_of_end (by omega), fun _ => safeAt_pure _ hpos⟩
  | succ n ih =>
    rw [readPacks, safeAt_bind_some (value_position buffer pos),
      safeAt_bind_some (value_size buffer pos)]
    simp only [uses_position, uses_size, allOk_nil, true_and]
    by_cases hend : pos + 4 > buffer.length
    · rw [if_pos hend]
      exact ⟨fun _ => packsEnd_of_end hend, fun _ => safeAt_pure _ hpos⟩
    have hbyte : AllOk ((byte 3).uses buffer pos) :=
      allOk_cons.mpr ⟨⟨Nat.le_succ _, by simp only; omega⟩, allOk_nil⟩
    rw [if_neg hend, safeAt_bind_some (value_byte buffer pos 3), and_iff_right hbyte]
    by_cases hpack : buffer.getD (pos + 3) 0 = packHeader
    · rw [if_pos hpack, safeAt_bind_some (value_skip buffer pos 4), uses_skip,
        and_iff_right allOk_nil]
      obtain ⟨s, hs⟩ : ∃ s, s = (buffer.getD (pos + 13) 0).toNat &&& 0x07 := ⟨_, rfl⟩
      have hvalue := Psh.value_read (buffer.drop (pos + 4))
      rw [getD_drop, Nat.add_assoc, ← hs] at hvalue
      have hunit := value_unit (10 + s) 2 (by omega : pos + 4 ≤ buffer.length) hvalue
      refine unit_safe_iff ⟨Psh.uses_read, fun h => (Psh.read_safe h).uses⟩ hunit ?_
        (fun pos' => ?_) fun psh hfits => ih _ (by omega) (by omega)
      · rw [forall_prop_of_true hpack, List.length_drop]
        omega
      · rw [NextUnit, unitLength, if_pos hpack, if_pos hpack, ← hs]
        omega
    · rw [if_neg hpack]
      obtain ⟨l, hl⟩ : ∃ l, l = (be16 (buffer.getD (pos + 4) 0) (buffer.getD (pos + 5) 0)).toNat :=
        ⟨_, rfl⟩
      have hvalue := Block.value_read (buffer.drop pos)
      rw [getD_drop, getD_drop, ← hl] at hvalue
      have hunit := value_unit (6 + l) 0 hpos hvalue
      refine unit_safe_iff (iff_true_intro (Block.read_safe _).uses) hunit ?_
        (fun pos' => ?_) fun block hfits => ih _ (by omega) (by omega)
      · exact iff_of_true trivial fun h => absurd h hpack
      · rw [NextUnit, unitLength, if_neg hpack, if_neg hpack, ← hl]
        omega

theorem le_of_value_within {α : Type} {p : Reader α} {a : α} {pos' : ℕ}
    (h : (within p).value buffer pos = some (a, pos')) : pos ≤ pos' := by
  rw [value_within, Option.map_eq_some_iff] at h
  obtain ⟨r, -, hr⟩ := h
  obtain ⟨-, rfl⟩ := Prod.mk.inj hr
  exact Nat.le_add_right _ _

theorem Block.lt_of_value_within {block : Block} {pos' : ℕ}
    (h : (within Block.read).value buffer pos = some (block, pos')) : pos < pos' := by
  obtain ⟨b, hvalue⟩ := Block.value_read (buffer.drop pos)
  rw [value_within, hvalue] at h
  split_ifs at h
  · cases h
  · obtain ⟨-, rfl⟩ := Prod.mk.inj (Option.some.inj h)
    omega

theorem readPacks_end (n : ℕ) (frame : PsFrame) (h : pos + 4 > buffer.length) :
    (readPacks n frame).SameAt (pure frame) buffer pos := by
  cases n with
  | zero => exact .refl _ _ _
  | succ n =>
    refine (sameAt_silent rfl rfl).trans ((sameAt_silent rfl rfl).trans ?_)
    rw [if_pos h]
    exact .refl _ _ _

/-- The loop does not come to the end of its rounds. -/
theorem readPacks_rounds {m n : ℕ} (frame : PsFrame) (hm : buffer.length ≤ pos + m)
    (hn : buffer.length ≤ pos + n) :
    (readPacks m frame).SameAt (readPacks n frame) buffer pos := by
  induction m generalizing n pos frame with
  | zero => exact (readPacks_end n frame (by omega)).symm
  | succ m ih =>
    by_cases hend : pos + 4 > buffer.length
    · exact (readPacks_end _ _ hend).trans (readPacks_end _ _ hend).symm
    cases n with
    | zero => omega
    | succ n =>
      rw [readPacks, readPacks]
      refine SameAt.bind (.refl _ _ _) fun _ _ hposition =>
        SameAt.bind (.refl _ _ _) fun _ _ hsize => ?_
      obtain ⟨rfl, rfl⟩ := Prod.mk.inj (Option.some.inj hposition)
      obtain ⟨rfl, rfl⟩ := Prod.mk.inj (Option.some.inj hsize)
      rw [if_neg hend, if_neg hend]
      refine SameAt.bind (.refl _ _ _) fun startCode _ hbyte => ?_
      obtain ⟨-, rfl⟩ := Prod.mk.inj (Option.some.inj hbyte)
      split_ifs with hpack
      · refine SameAt.bind (.refl _ _ _) fun _ pos₁ hskip =>
          SameAt.bind (.refl _ _ _) fun psh pos₂ hunit => ?_
        obtain ⟨-, rfl⟩ := Prod.mk.inj (Option.some.inj hskip)
        have hle := le_of_value_within hunit
        exact ih _ (by omega) (by omega)
      · refine SameAt.bind (.refl _ _ _) fun block pos₂ hunit => ?_
        have hlt := Block.lt_of_value_within hunit
        exact ih _ (by omega) (by omega)

theorem PsFrame.read_safe_iff (buffer : List UInt8) :
    PsFrame.read.SafeAt buffer 0 ↔ PacksEnd buffer 0 := by
  rw [PsFrame.read, safeAt_bind_some (value_size buffer 0), uses_size, and_iff_right allOk_nil]
  exact readPacks_safe_iff _ _ (Nat.zero_le _) (Nat.zero_add _).ge

/-- The parser of a frame, with rounds to spare. -/
theorem PsFrame.read_rounds {n : ℕ} (h : buffer.length ≤ n) :
    (readPacks n {}).SameAt PsFrame.read buffer 0 := by
  have hread : PsFrame.read.SameAt (readPacks buffer.length {}) buffer 0 := by
    rw [PsFrame.read]
    exact sameAt_silent rfl (value_size buffer 0)
  exact (readPacks_rounds {} (by omega) (Nat.zero_add _).ge).trans hread.symm

/-! ### PES packets -/

theorem passes_clock {n : ℕ} {α : Type} {f : BitVec 33 → Reader α} (h : pos + 5 ≤ buffer.length)
    (hf : ∀ t, AllOk ((f t).uses buffer (pos + 5)) ∧
      ∃ b, (f t).value buffer (pos + 5) = some (b, n)) :
    AllOk ((readClock >>= f).uses buffer pos) ∧
      ∃ b, (readClock >>= f).value buffer pos = some (b, n) := by
  have huses : AllOk (readClock.uses buffer pos) := by
    simp [readClock, uses_bind, Use.Ok, Access.InRange]
    omega
  obtain ⟨t, ht⟩ : ∃ t, readClock.value buffer pos = some (t, pos + 5) := ⟨_, rfl⟩
  rw [uses_bind, value_bind, ht]
  exact ⟨allOk_append.mpr ⟨huses, (hf t).1⟩, (hf t).2⟩

theorem passes_readStamps (flags : BitVec 2) (hpos : pos ≤ buffer.length) :
    (readStamps flags).Passes buffer pos
      (if flags = 2 then 5 else if flags = 3 then 10 else 0) 0 := by
  rw [readStamps]
  split_ifs
  · exact passes_need fun h => passes_clock h fun t => ⟨allOk_nil, _, rfl⟩
  · refine passes_need fun h => passes_clock (by omega) fun t => ?_
    exact passes_clock (by omega) fun t => ⟨allOk_nil, _, rfl⟩
  · exact ⟨fun _ => ⟨_, rfl⟩, fun h => absurd h (Nat.not_lt.mpr hpos), fun _ => allOk_nil⟩

theorem passes_readEscr : readEscr.Passes buffer pos 6 0 := by
  refine passes_need fun h => ⟨?_, _, rfl⟩
  simp [uses_bind, Use.Ok, Access.InRange]
  omega

theorem passes_readRate : readRate.Passes buffer pos 3 0 := by
  refine passes_need fun h => ⟨?_, _, rfl⟩
  simp [uses_bind, Use.Ok, Access.InRange]
  omega

theorem passes_readTrickMode : readTrickMode.Passes buffer pos 1 0 := by
  refine passes_need fun h => ⟨?_, _, rfl⟩
  simpa [uses_bind, Use.Ok, Access.InRange] using h

theorem passes_readCopyInfo : readCopyInfo.Passes buffer pos 1 0 := by
  refine passes_need fun h => ⟨?_, _, rfl⟩
  simpa [uses_bind, Use.Ok, Access.InRange] using h

theorem passes_readCrc : readCrc.Passes buffer pos 2 0 := by
  refine passes_need fun h => ⟨?_, _, rfl⟩
  simp [uses_bind, Use.Ok, Access.InRange]
  omega

theorem passes_readPrivateData : readPrivateData.Passes buffer pos 16 0 := by
  refine passes_need fun h => ⟨?_, _, rfl⟩
  simpa [uses_bind, Use.Ok, Access.InRange] using h

theorem passes_readHeaders :
    readHeaders.Passes buffer pos (1 + (buffer.getD pos 0).toNat) 0 := by
  refine .next (Nat.zero_le _) fun _ => ?_
  exact passes_need fun h => ⟨by simpa [Use.Ok, Access.InRange] using h, _, rfl⟩

theorem passes_readSequenceCounter : readSequenceCounter.Passes buffer pos 2 0 := by
  refine passes_need fun h => ⟨?_, _, rfl⟩
  simp [uses_bind, Use.Ok, Access.InRange]
  omega

theorem passes_readStdBuffer : readStdBuffer.Passes buffer pos 2 0 := by
  refine passes_need fun h => ⟨?_, _, rfl⟩
  simp [uses_bind, Use.Ok, Access.InRange]
  omega

/-- One byte of the second extension may be missing: its own length is not counted. -/
theorem passes_readFieldLength (hpos : pos ≤ buffer.length) :
    readFieldLength.Passes buffer pos
      (1 + (BitVec.ofNat 7 ((buffer.getD pos 0).toNat &&& 0x7f)).toNat) 1 := by
  obtain ⟨length, hlength⟩ :
      ∃ l : BitVec 7, l = BitVec.ofNat 7 ((buffer.getD pos 0).toNat &&& 0x7f) := ⟨_, rfl⟩
  have hvalue : readFieldLength.value buffer pos =
      if pos + length.toNat > buffer.length then none
      else some (length, pos + (length.toNat + 1)) := by
    rw [readFieldLength, value_bind, value_byte, Option.bind_some, Nat.add_zero, ← hlength]
    simp only [value_bind, value_need, value_skip]
    split_ifs <;> rfl
  have huses : readFieldLength.uses buffer pos = [.access ⟨buffer.length, pos, pos + 1⟩] := by
    rw [readFieldLength, uses_bind, uses_byte, value_byte]
    simp only [uses_bind, uses_need, value_need, uses_skip]
    split_ifs <;> rfl
  rw [← hlength]
  have hempty : pos = buffer.length → length.toNat = 0 := by
    intro hend
    rw [hlength, List.getD_eq_getElem?_getD, List.getElem?_eq_none hend.ge]
    rfl
  refine ⟨fun h => ⟨length, ?_⟩, fun h => ?_, fun h => ?_⟩
  · rw [hvalue, if_neg (by omega), Nat.add_comm 1]
  · rw [hvalue, if_pos (by omega)]
  · rw [huses]
    exact allOk_cons.mpr ⟨⟨Nat.le_succ _, by simp only; omega⟩, allOk_nil⟩

theorem passes_flagged {α : Type} {p : Reader α} {len slack : ℕ} (flag : BitVec 1) (absent : α)
    (hpos : pos ≤ buffer.length) (hp : p.Passes buffer pos len slack) :
    (part (flag = 1) absent p).Passes buffer pos (partLength flag len) (partLength flag slack) := by
  have hpart := passes_part (decide (flag = 1)) absent hpos fun _ => hp
  simp only [decide_eq_true_eq] at hpart
  exact hpart

theorem partLength_le (flag : BitVec 1) {m n : ℕ} (h : m ≤ n) :
    partLength flag m ≤ partLength flag n := by
  rw [partLength, partLength]
  split_ifs
  · exact h
  · exact le_rfl

theorem passes_plain {α : Type} {p : Reader α} {len : ℕ} (flag : BitVec 1) (absent : α)
    (hpos : pos ≤ buffer.length) (hp : p.Passes buffer pos len 0) :
    (part (flag = 1) absent p).Passes buffer pos (partLength flag len) 0 := by
  have hflagged := passes_flagged flag absent hpos hp
  rwa [show partLength flag 0 = 0 from ite_self 0] at hflagged

namespace PesExtension

/-- The part of its length that an extension announces before the second extension. -/
def firstLength (buffer : List UInt8) (pos : ℕ) : ℕ :=
  let b := (buffer.getD pos 0).toNat
  let headers := 1 + partLength (.ofNat 1 ((b &&& 0x80) >>> 7)) 16
  headers +
    partLength (.ofNat 1 ((b &&& 0x40) >>> 6)) (1 + (buffer.getD (pos + headers) 0).toNat) +
    partLength (.ofNat 1 ((b &&& 0x20) >>> 5)) 2 + partLength (.ofNat 1 ((b &&& 0x10) >>> 4)) 2

/-- Whether there is a second extension. -/
def flag2At (buffer : List UInt8) (pos : ℕ) : BitVec 1 :=
  .ofNat 1 ((buffer.getD pos 0).toNat &&& 0x1)

def announcedLength (buffer : List UInt8) (pos : ℕ) : ℕ :=
  firstLength buffer pos + partLength (flag2At buffer pos)
    (1 + (BitVec.ofNat 7
      ((buffer.getD (pos + firstLength buffer pos) 0).toNat &&& 0x7f)).toNat)

theorem slack_le (buffer : List UInt8) (pos : ℕ) :
    partLength (flag2At buffer pos) 1 ≤ announcedLength buffer pos :=
  (partLength_le _ (Nat.le_add_right _ _)).trans (Nat.le_add_left _ _)

theorem passes_read : PesExtension.read.Passes buffer pos (announcedLength buffer pos)
    (partLength (flag2At buffer pos) 1) := by
  have hslack : partLength (flag2At buffer pos) 1 ≤ partLength (flag2At buffer pos)
      (1 + (BitVec.ofNat 7
        ((buffer.getD (pos + firstLength buffer pos) 0).toNat &&& 0x7f)).toNat) :=
    partLength_le _ (Nat.le_add_right _ _)
  obtain ⟨b, hb⟩ : ∃ b, b = buffer.getD pos 0 := ⟨_, rfl⟩
  obtain ⟨p₁, h₁⟩ : ∃ n, n = partLength (.ofNat 1 ((b.toNat &&& 0x80) >>> 7)) 16 := ⟨_, rfl⟩
  obtain ⟨p₂, h₂⟩ : ∃ n, n = partLength (.ofNat 1 ((b.toNat &&& 0x40) >>> 6))
    (1 + (buffer.getD (pos + 1 + p₁) 0).toNat) := ⟨_, rfl⟩
  obtain ⟨p₃, h₃⟩ : ∃ n, n = partLength (.ofNat 1 ((b.toNat &&& 0x20) >>> 5)) 2 := ⟨_, rfl⟩
  obtain ⟨p₄, h₄⟩ : ∃ n, n = partLength (.ofNat 1 ((b.toNat &&& 0x10) >>> 4)) 2 := ⟨_, rfl⟩
  have hfirst : firstLength buffer pos = 1 + p₁ + p₂ + p₃ + p₄ := by
    rw [firstLength, ← hb, ← h₁, ← Nat.add_assoc pos 1 p₁, ← h₂, ← h₃, ← h₄]
  obtain ⟨p₅, h₅⟩ : ∃ n, n = partLength (flag2At buffer pos) (1 + (BitVec.ofNat 7
      ((buffer.getD (pos + firstLength buffer pos) 0).toNat &&& 0x7f)).toNat) := ⟨_, rfl⟩
  have hlength : announcedLength buffer pos = 1 + (p₁ + (p₂ + (p₃ + (p₄ + p₅)))) := by
    rw [announcedLength, ← h₅, hfirst]
    omega
  rw [hlength, PesExtension.read]
  rw [← h₅] at hslack
  refine .next (by omega) fun hp => ?_
  rw [← hb]
  refine .bind (by omega) (h₁ ▸ passes_plain _ _ hp passes_readPrivateData) fun hp _ => ?_
  refine .bind (by omega) (h₂ ▸ passes_plain _ _ hp passes_readHeaders) fun hp _ => ?_
  refine .bind (by omega) (h₃ ▸ passes_plain _ _ hp passes_readSequenceCounter) fun hp _ => ?_
  refine .bind (by omega) (h₄ ▸ passes_plain _ _ hp passes_readStdBuffer) fun hp _ => ?_
  have hpos : pos + firstLength buffer pos = pos + 1 + p₁ + p₂ + p₃ + p₄ := by omega
  have hlast := passes_flagged (flag2At buffer pos) 0 hp (passes_readFieldLength hp)
  rw [← hpos, ← h₅, hpos] at hlast
  have hflag : flag2At buffer pos = .ofNat 1 (b.toNat &&& 0x1) := by rw [flag2At, hb]
  rw [hflag] at hlast ⊢
  exact hlast.map _

end PesExtension

namespace Pes2

/-- The length of the parts that a packet announces, from `pos` on. -/
def announcedLength (pes : Pes2) (buffer : List UInt8) (pos : ℕ) : ℕ :=
  pes.plainLength + partLength pes.pesExtensionFlag
    (PesExtension.announcedLength buffer (pos + pes.plainLength))

/-- One, if there is a second extension. -/
def announcedSlack (pes : Pes2) (buffer : List UInt8) (pos : ℕ) : ℕ :=
  partLength pes.pesExtensionFlag
    (partLength (PesExtension.flag2At buffer (pos + pes.plainLength)) 1)

theorem passes_readParts (pes : Pes2) (hpos : pos ≤ buffer.length) :
    (readParts pes).Passes buffer pos (pes.announcedLength buffer pos)
      (pes.announcedSlack buffer pos) := by
  obtain ⟨p₁, h₁⟩ : ∃ n, n =
    if pes.ptsDtsFlags = 2 then 5 else if pes.ptsDtsFlags = 3 then 10 else 0 := ⟨_, rfl⟩
  obtain ⟨p₂, h₂⟩ : ∃ n, n = partLength pes.escrFlag 6 := ⟨_, rfl⟩
  obtain ⟨p₃, h₃⟩ : ∃ n, n = partLength pes.esRateFlag 3 := ⟨_, rfl⟩
  obtain ⟨p₄, h₄⟩ : ∃ n, n = partLength pes.dsmTrickModeFlag 1 := ⟨_, rfl⟩
  obtain ⟨p₅, h₅⟩ : ∃ n, n = partLength pes.additionalCopyInfoFlag 1 := ⟨_, rfl⟩
  obtain ⟨p₆, h₆⟩ : ∃ n, n = partLength pes.pesCrcFlag 2 := ⟨_, rfl⟩
  have hplain : pes.plainLength = p₁ + p₂ + p₃ + p₄ + p₅ + p₆ := by
    rw [plainLength, ← h₁, ← h₂, ← h₃, ← h₄, ← h₅, ← h₆]
  have hext := PesExtension.slack_le buffer (pos + pes.plainLength)
  have hslack := partLength_le pes.pesExtensionFlag hext
  obtain ⟨p₇, h₇⟩ : ∃ n, n = partLength pes.pesExtensionFlag
    (PesExtension.announcedLength buffer (pos + pes.plainLength)) := ⟨_, rfl⟩
  have hlength : pes.announcedLength buffer pos =
      p₁ + (p₂ + (p₃ + (p₄ + (p₅ + (p₆ + p₇))))) := by
    rw [announcedLength, ← h₇, hplain]
    omega
  rw [hlength, announcedSlack, readParts]
  rw [← h₇] at hslack
  refine .bind (by omega) (h₁ ▸ passes_readStamps _ hpos) fun hp _ => ?_
  refine .bind (by omega) (h₂ ▸ passes_plain _ _ hp passes_readEscr) fun hp _ => ?_
  refine .bind (by omega) (h₃ ▸ passes_plain _ _ hp passes_readRate) fun hp _ => ?_
  refine .bind (by omega) (h₄ ▸ passes_plain _ _ hp passes_readTrickMode) fun hp _ => ?_
  refine .bind (by omega) (h₅ ▸ passes_plain _ _ hp passes_readCopyInfo) fun hp _ => ?_
  refine .bind (by omega) (h₆ ▸ passes_plain _ _ hp passes_readCrc) fun hp _ => ?_
  have hat : pos + p₁ + p₂ + p₃ + p₄ + p₅ + p₆ = pos + pes.plainLength := by omega
  rw [hat] at hp ⊢
  have hlast := passes_flagged pes.pesExtensionFlag {} hp PesExtension.passes_read
  rw [← h₇] at hlast
  exact hlast.map _

theorem readPayload_safe {pes : Pes2} {stuffing : ℕ} (hbyte : stuffing < 256)
    (hfits : pos + stuffing ≤ buffer.length) (hsize : buffer.length < 2 ^ 31) :
    (readPayload pes stuffing).SafeAt buffer pos := by
  have hnat : (((stuffing : ℕ) : ℤ) % 256).toNat = stuffing := by omega
  have hlength : (UInt8.ofNat stuffing).toNat = stuffing := UInt8.toNat_ofNat_of_lt' hbyte
  have hok (n : ℕ) (hn : n < 2 ^ 31) : AllOk [.length n] :=
    allOk_cons.mpr ⟨⟨Int.natCast_nonneg n, by omega⟩, allOk_nil⟩
  refine .step (hok _ (by omega)) rfl ?_
  simp only [hnat, hlength]
  refine .need fun _ => .skip ?_
  refine .step allOk_nil rfl (.step allOk_nil rfl (.step (hok _ hsize) rfl ?_))
  have hdata : toInt buffer.length - (pos + stuffing : ℕ) =
      (buffer.length - (pos + stuffing) : ℕ) := by
    rw [toInt_of_lt hsize]
    omega
  rw [hdata]
  refine .step (hok _ (by omega)) rfl ?_
  rw [if_neg (by omega)]
  exact .take (by omega) (safeAt_pure _ (by omega))

/-- A length below zero is computed, or one that an `int` does not hold. -/
theorem uses_readPayload {pes : Pes2} {stuffing : ℤ} (hbyte : stuffing < 256)
    (hfits : pos + stuffing ≤ buffer.length)
    (h : AllOk ((readPayload pes stuffing).uses buffer pos)) :
    0 ≤ stuffing ∧ buffer.length < 2 ^ 31 := by
  have hstuffing : 0 ≤ stuffing := by
    have hfirst : Use.length stuffing ∈ (readPayload pes stuffing).uses buffer pos := by
      rw [readPayload, uses_bind]
      exact List.mem_append_left _ (List.mem_singleton_self _)
    exact (h _ hfirst).1
  obtain ⟨k, rfl⟩ := Int.eq_ofNat_of_zero_le hstuffing
  have hk : k < 256 := by omega
  have hnat : (((k : ℕ) : ℤ) % 256).toNat = k := by omega
  have hlength : (UInt8.ofNat k).toNat = k := UInt8.toNat_ofNat_of_lt' hk
  have hsize : Use.length buffer.length ∈ (readPayload pes k).uses buffer pos := by
    rw [readPayload]
    simp only [uses_bind, value_note, value_need, hnat, hlength]
    rw [if_neg (by omega)]
    simp
  have hlt := (h _ hsize).2
  exact ⟨hstuffing, by omega⟩

/-- The packet is refused for its length, or the header length counts at least the parts
that the flags announce. -/
def HeaderOk (buffer : List UInt8) : Prop :=
  let pes := ofBytes (buffer.getD 0 0) (buffer.getD 1 0)
  let headerLength := (buffer.getD 2 0).toNat
  buffer.length < 3 + headerLength ∨
    buffer.length + pes.announcedSlack buffer 3 < 3 + pes.announcedLength buffer 3 ∨
    pes.announcedLength buffer 3 ≤ headerLength ∧ buffer.length < 2 ^ 31

theorem read_safe_iff (buffer : List UInt8) : read.SafeAt buffer 0 ↔ HeaderOk buffer := by
  obtain ⟨pes, hpes⟩ : ∃ p, p = ofBytes (buffer.getD 0 0) (buffer.getD 1 0) := ⟨_, rfl⟩
  obtain ⟨headerLength, hheader⟩ : ∃ b, b = buffer.getD 2 0 := ⟨_, rfl⟩
  have hbyte := headerLength.toNat_lt
  rw [HeaderOk, ← hpes, ← hheader]
  by_cases hshort : buffer.length < 3 + headerLength.toNat
  · refine ⟨fun _ => .inl hshort, fun _ => .need fun h => ?_⟩
    refine .next (by omega) (.next (by omega) (.next (by omega) (.need fun hlong => ?_)))
    rw [← hheader] at hlong
    omega
  have hneed (at' n : ℕ) (h : at' + n ≤ buffer.length) :
      (need n).value buffer at' = some ((), at') := by rw [value_need, if_neg (by omega)]
  have hnext (at' : ℕ) (h : at' < buffer.length) : AllOk (next.uses buffer at') :=
    allOk_cons.mpr ⟨⟨Nat.le_succ _, h⟩, allOk_nil⟩
  have hparts := passes_readParts pes (by omega : 3 ≤ buffer.length)
  rw [read, safeAt_bind_some (hneed 0 3 (by omega)), safeAt_bind_some (value_next buffer 0),
    safeAt_bind_some (value_next buffer (0 + 1)), safeAt_bind_some (value_next buffer (0 + 1 + 1)),
    ← hheader, safeAt_bind_some (hneed (0 + 1 + 1 + 1) headerLength.toNat (by omega)),
    safeAt_bind_some (value_position buffer (0 + 1 + 1 + 1)), uses_need, uses_need, uses_position,
    and_iff_right allOk_nil, and_iff_right (hnext _ (by omega)), and_iff_right (hnext _ (by omega)),
    and_iff_right (hnext _ (by omega)), and_iff_right allOk_nil, and_iff_right allOk_nil, ← hpes]
  by_cases hover : buffer.length + pes.announcedSlack buffer 3 < 3 + pes.announcedLength buffer 3
  · rw [safeAt_bind_none (hparts.givesUp hover)]
    exact iff_of_true (hparts.uses (.inr hover)) (.inr (.inl hover))
  · obtain ⟨pes', hvalue⟩ := hparts.passes (by omega)
    rw [safeAt_bind_some hvalue, safeAt_bind_some (value_position _ _)]
    constructor
    · rintro ⟨-, -, h⟩
      obtain ⟨hstuffing, hsize⟩ := uses_readPayload (by omega) (by omega) h.uses
      exact .inr (.inr ⟨by omega, hsize⟩)
    · intro h
      obtain ⟨hle, hsize⟩ := (h.resolve_left hshort).resolve_left hover
      have hstuffing : (headerLength.toNat : ℤ) -
          (((3 + pes.announcedLength buffer 3 : ℕ) : ℤ) - (3 : ℕ)) =
          (headerLength.toNat - pes.announcedLength buffer 3 : ℕ) := by omega
      refine ⟨hparts.uses (.inl (by omega)), allOk_nil, ?_⟩
      have hsafe : (readPayload pes' (headerLength.toNat - pes.announcedLength buffer 3 : ℕ)).SafeAt
          buffer (3 + pes.announcedLength buffer 3) :=
        readPayload_safe (by omega) (by omega) hsize
      rw [← hstuffing] at hsafe
      exact hsafe

/-- Packets without the optional header. -/
theorem reader_safe_iff (streamId : UInt8) (buffer : List UInt8) :
    (reader streamId).SafeAt buffer 0 ↔
      if hasHeader streamId then HeaderOk buffer else buffer.length < 2 ^ 31 := by
  rw [reader]
  by_cases hid : hasHeader streamId = true
  · rw [if_pos hid, if_pos hid, read_safe_iff]
  · rw [if_neg hid, if_neg hid, safeAt_bind_some (value_size buffer 0),
      safeAt_bind_some (value_note buffer 0 _), uses_size, uses_note, and_iff_right allOk_nil]
    constructor
    · rintro ⟨hsize, -⟩
      have hlt := (allOk_cons.mp hsize).1.2
      omega
    · intro hsize
      refine ⟨allOk_cons.mpr ⟨⟨Int.natCast_nonneg _, by omega⟩, allOk_nil⟩, ?_⟩
      split_ifs
      · exact .take (Nat.zero_add _).le (safeAt_pure _ (Nat.zero_add _).le)
      · exact safeAt_pure _ (Nat.zero_le _)

end Pes2

/-! ### All parsers -/

/-- For every buffer: when the parsers use it as they should and stop within it. The stream
map and the blocks always do, and the loops end by themselves. -/
theorem parsing_safe_iff (streamId : UInt8) (buffer : List UInt8) :
    (Psh.read.SafeAt buffer 0 ↔ buffer.length ≠ 8 ∧ buffer.length ≠ 9) ∧
    (SysHeader.read.SafeAt buffer 0 ↔
      buffer.length < 6 ∨ 3 ∣ buffer.length ∧ buffer.length < 2 ^ 31) ∧
    Psm.read.SafeAt buffer 0 ∧ Block.read.SafeAt buffer 0 ∧
    ((Pes2.reader streamId).SafeAt buffer 0 ↔
      if Pes2.hasHeader streamId then Pes2.HeaderOk buffer else buffer.length < 2 ^ 31) ∧
    (PsFrame.read.SafeAt buffer 0 ↔ PacksEnd buffer 0) ∧
    (∀ n, buffer.length ≤ n → (readPacks n {}).SameAt PsFrame.read buffer 0) ∧
    ∀ n, buffer.length ≤ n → (readStreams n).SameAt (readStreams buffer.length) buffer 6 := by
  refine ⟨⟨fun h => Psh.uses_read h.uses, Psh.read_safe⟩, SysHeader.read_safe_iff buffer,
    Psm.read_safe buffer, Block.read_safe buffer, Pes2.reader_safe_iff streamId buffer,
    PsFrame.read_safe_iff buffer, fun n hn => PsFrame.read_rounds hn, fun n hn => ?_⟩
  exact readStreams_rounds (by omega) (by omega)

/-- A pack header of eight bytes, alone and in a frame; a system header of seven; a PES
packet whose flags announce a time stamp that its header length does not count. -/
theorem short_buffers_unsafe :
    ¬ Psh.read.SafeAt (List.replicate 8 0) 0 ∧
    ¬ PsFrame.read.SafeAt ([0, 0, 1, 0xBA] ++ List.replicate 8 0) 0 ∧
    ¬ SysHeader.read.SafeAt (List.replicate 7 0) 0 ∧
    ¬ (Pes2.reader 0xE0).SafeAt ([0x80, 0x80, 0] ++ List.replicate 5 0) 0 :=
  ⟨fun h => absurd h.uses (by decide), fun h => absurd h.uses (by decide),
    fun h => absurd h.uses (by decide), fun h => absurd h.uses (by decide)⟩

end CxxDeps.Ps
