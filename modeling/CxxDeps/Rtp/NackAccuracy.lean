import CxxDeps.Library.History
import CxxDeps.Rtp.NackList

/-! Accuracy of the list of packets to ask for again. `add_nack` runs up to and including the
number of the packet that has just come, and nothing takes a number off the list when its
packet comes late. So the list is accurate exactly as long as it stays empty. -/

namespace CxxDeps.Rtp

open Library

/-- `s` lies strictly between `a` and `b`, where `b` is ahead of `a`. -/
def Between (a s b : UInt16) : Prop :=
  0 < Sn.dist a.toNat s.toNat ∧ Sn.dist a.toNat s.toNat < Sn.dist a.toNat b.toNat ∧
    Sn.dist a.toNat b.toNat ≤ 32768

/-- The pending numbers lie between numbers that were seen, and were not seen themselves. -/
def Accurate (seen : List UInt16) (r : Receiver) : Prop :=
  ∀ seq ∈ r.nackPacks, seq ∉ seen ∧ ∃ a ∈ seen, ∃ b ∈ seen, Between a seq b

/-- `insert_packet` on a packet and the time. -/
def insertStep (r : Receiver) (p : Packet × ℤ) : Option (Receiver × List Empty) :=
  some (r.insertPacket p.1 p.2, [])

/-- The packet skips no number. -/
def NoSkip (r : Receiver) (p : Packet × ℤ) : Prop := r.skips p.1 = false

instance (r : Receiver) (p : Packet × ℤ) : Decidable (NoSkip r p) :=
  inferInstanceAs (Decidable (_ = _))

/-- The numbers seen so far. -/
def see (_ : Receiver) (p : Packet × ℤ) (seen : List UInt16) : List UInt16 := seen ++ [p.1.seq]

namespace Receiver

/-- The packet that skips numbers is asked for itself. -/
theorem mem_of_skips {r : Receiver} (hmax : 0 < r.nackMaxCount) {p : Packet}
    (h : r.skips p = true) (now : ℤ) : p.seq ∈ (r.insertPacket p now).nackPacks := by
  have hmax' : 0 < { r with ssrc := p.ssrc }.nackMaxCount := hmax
  rw [← Std.ExtTreeMap.isSome_getElem?_iff_mem, insertPacket_nackPacks, if_pos h,
    getElem?_addNack hmax']
  simp only [skips, Bool.and_eq_true, Bool.not_eq_true', decide_eq_true_eq] at h
  obtain ⟨⟨-, hahead⟩, hdiff⟩ := h
  have hend := u16_lt r.endSeq
  have hseq := p.seq.toNat_lt
  have hnext : u16 (r.endSeq + 1) = (u16 r.endSeq + 1) % 65536 := by
    simp only [u16]
    omega
  -- the loop begins behind `end_seq_`, and the packet is not behind that
  have hstart : Sn.aheadOf 16 0 (u16 (r.endSeq + 1)) p.seq.toNat = false := by
    rw [← Bool.not_eq_true, Sn.aheadOf_u16 (u16_lt _) hseq, hnext]
    rw [← Bool.not_eq_true, Sn.aheadOf_u16 hend hseq] at hahead
    have hd : Sn.forwardDiff 16 0 (u16 r.endSeq) p.seq.toNat =
        (p.seq.toNat + 65536 - u16 r.endSeq) % 65536 := by simp [Sn.forwardDiff]
    rw [hd] at hdiff
    omega
  have hmem : p.seq ∈ (Sn.numbers (u16 (r.endSeq + 1)) p.seq.toNat).map UInt16.ofNat := by
    rw [Sn.numbers_eq (u16_lt _) hseq hstart, List.map_map, List.mem_map]
    refine ⟨Sn.dist (u16 (r.endSeq + 1)) p.seq.toNat, by simp, ?_⟩
    have hback : (u16 (r.endSeq + 1) + Sn.dist (u16 (r.endSeq + 1)) p.seq.toNat) % 65536 =
        p.seq.toNat := by
      have := u16_lt (r.endSeq + 1)
      simp only [Sn.dist]
      omega
    rw [Function.comp_apply, hback, UInt16.ofNat_toNat]
  rw [if_pos hmem]
  cases r.nackPacks[p.seq]? <;> rfl

theorem nackPacks_of_not_skips {r : Receiver} {p : Packet} (h : r.skips p = false) (now : ℤ) :
    (r.insertPacket p now).nackPacks = r.nackPacks := by
  rw [insertPacket_nackPacks, h]
  rfl

/-- With no retransmissions allowed nothing is asked for. -/
theorem nackPacks_of_nonpos {r : Receiver} (h : r.nackMaxCount ≤ 0) (p : Packet) (now : ℤ) :
    (r.insertPacket p now).nackPacks = r.nackPacks := by
  rw [insertPacket_nackPacks, addNack, if_pos h]
  split <;> rfl

end Receiver

theorem accurate_of_empty {seen : List UInt16} {r : Receiver} (h : r.nackPacks = ∅) :
    Accurate seen r := by
  intro seq hseq
  rw [h] at hseq
  exact absurd hseq Std.ExtTreeMap.not_mem_empty

/-- The list is accurate after every call exactly if retransmissions are off, or no packet
skips a number. -/
theorem nack_accurate_iff {r : Receiver} (hr : r.nackPacks = ∅) (ps : List (Packet × ℤ)) :
    (∀ before, before <+: ps → ∀ w os,
        run (noted insertStep see) (r, []) before = some (w, os) → Accurate w.2 w.1) ↔
      r.nackMaxCount ≤ 0 ∨ RunOk insertStep NoSkip r ps := by
  have hstep {w w' : Receiver × List UInt16} {p : Packet × ℤ} {os : List Empty}
      (hs : noted insertStep see w p = some (w', os)) :
      w'.1 = w.1.insertPacket p.1 p.2 ∧ w'.2 = w.2 ++ [p.1.seq] := by
    obtain ⟨hinsert, hseen⟩ := noted_eq_some.mp hs
    exact ⟨(Prod.mk.inj (Option.some.inj hinsert)).1.symm, hseen⟩
  constructor
  · intro h
    by_cases hmax : r.nackMaxCount ≤ 0
    · exact .inl hmax
    · refine .inr ((runOk_noted NoSkip).mp (RunOk.of_good
        (fun w => 0 < w.1.nackMaxCount) (fun w => Accurate w.2 w.1) ?_ ?_
        (fun _ _ => True.intro) (by dsimp only; omega) h))
      · intro w p _ hpos hgood
        rw [NoSkip, ← Bool.not_eq_true]
        intro hskip
        have hs : noted insertStep see w p =
            some ((w.1.insertPacket p.1 p.2, w.2 ++ [p.1.seq]), []) := rfl
        have hseen := (hgood _ _ hs p.1.seq (Receiver.mem_of_skips hpos hskip p.2)).1
        exact hseen (by simp)
      · intro w p w' os _ hpos _ hs
        rw [(hstep hs).1, Receiver.insertPacket_nackMaxCount]
        exact hpos
  · rintro (hmax | hok) before ⟨after, rfl⟩ w os hrun
    · have hkeep (w : Receiver × List UInt16) (p : Packet × ℤ) (w' : Receiver × List UInt16)
          (os : List Empty) (h : w.1.nackPacks = ∅ ∧ w.1.nackMaxCount ≤ 0)
          (hs : noted insertStep see w p = some (w', os)) :
          w'.1.nackPacks = ∅ ∧ w'.1.nackMaxCount ≤ 0 := by
        rw [(hstep hs).1, Receiver.nackPacks_of_nonpos h.2, Receiver.insertPacket_nackMaxCount]
        exact h
      have hinv : w.1.nackPacks = ∅ ∧ w.1.nackMaxCount ≤ 0 :=
        run_invariant hkeep ⟨hr, hmax⟩ hrun
      exact accurate_of_empty hinv.1
    · have hok' : RunOk (noted insertStep see) (fun w p => NoSkip w.1 p) (r, []) before :=
        (runOk_noted NoSkip).mpr hok.append_left
      have hinv : w.1.nackPacks = ∅ := by
        refine hok'.invariant (fun w _ => w.1.nackPacks = ∅) ?_ [] hr hrun
        intro w _ p w' os hempty hskip hs
        rw [(hstep hs).1, Receiver.nackPacks_of_not_skips hskip]
        exact hempty
      exact accurate_of_empty hinv

private def numbersSeen (seqs : List UInt16) : List (Packet × ℤ) :=
  seqs.map fun seq => (⟨false, 0, seq, 0, 1, [0]⟩, 0)

theorem nack_accurate_swapped :
    (∀ before, before <+: numbersSeen [5, 6, 7, 6] → ∀ w os,
        run (noted insertStep see) ({ ssrc := 1 }, []) before = some (w, os) →
          Accurate w.2 w.1) ↔
      (1 : ℤ) ≤ 0 ∨ RunOk insertStep NoSkip { ssrc := 1 }
        (numbersSeen [5, 6, 7, 6]) :=
  nack_accurate_iff rfl (numbersSeen [5, 6, 7, 6])

/-- After 5 and 8 not only 6 and 7 but also 8 is asked for. -/
theorem received_packet_asked_for :
    ¬ ∀ r : Receiver, r.nackPacks = ∅ → ∀ (ps : List (Packet × ℤ)) (w : Receiver × List UInt16)
      (os : List Empty), run (noted insertStep see) (r, []) ps = some (w, os) →
        Accurate w.2 w.1 := by
  intro h
  have hbefore : ∀ before, before <+: numbersSeen [5, 8] → ∀ w os,
      run (noted insertStep see) ({ ssrc := 1 }, []) before = some (w, os) → Accurate w.2 w.1 :=
    fun before _ w os hrun => h { ssrc := 1 } rfl before w os hrun
  rcases (nack_accurate_iff rfl (numbersSeen [5, 8])).mp hbefore with hmax | hok
  · exact absurd hmax (by decide)
  · exact absurd hok (by decide +kernel)

end CxxDeps.Rtp
