import CxxDeps.Rtp.Rtx

/-! The answer to a generic NACK, `media_stream::on_rtcp_fb_nack`. The mask is shifted by
the round in every round, so the rounds see the bits 0, 1, 3, 6, 10 and 15; and the
history hands out whatever its slot holds. -/

namespace CxxDeps.Rtp

open Library

/-! ### The history of a sender -/

/-- `get_history`. -/
def Sender.getHistory (s : Sender) (seq : UInt16) : Option Packet :=
  s.historyPackets (slot seq.toNat)

/-- The packet is still stored. -/
def Sender.Stored (s : Sender) (pkt : Packet) : Prop := ∃ i, s.historyPackets i = some pkt

/-- Every stored packet lies in the slot of its number. -/
def Sender.Filed (s : Sender) : Prop :=
  ∀ i pkt, s.historyPackets i = some pkt → i = slot pkt.seq.toNat

/-- The sender after it has sent the packets. -/
def Sender.sendAll (s : Sender) (pkts : List Packet) : Sender := pkts.foldl Sender.sendPacket s

theorem Sender.filed_sendPacket {s : Sender} (h : s.Filed) (pkt : Packet) :
    (s.sendPacket pkt).Filed := by
  intro i p hp
  have hset : (s.historyPackets.set (slot pkt.seq.toNat) (some pkt)) i = some p := hp
  by_cases hi : i = slot pkt.seq.toNat
  · rw [hi, Slots.set_self] at hset
    rw [hi, Option.some.inj hset]
  · rw [Slots.set_of_ne _ _ hi] at hset
    exact h i p hset

theorem Sender.filed_sendAll {s : Sender} (h : s.historyPackets = Slots.empty)
    (pkts : List Packet) : (s.sendAll pkts).Filed := by
  have hstart : s.Filed := by
    intro i p hp
    rw [h, Slots.empty_apply] at hp
    cases hp
  clear h
  induction pkts generalizing s with
  | nil => exact hstart
  | cons pkt pkts ih => exact ih (Sender.filed_sendPacket hstart pkt)

theorem Sender.stored_iff {s : Sender} (h : s.Filed) {pkt : Packet} :
    s.Stored pkt ↔ s.getHistory pkt.seq = some pkt := by
  constructor
  · rintro ⟨i, hi⟩
    rw [getHistory, ← h i pkt hi, hi]
  · exact fun hp => ⟨_, hp⟩

theorem Sender.slot_of_getHistory {s : Sender} (h : s.Filed) {seq : UInt16} {pkt : Packet}
    (hp : s.getHistory seq = some pkt) : seq.toNat % 512 = pkt.seq.toNat % 512 :=
  slot_eq_iff.mp (h _ pkt hp)

/-! ### The numbers that a NACK asks for -/

/-- The numbers that `(pid, blp)` stands for: `pid`, and `pid + i + 1` for each bit `i`. -/
def asked (pid blp : UInt16) : List UInt16 :=
  pid :: ((List.range 16).filter fun i => blp.toNat.testBit i).map fun i =>
    pid + UInt16.ofNat (i + 1)

theorem mem_asked {pid blp seq : UInt16} :
    seq ∈ asked pid blp ↔
      seq = pid ∨ ∃ i < 16, blp.toNat.testBit i ∧ seq = pid + UInt16.ofNat (i + 1) := by
  simp only [asked, List.mem_cons, List.mem_map, List.mem_filter, List.mem_range]
  constructor
  · rintro (h | ⟨i, ⟨hi, hb⟩, rfl⟩)
    · exact .inl h
    · exact .inr ⟨i, hi, hb, rfl⟩
  · rintro (h | ⟨i, hi, hb, rfl⟩)
    · exact .inl h
    · exact .inr ⟨i, ⟨hi, hb⟩, rfl⟩

/-! ### `on_rtcp_fb_nack` -/

/-- What a media stream answers with: its default sender, and the RTX sender if the
format has one. -/
structure Responder where
  sender : Sender
  rtx : Option Sender
  nackCount : UInt32 := 0

/-- A stored packet, and the one that went out for it. -/
structure Resent where
  packet : Packet
  wire : Packet
  deriving DecidableEq

namespace Responder

/-- The packet stored for the number, if there is one, is sent again. -/
def resend (seq : UInt16) (st : Responder × List Resent) : Responder × List Resent :=
  match st.1.sender.getHistory seq with
  | none => st
  | some pkt =>
    match st.1.rtx with
    | some rtx =>
      let (rtx, pkt2) := rtx.sendRtx pkt
      ({ st.1 with rtx := some rtx }, st.2 ++ [⟨pkt, pkt2⟩])
    | none => (st.1, st.2 ++ [⟨pkt, pkt⟩])

/-- The rounds from `i` on. -/
def bitLoop (pid : UInt16) : ℕ → ℕ → UInt16 → Responder × List Resent → Responder × List Resent
  | 0, _, _, st => st
  | n + 1, i, bld, st =>
    let bld := bld >>> UInt16.ofNat i
    bitLoop pid n (i + 1) bld
      (if bld &&& 1 ≠ 0 then resend (pid + UInt16.ofNat (i + 1)) st else st)

/-- `on_rtcp_fb_nack` with a sender: what was sent again. -/
def onRtcpFbNack (pid bld : UInt16) (r : Responder) : Responder × List Resent :=
  let st := bitLoop pid 16 0 bld (resend pid (r, []))
  ({ st.1 with nackCount := st.1.nackCount + 1 }, st.2)

end Responder

/-- The shifts of the rounds up to `i`, all together. -/
def totalShift : ℕ → ℕ
  | 0 => 0
  | i + 1 => totalShift i + (i + 1)

/-- The numbers that the code looks up. -/
def lookedUp (pid bld : UInt16) : List UInt16 :=
  pid :: ((List.range 16).filter fun i => bld.toNat.testBit (totalShift i)).map fun i =>
    pid + UInt16.ofNat (i + 1)

namespace Responder

theorem resend_spec (seq : UInt16) (st : Responder × List Resent) :
    (resend seq st).1.sender = st.1.sender ∧
      (resend seq st).2.map Resent.packet =
        st.2.map Resent.packet ++ [seq].filterMap st.1.sender.getHistory := by
  unfold resend
  cases hget : st.1.sender.getHistory seq with
  | none => simp [hget]
  | some pkt => cases hrtx : st.1.rtx <;> simp [hget]

/-- The rounds from `i` on look up the numbers whose bit is set after all the shifts. -/
theorem bitLoop_spec (pid : UInt16) (n : ℕ) {i : ℕ} (hi : i + n ≤ 16) {bld blp : UInt16}
    (hb : bld.toNat = blp.toNat >>> (totalShift i - i)) (st : Responder × List Resent) :
    (bitLoop pid n i bld st).1.sender = st.1.sender ∧
      (bitLoop pid n i bld st).2.map Resent.packet = st.2.map Resent.packet ++
        (((List.range' i n).filter fun j => blp.toNat.testBit (totalShift j)).map fun j =>
          pid + UInt16.ofNat (j + 1)).filterMap st.1.sender.getHistory := by
  induction n generalizing i bld st with
  | zero => simp [bitLoop]
  | succ n ih =>
    have hle : i ≤ totalShift i := by
      cases i with
      | zero => exact le_rfl
      | succ i => simp only [totalShift]; omega
    have hsmall : (UInt16.ofNat i).toNat % 16 = i := by
      rw [UInt16.toNat_ofNat', Nat.mod_eq_of_lt (by omega), Nat.mod_eq_of_lt (by omega)]
    have hshift : (bld >>> UInt16.ofNat i).toNat = blp.toNat >>> totalShift i := by
      rw [UInt16.toNat_shiftRight, hsmall, hb, ← Nat.shiftRight_add, Nat.sub_add_cancel hle]
    have hbit : (bld >>> UInt16.ofNat i) &&& 1 ≠ 0 ↔ blp.toNat.testBit (totalShift i) := by
      rw [Nat.testBit, ← hshift, ← UInt16.toNat_inj.ne, UInt16.toNat_and]
      simp [Nat.and_comm]
    have hnext : (bld >>> UInt16.ofNat i).toNat =
        blp.toNat >>> (totalShift (i + 1) - (i + 1)) := by
      rw [hshift, totalShift, Nat.add_sub_cancel]
    rw [bitLoop, List.range'_succ]
    obtain ⟨hsender, hout⟩ := ih (by omega) hnext
      (if bld >>> UInt16.ofNat i &&& 1 ≠ 0 then resend (pid + UInt16.ofNat (i + 1)) st else st)
    rw [hsender, hout]
    by_cases hset : blp.toNat.testBit (totalShift i)
    · obtain ⟨hs, ho⟩ := resend_spec (pid + UInt16.ofNat (i + 1)) st
      rw [if_pos (hbit.mpr hset), hs, ho, List.filter_cons_of_pos (by simpa using hset)]
      refine ⟨rfl, ?_⟩
      rw [List.map_cons, List.append_assoc, ← List.filterMap_append]
      rfl
    · rw [if_neg (fun h => hset (hbit.mp h)), List.filter_cons_of_neg (by simpa using hset)]
      exact ⟨rfl, rfl⟩

/-- What is sent again is what the history holds for the numbers looked up. -/
theorem onRtcpFbNack_packets (pid bld : UInt16) (r : Responder) :
    (r.onRtcpFbNack pid bld).2.map Resent.packet =
      (lookedUp pid bld).filterMap r.sender.getHistory := by
  obtain ⟨hs, ho⟩ := resend_spec pid (r, [])
  have hstart : bld.toNat = bld.toNat >>> (totalShift 0 - 0) := rfl
  obtain ⟨-, hout⟩ := bitLoop_spec pid 16 le_rfl hstart (resend pid (r, []))
  rw [onRtcpFbNack, hout, hs, ho, lookedUp, List.range_eq_range', List.map_nil, List.nil_append,
    ← List.filterMap_append]
  rfl

end Responder

/-! ### Exactness -/

/-- Exactly the stored packets that were asked for are sent again, each once. -/
structure ExactResponse (s : Sender) (pid blp : UInt16) (out : List Packet) : Prop where
  mem : ∀ pkt, pkt ∈ out ↔ s.Stored pkt ∧ pkt.seq ∈ asked pid blp
  once : out.Nodup

/-- The slot of `pid` holds no other packet. Where the slot of `pid + i + 1` holds that
packet, the bit that round `i` tests is as the bit `i`; where it holds another packet, the
bit tested is clear. -/
def NackReadable (s : Sender) (pid blp : UInt16) : Prop :=
  (∀ pkt ∈ s.getHistory pid, pkt.seq = pid) ∧
    ∀ i < 16, ∀ pkt ∈ s.getHistory (pid + UInt16.ofNat (i + 1)),
      if pkt.seq = pid + UInt16.ofNat (i + 1)
      then blp.toNat.testBit (totalShift i) = blp.toNat.testBit i
      else blp.toNat.testBit (totalShift i) = false

instance (s : Sender) (pid blp : UInt16) : Decidable (NackReadable s pid blp) :=
  inferInstanceAs (Decidable (_ ∧ _))

/-- The number `k` behind `pid`, which is `pid` itself for `k = 0`. -/
theorem toNat_add_ofNat (pid : UInt16) {k : ℕ} (hk : k ≤ 16) :
    (pid + UInt16.ofNat k).toNat = (pid.toNat + k) % 65536 := by
  rw [UInt16.toNat_add, UInt16.toNat_ofNat', Nat.mod_eq_of_lt (by omega : k < 2 ^ 16)]

/-- Seventeen numbers in a row have slots of their own. -/
theorem eq_of_slot_eq {pid : UInt16} {a b : ℕ} (ha : a ≤ 16) (hb : b ≤ 16)
    (h : (pid + UInt16.ofNat a).toNat % 512 = (pid + UInt16.ofNat b).toNat % 512) : a = b := by
  rw [toNat_add_ofNat pid ha, toNat_add_ofNat pid hb] at h
  omega

section

variable {s : Sender} {pid blp : UInt16} {pkt : Packet}

/-- The packets sent again: that of `pid`, and those of the rounds. -/
theorem mem_lookedUp (pkt : Packet) :
    pkt ∈ (lookedUp pid blp).filterMap s.getHistory ↔
      s.getHistory pid = some pkt ∨ ∃ i < 16, blp.toNat.testBit (totalShift i) ∧
        s.getHistory (pid + UInt16.ofNat (i + 1)) = some pkt := by
  simp only [lookedUp, List.mem_filterMap, List.mem_cons, List.mem_map, List.mem_filter,
    List.mem_range]
  constructor
  · rintro ⟨seq, rfl | ⟨i, ⟨hi, hb⟩, rfl⟩, hget⟩
    · exact .inl hget
    · exact .inr ⟨i, hi, hb, hget⟩
  · rintro (hget | ⟨i, hi, hb, hget⟩)
    · exact ⟨pid, .inl rfl, hget⟩
    · exact ⟨_, .inr ⟨i, ⟨hi, hb⟩, rfl⟩, hget⟩

theorem nodup_lookedUp (h : s.Filed) (pid blp : UInt16) :
    ((lookedUp pid blp).filterMap s.getHistory).Nodup := by
  have hnodup : (lookedUp pid blp).Pairwise fun a b => a.toNat % 512 ≠ b.toNat % 512 := by
    have hzero : pid = pid + UInt16.ofNat 0 := (UInt16.add_zero pid).symm
    rw [lookedUp, List.pairwise_cons]
    constructor
    · intro seq hseq heq
      obtain ⟨i, hi, rfl⟩ := List.mem_map.mp hseq
      have hlt := List.mem_range.mp (List.mem_filter.mp hi).1
      rw [hzero, UInt16.add_assoc, ← UInt16.ofNat_add, Nat.zero_add] at heq
      have := eq_of_slot_eq (Nat.zero_le 16) (by omega) heq
      omega
    · rw [List.pairwise_map]
      refine (List.nodup_range.filter _).imp_of_mem fun {a b} ha hb hne heq => hne ?_
      have ha' := List.mem_range.mp (List.mem_filter.mp ha).1
      have hb' := List.mem_range.mp (List.mem_filter.mp hb).1
      have := eq_of_slot_eq (by omega) (by omega) heq
      omega
  refine hnodup.filterMap _ fun a b hne p hp q hq heq => hne ?_
  subst heq
  rw [Sender.slot_of_getHistory h hp, Sender.slot_of_getHistory h hq]

/-- The packet in the slot of `pid + k` is asked for exactly if it has that number and
`k` is asked for. -/
theorem asked_of_slot (h : s.Filed) {k : ℕ} (hk : k ≤ 16)
    (hget : s.getHistory (pid + UInt16.ofNat k) = some pkt) :
    pkt.seq ∈ asked pid blp ↔
      pkt.seq = pid + UInt16.ofNat k ∧ (k = 0 ∨ ∃ i < 16, blp.toNat.testBit i ∧ k = i + 1) := by
  have hslot := Sender.slot_of_getHistory h hget
  have hzero : pid = pid + UInt16.ofNat 0 := (UInt16.add_zero pid).symm
  rw [mem_asked]
  constructor
  · rintro (heq | ⟨i, hi, hb, heq⟩)
    · rw [heq, hzero, UInt16.add_assoc, ← UInt16.ofNat_add, Nat.zero_add] at hslot
      obtain rfl := eq_of_slot_eq hk (Nat.zero_le 16) hslot
      exact ⟨heq.trans hzero, .inl rfl⟩
    · rw [heq] at hslot
      obtain rfl := eq_of_slot_eq hk (by omega) hslot
      exact ⟨heq, .inr ⟨i, hi, hb, rfl⟩⟩
  · rintro ⟨heq, rfl | ⟨i, hi, hb, rfl⟩⟩
    · exact .inl (heq.trans hzero.symm)
    · exact .inr ⟨i, hi, hb, heq⟩

/-- The packet in the slot of `pid` is sent again, and no other packet of that slot is. -/
theorem mem_lookedUp_zero (hget : s.getHistory pid = some pkt) :
    pkt ∈ (lookedUp pid blp).filterMap s.getHistory :=
  (mem_lookedUp pkt).mpr (.inl hget)

/-- The packet in the slot of `pid + i + 1` is sent again exactly if the bit that round `i`
tests is set. -/
theorem mem_lookedUp_succ (h : s.Filed) {i : ℕ} (hi : i < 16)
    (hget : s.getHistory (pid + UInt16.ofNat (i + 1)) = some pkt) :
    pkt ∈ (lookedUp pid blp).filterMap s.getHistory ↔ blp.toNat.testBit (totalShift i) := by
  have hslot := Sender.slot_of_getHistory h hget
  have hzero : pid = pid + UInt16.ofNat 0 := (UInt16.add_zero pid).symm
  rw [mem_lookedUp]
  constructor
  · rintro (hpid | ⟨j, hj, hb, hother⟩)
    · have hsame := Sender.slot_of_getHistory h hpid
      rw [← hslot, hzero, UInt16.add_assoc, ← UInt16.ofNat_add, Nat.zero_add] at hsame
      have := eq_of_slot_eq (Nat.zero_le 16) (by omega) hsame
      omega
    · have hsame := Sender.slot_of_getHistory h hother
      rw [← hslot] at hsame
      have := eq_of_slot_eq (by omega) (by omega) hsame
      obtain rfl : j = i := by omega
      exact hb
  · intro hb
    exact .inr ⟨i, hi, hb, hget⟩

/-- The lookups are exact if and only if the NACK is readable. -/
theorem exactResponse_iff (h : s.Filed) (pid blp : UInt16) :
    ExactResponse s pid blp ((lookedUp pid blp).filterMap s.getHistory) ↔
      NackReadable s pid blp := by
  have hzero : pid = pid + UInt16.ofNat 0 := (UInt16.add_zero pid).symm
  have hstored {seq : UInt16} {pkt : Packet} (hget : s.getHistory seq = some pkt) :
      s.Stored pkt := ⟨_, hget⟩
  have hasked {i : ℕ} (hi : i < 16) {pkt : Packet}
      (hget : s.getHistory (pid + UInt16.ofNat (i + 1)) = some pkt) :
      pkt.seq ∈ asked pid blp ↔ pkt.seq = pid + UInt16.ofNat (i + 1) ∧ blp.toNat.testBit i := by
    rw [asked_of_slot h (by omega) hget]
    refine and_congr_right fun _ => ⟨?_, fun hb => .inr ⟨i, hi, hb, rfl⟩⟩
    rintro (hk | ⟨j, -, hb, hk⟩)
    · omega
    · obtain rfl : i = j := by omega
      exact hb
  constructor
  · intro hexact
    refine ⟨fun pkt hget => ?_, fun i hi pkt hget => ?_⟩
    · have hin := ((hexact.mem pkt).mp (mem_lookedUp_zero hget)).2
      have hget' : s.getHistory (pid + UInt16.ofNat 0) = some pkt := hzero ▸ hget
      exact ((asked_of_slot h (Nat.zero_le 16) hget').mp hin).1.trans hzero.symm
    · have hmem := hexact.mem pkt
      rw [mem_lookedUp_succ h hi hget, hasked hi hget] at hmem
      split_ifs with hseq
      · rw [Bool.eq_iff_iff]
        exact ⟨fun hb => (hmem.mp hb).2.2, fun hb => hmem.mpr ⟨hstored hget, hseq, hb⟩⟩
      · rw [← Bool.not_eq_true]
        exact fun hb => hseq (hmem.mp hb).2.1
  · rintro ⟨hpid, hrounds⟩
    refine ⟨fun pkt => ⟨fun hmem => ?_, ?_⟩, nodup_lookedUp h pid blp⟩
    · rcases (mem_lookedUp pkt).mp hmem with hget | ⟨i, hi, hb, hget⟩
      · exact ⟨hstored hget, mem_asked.mpr (.inl (hpid pkt hget))⟩
      · have hround := hrounds i hi pkt hget
        split_ifs at hround with hseq
        · exact ⟨hstored hget, (hasked hi hget).mpr ⟨hseq, hround ▸ hb⟩⟩
        · rw [hround] at hb
          cases hb
    · rintro ⟨hst, hin⟩
      have hget := (Sender.stored_iff h).mp hst
      rcases mem_asked.mp hin with heq | ⟨i, hi, hb, heq⟩
      · exact mem_lookedUp_zero (heq ▸ hget)
      · rw [heq] at hget
        have hround := hrounds i hi pkt hget
        rw [if_pos heq] at hround
        exact (mem_lookedUp_succ h hi hget).mpr (hround.trans hb)

end

/-- The answer to a NACK is exact for a history of sent packets if and only if the NACK is
readable in it. -/
theorem nack_response_iff {s : Sender} (hs : s.historyPackets = Slots.empty)
    (sent : List Packet) (rtx : Option Sender) (count : UInt32) (pid blp : UInt16) :
    ExactResponse (s.sendAll sent) pid blp
        ((Responder.onRtcpFbNack pid blp ⟨s.sendAll sent, rtx, count⟩).2.map Resent.packet) ↔
      NackReadable (s.sendAll sent) pid blp := by
  rw [Responder.onRtcpFbNack_packets]
  exact exactResponse_iff (Sender.filed_sendAll hs sent) pid blp

/-- The first `n` packets of a stream. -/
private def numbered (n : ℕ) : List Packet :=
  (List.range n).map fun k => ⟨false, 96, UInt16.ofNat k, 3000, 1, [0]⟩

theorem nack_response_numbered :
    ExactResponse (Sender.sendAll { pt := 96, ssrc := 1, seq := 0 } (numbered 6)) 1 3
        ((Responder.onRtcpFbNack 1 3
          ⟨Sender.sendAll { pt := 96, ssrc := 1, seq := 0 } (numbered 6), none, 0⟩).2.map
            Resent.packet) ↔
      NackReadable (Sender.sendAll { pt := 96, ssrc := 1, seq := 0 } (numbered 6)) 1 3 :=
  nack_response_iff rfl (numbered 6) none 0 1 3

/-- A NACK for 0 and 3 does not bring back 3. -/
theorem nack_bit_shifted_away :
    ¬ ∀ (s : Sender), s.historyPackets = Slots.empty →
      ∀ (sent : List Packet) (rtx : Option Sender) (count : UInt32) (pid blp : UInt16),
        ExactResponse (s.sendAll sent) pid blp
          ((Responder.onRtcpFbNack pid blp ⟨s.sendAll sent, rtx, count⟩).2.map
            Resent.packet) := by
  intro h
  have hread := (nack_response_iff rfl (numbered 6) none 0 0 4).mp
    (h { pt := 96, ssrc := 1, seq := 0 } rfl (numbered 6) none 0 0 4)
  exact absurd hread (by decide +kernel)

end CxxDeps.Rtp
