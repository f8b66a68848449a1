import Mathlib.Data.Finset.Max
import Mathlib.Data.List.Sort
import CxxDeps.Rtp.Resend

/-! The list of packets to ask for again, and `receiver::process_nack`, which packs it into
`(pid, blp)` pairs. The list is packed from its greatest number down, so a number joins the
pair before it only across the wrap, and then its bit is one too high. -/

namespace CxxDeps.Rtp

/-! ### `nack_pid_bid` -/

/-- `nack_pid_bid`. -/
structure NackPidBid where
  pid : UInt16 := 0
  bid : UInt16 := 0
  hasPid : Bool := false
  deriving DecidableEq, Repr

def NackPidBid.add (pb : NackPidBid) (seq : UInt16) : NackPidBid × Bool :=
  if !pb.hasPid then ({ pb with pid := seq, hasPid := true }, true)
  else
    let pos := seq - pb.pid
    if 16 ≤ pos then (pb, false) else ({ pb with bid := pb.bid ||| 1 <<< pos }, true)

/-! ### `process_nack` -/

/-- What a receiver asks of the other end. -/
inductive Feedback
  | nack (pid bid : UInt16)
  | keyframe
  deriving DecidableEq, Repr

/-- The media type of a receiver, and when it last asked for a key frame, in
milliseconds. -/
structure KeyframeClock where
  video : Bool
  lastRequired : ℤ := 0

namespace Receiver

/-- `remove_nack`. -/
def removeNack (seq : UInt16) (r : Receiver) : Receiver :=
  { r with nackPacks := r.nackPacks.erase seq }

/-- `clear_nack`. -/
def clearNack (r : Receiver) : Receiver := { r with nackPacks := ∅ }

/-- `nack_list`, with the greatest number first. -/
def nackList (r : Receiver) : List NackPkt :=
  (r.nackPacks.toList.map Prod.snd).insertionSort fun a b => b.seq ≤ a.seq

/-- The pairs of the loop of `process_nack`: the one that is being filled, and those that
were sent. -/
def packStep (st : NackPidBid × List Feedback) (seq : UInt16) : NackPidBid × List Feedback :=
  match st.1.add seq with
  | (pb, true) => (pb, st.2)
  | (pb, false) => ((({} : NackPidBid).add seq).1, st.2 ++ [.nack pb.pid pb.bid])

/-- The pairs that are sent for the numbers. -/
def pack (seqs : List UInt16) : List Feedback :=
  let st := seqs.foldl packStep ({}, [])
  st.2 ++ if st.1.hasPid then [.nack st.1.pid st.1.bid] else []

/-- The counter of an entry in the loop of `process_nack`. -/
def countStep (r : Receiver) (nack : NackPkt) : Receiver :=
  let count := nack.count + 1
  if r.nackMaxCount ≤ count then r.removeNack nack.seq
  else
    match r.nackPacks[nack.seq]? with
    | none => r
    | some entry => { r with nackPacks := r.nackPacks.insert nack.seq { entry with count } }

/-- `process_nack`: what is asked for, and the size of the list that is left. The pairs and
the counters do not depend on each other. -/
def processNack (now : ℤ) (clock : KeyframeClock) (r : Receiver) :
    Receiver × KeyframeClock × List Feedback × ℕ :=
  let nacks := r.nackList
  if 1000 ≤ nacks.length ∨ r.waitingForKeyframe then
    let r := { r.clearNack with reset := true }
    if clock.video ∧ 3000 ≤ now - clock.lastRequired then
      (r, { clock with lastRequired := now }, [.keyframe], 0)
    else (r, clock, [], 0)
  else
    let r := nacks.foldl countStep r
    (r, clock, pack (nacks.map NackPkt.seq), r.nackPacks.size)

/-- Every entry of the list is filed under its own number. -/
def NackFiled (r : Receiver) : Prop :=
  ∀ (seq : UInt16) (nack : NackPkt), r.nackPacks[seq]? = some nack → nack.seq = seq

/-- The pending numbers, the greatest first. -/
def pending (r : Receiver) : List UInt16 := r.nackList.map NackPkt.seq

end Receiver

/-! ### What a pair stands for -/

/-- The number is asked for. -/
def Denotes (out : List Feedback) (seq : UInt16) : Prop :=
  ∃ pid bid, .nack pid bid ∈ out ∧ seq ∈ asked pid bid

/-- Numbers in descending order, no two neighbours of which are as far apart as only
numbers on both sides of the wrap are. -/
def NoWrap (seqs : List UInt16) : Prop := seqs.IsChain fun a b => a.toNat - b.toNat < 65521

instance (seqs : List UInt16) : Decidable (NoWrap seqs) := by
  unfold NoWrap
  infer_instance

namespace Receiver

theorem toNat_sub_of_lt {a b : UInt16} (h : b.toNat < a.toNat) :
    (b - a).toNat = 65536 - (a.toNat - b.toNat) := by
  have ha := a.toNat_lt
  rw [UInt16.toNat_sub]
  omega

theorem sixteen_le {x : UInt16} : 16 ≤ x ↔ 16 ≤ x.toNat := UInt16.le_iff_toNat_le

/-- A smaller number starts a pair of its own, unless the wrap is between them. -/
theorem packStep_next {a b : UInt16} (hlt : b.toNat < a.toNat) (hgap : a.toNat - b.toNat < 65521)
    (bid : UInt16) (out : List Feedback) :
    packStep (⟨a, bid, true⟩, out) b = (⟨b, 0, true⟩, out ++ [.nack a bid]) := by
  have hpos : 16 ≤ b - a := by
    rw [sixteen_le, toNat_sub_of_lt hlt]
    omega
  simp [packStep, NackPidBid.add, hpos]

theorem packStep_join {a b : UInt16} (hgap : 65521 ≤ a.toNat - b.toNat) (bid : UInt16)
    (out : List Feedback) :
    packStep (⟨a, bid, true⟩, out) b = (⟨a, bid ||| 1 <<< (b - a), true⟩, out) := by
  have hpos : ¬ 16 ≤ b - a := by
    have ha := a.toNat_lt
    rw [sixteen_le, toNat_sub_of_lt (by omega)]
    omega
  simp [packStep, NackPidBid.add, hpos]

/-- The pairs that are sent when the loop has come so far. -/
def packed (st : NackPidBid × List Feedback) : List Feedback :=
  st.2 ++ if st.1.hasPid then [.nack st.1.pid st.1.bid] else []

/-- The numbers in the descending order of the list. -/
def Descending (seqs : List UInt16) : Prop := seqs.Pairwise fun a b => b.toNat < a.toNat

theorem pack_cons (a : UInt16) (t : List UInt16) :
    pack (a :: t) = packed (t.foldl packStep (⟨a, 0, true⟩, [])) := rfl

/-- Without a wrap every number is sent in a pair of its own. -/
theorem packed_noWrap {a : UInt16} {t : List UInt16} (hd : Descending (a :: t))
    (hw : NoWrap (a :: t)) (out : List Feedback) :
    packed (t.foldl packStep (⟨a, 0, true⟩, out)) =
      out ++ (a :: t).map fun seq => .nack seq 0 := by
  induction t generalizing a out with
  | nil => rfl
  | cons b t ih =>
    obtain ⟨hhead, htail⟩ := List.pairwise_cons.mp hd
    obtain ⟨hgap, hrest⟩ := List.isChain_cons_cons.mp hw
    rw [List.foldl_cons, packStep_next (hhead b List.mem_cons_self) hgap, ih htail hrest]
    simp

/-- Across the wrap all the numbers that are left join the pair, each with the bit of its
distance. -/
theorem foldl_join {a : UInt16} {t : List UInt16} (ht : ∀ s ∈ t, 65521 ≤ a.toNat - s.toNat)
    (bid : UInt16) (out : List Feedback) :
    ∃ bid', t.foldl packStep (⟨a, bid, true⟩, out) = (⟨a, bid', true⟩, out) ∧
      ∀ i, bid'.toNat.testBit i → bid.toNat.testBit i ∨
        ∃ s ∈ t, i = 65536 - (a.toNat - s.toNat) := by
  induction t generalizing bid with
  | nil => exact ⟨bid, rfl, fun _ h => .inl h⟩
  | cons b t ih =>
    obtain ⟨hb, ht⟩ := List.forall_mem_cons.mp ht
    obtain ⟨bid', hfold, hbits⟩ := ih ht (bid ||| 1 <<< (b - a))
    refine ⟨bid', by rw [List.foldl_cons, packStep_join hb, hfold], fun i hi => ?_⟩
    rcases hbits i hi with h | ⟨s, hs, heq⟩
    · rw [UInt16.toNat_or, Nat.testBit_or, Bool.or_eq_true] at h
      rcases h with h | h
      · exact .inl h
      · have hlt : b.toNat < a.toNat := by omega
        have hpos := toNat_sub_of_lt hlt
        have ha := a.toNat_lt
        have hmod : (b - a).toNat % 16 = (b - a).toNat := Nat.mod_eq_of_lt (by omega)
        have hpow : 2 ^ (b - a).toNat < 2 ^ 16 :=
          Nat.pow_lt_pow_right (by omega) (by omega)
        have hbit : (1 <<< (b - a) : UInt16).toNat = 2 ^ (b - a).toNat := by
          rw [UInt16.toNat_shiftLeft, hmod, show UInt16.toNat 1 = 1 from rfl, Nat.shiftLeft_eq,
            Nat.one_mul, Nat.mod_eq_of_lt hpow]
        rw [hbit, Nat.testBit_two_pow, decide_eq_true_eq] at h
        exact .inr ⟨b, List.mem_cons_self, by omega⟩
    · exact .inr ⟨s, List.mem_cons_of_mem b hs, heq⟩

theorem asked_zero {pid seq : UInt16} : seq ∈ asked pid 0 ↔ seq = pid := by
  simp [mem_asked]

/-- Across a wrap the least number is asked for by none of the pairs. -/
theorem packed_wrap {a : UInt16} {t : List UInt16} (hd : Descending (a :: t))
    (hw : ¬ NoWrap (a :: t)) (out : List Feedback) :
    ∃ m ∈ t, ∀ pid bid, .nack pid bid ∈ packed (t.foldl packStep (⟨a, 0, true⟩, out)) →
      .nack pid bid ∈ out ∨ m ∉ asked pid bid := by
  induction t generalizing a out with
  | nil => exact absurd (List.IsChain.singleton a) hw
  | cons b t ih =>
    obtain ⟨hhead, htail⟩ := List.pairwise_cons.mp hd
    have hlt := hhead b List.mem_cons_self
    by_cases hgap : a.toNat - b.toNat < 65521
    · have hrest : ¬ NoWrap (b :: t) := fun h => hw (List.isChain_cons_cons.mpr ⟨hgap, h⟩)
      obtain ⟨m, hm, hpairs⟩ := ih htail hrest (out ++ [.nack a 0])
      refine ⟨m, List.mem_cons_of_mem b hm, fun pid bid hmem => ?_⟩
      rw [List.foldl_cons, packStep_next hlt hgap] at hmem
      rcases hpairs pid bid hmem with h | h
      · rcases List.mem_append.mp h with h | h
        · exact .inl h
        · obtain ⟨rfl, rfl⟩ := Feedback.nack.inj (List.mem_singleton.mp h)
          refine .inr fun hin => ?_
          have hma := hhead m (List.mem_cons_of_mem b hm)
          rw [asked_zero.mp hin] at hma
          omega
      · exact .inr h
    · -- the wrap: everything that is left joins the pair of `a`
      have hjoin : ∀ s ∈ b :: t, 65521 ≤ a.toNat - s.toNat := by
        intro s hs
        rcases List.mem_cons.mp hs with rfl | hs
        · omega
        · have := (List.pairwise_cons.mp htail).1 s hs
          omega
      obtain ⟨bid', hfold, hbits⟩ := foldl_join hjoin 0 out
      obtain ⟨m, hm, hmin⟩ := (b :: t).toFinset.exists_min_image UInt16.toNat ⟨b, by simp⟩
      have hm' : m ∈ b :: t := List.mem_toFinset.mp hm
      refine ⟨m, hm', fun pid bid hmem => ?_⟩
      rw [hfold] at hmem
      rcases List.mem_append.mp hmem with h | h
      · exact .inl h
      · obtain ⟨rfl, rfl⟩ := Feedback.nack.inj (List.mem_singleton.mp h)
        refine .inr fun hin => ?_
        have hma := hhead m hm'
        rcases mem_asked.mp hin with heq | ⟨i, hi, hbit, heq⟩
        · rw [heq] at hma
          omega
        · rcases hbits i hbit with h | ⟨s, hs, hpos⟩
          · simp at h
          · have hsm := hmin s (List.mem_toFinset.mpr hs)
            have hjs := hjoin s hs
            have ha := pid.toNat_lt
            have hmn := congrArg UInt16.toNat heq
            rw [toNat_add_ofNat pid (by omega)] at hmn
            omega

/-- What is sent for a descending list stands for its numbers exactly if it has no wrap. -/
theorem pack_exact_iff {seqs : List UInt16} (hd : Descending seqs) :
    (∀ seq, Denotes (pack seqs) seq ↔ seq ∈ seqs) ↔ NoWrap seqs := by
  cases seqs with
  | nil => simp [Denotes, pack, NoWrap]
  | cons a t =>
    constructor
    · intro h
      by_contra hw
      obtain ⟨m, hm, hpairs⟩ := packed_wrap hd hw []
      obtain ⟨pid, bid, hmem, hin⟩ := (h m).mpr (List.mem_cons_of_mem a hm)
      rcases hpairs pid bid hmem with h | h
      · cases h
      · exact h hin
    · intro hw seq
      have hpack := packed_noWrap hd hw []
      rw [Denotes, pack_cons, hpack, List.nil_append]
      constructor
      · rintro ⟨pid, bid, hmem, hin⟩
        obtain ⟨s, hs, heq⟩ := List.mem_map.mp hmem
        obtain ⟨rfl, rfl⟩ := Feedback.nack.inj heq
        rwa [asked_zero.mp hin]
      · intro hs
        exact ⟨seq, 0, List.mem_map.mpr ⟨seq, hs, rfl⟩, asked_zero.mpr rfl⟩

/-! ### The list of a receiver -/

theorem mem_nackList {r : Receiver} {nack : NackPkt} :
    nack ∈ r.nackList ↔ ∃ seq : UInt16, r.nackPacks[seq]? = some nack := by
  rw [nackList, List.mem_insertionSort, List.mem_map]
  constructor
  · rintro ⟨⟨seq, _⟩, hmem, rfl⟩
    exact ⟨seq, Std.ExtTreeMap.mem_toList_iff_getElem?_eq_some.mp hmem⟩
  · rintro ⟨seq, hget⟩
    exact ⟨(seq, nack), Std.ExtTreeMap.mem_toList_iff_getElem?_eq_some.mpr hget, rfl⟩

theorem length_nackList (r : Receiver) : r.nackList.length = r.nackPacks.size := by
  rw [nackList, List.length_insertionSort, List.length_map, Std.ExtTreeMap.length_toList]

/-- The pending numbers are those of the list. -/
theorem mem_pending {r : Receiver} (h : r.NackFiled) {seq : UInt16} :
    seq ∈ r.pending ↔ seq ∈ r.nackPacks := by
  rw [pending, List.mem_map, ← Std.ExtTreeMap.isSome_getElem?_iff_mem]
  constructor
  · rintro ⟨nack, hnack, rfl⟩
    obtain ⟨k, hget⟩ := mem_nackList.mp hnack
    rw [h k nack hget, hget]
    rfl
  · intro hsome
    obtain ⟨nack, hget⟩ := Option.isSome_iff_exists.mp hsome
    exact ⟨nack, mem_nackList.mpr ⟨seq, hget⟩, h seq nack hget⟩

theorem descending_pending {r : Receiver} (h : r.NackFiled) : Descending r.pending := by
  have hsorted : r.nackList.Pairwise fun a b => b.seq ≤ a.seq := by
    have htrans : IsTrans NackPkt fun a b => b.seq ≤ a.seq :=
      ⟨fun _ _ _ hab hbc => UInt16.le_trans hbc hab⟩
    have htotal : Std.Total fun a b : NackPkt => b.seq ≤ a.seq :=
      ⟨fun a b => UInt16.le_total b.seq a.seq⟩
    exact List.pairwise_insertionSort _ _
  have hnodup : r.pending.Nodup := by
    have hkeys : (r.nackPacks.toList.map fun e => e.2.seq) = r.nackPacks.keys := by
      rw [← Std.ExtTreeMap.map_fst_toList_eq_keys]
      refine List.map_congr_left fun e he => ?_
      exact h e.1 e.2 (Std.ExtTreeMap.mem_toList_iff_getElem?_eq_some.mp he)
    have hperm : r.pending.Perm r.nackPacks.keys := by
      have hmap : (r.nackPacks.toList.map fun e => e.2.seq) =
          (r.nackPacks.toList.map Prod.snd).map NackPkt.seq := by simp
      rw [← hkeys, hmap]
      exact (List.perm_insertionSort _ _).map _
    exact hperm.nodup_iff.mpr Std.ExtTreeMap.nodup_keys
  have hle : r.pending.Pairwise fun a b => b ≤ a := List.pairwise_map.mpr hsorted
  refine (hle.and hnodup).imp fun {a b} hab => ?_
  have hne : b.toNat ≠ a.toNat := fun heq => hab.2 (UInt16.toNat_inj.mp heq).symm
  have := UInt16.le_iff_toNat_le.mp hab.1
  omega

/-- What is sent stands for exactly the pending numbers if and only if no two neighbours
among them lie on both sides of the wrap. -/
theorem nack_encoding_iff {r : Receiver} (hf : r.NackFiled) (hfull : r.nackPacks.size < 1000)
    (hkey : r.waitingForKeyframe = false) (now : ℤ) (clock : KeyframeClock) :
    (∀ seq, Denotes (r.processNack now clock).2.2.1 seq ↔ seq ∈ r.nackPacks) ↔
      NoWrap r.pending := by
  have hout : (r.processNack now clock).2.2.1 = pack r.pending := by
    have hlist : ¬ (1000 ≤ r.nackList.length ∨ r.waitingForKeyframe = true) := by
      rw [length_nackList, hkey]
      simp only [Bool.false_eq_true, or_false]
      omega
    rw [processNack]
    simp only [if_neg hlist]
    rfl
  rw [hout, ← pack_exact_iff (descending_pending hf)]
  apply forall_congr'
  intro seq
  rw [mem_pending hf]

/-! ### The entries keep their numbers -/

/-- The packet is ahead of `end_seq_` by more than one and does not restart the window. -/
def skips (r : Receiver) (p : Packet) : Bool :=
  !r.restarts p && !Sn.aheadOf 16 0 (u16 r.endSeq) p.seq.toNat &&
    decide (1 < Sn.forwardDiff 16 0 (u16 r.endSeq) p.seq.toNat)

/-- `add_nack` reads no more of a receiver than this. -/
theorem addNack_nackPacks_congr {r r' : Receiver} (b e : ℕ) (hpacks : r'.nackPacks = r.nackPacks)
    (hssrc : r'.ssrc = r.ssrc) (hmax : r'.nackMaxCount = r.nackMaxCount) :
    (r'.addNack b e).nackPacks = (r.addNack b e).nackPacks := by
  unfold addNack
  rw [hmax]
  split
  · exact hpacks
  · simp only [hpacks, hssrc]

@[simp] theorem addNack_nackMaxCount (r : Receiver) (b e : ℕ) :
    (r.addNack b e).nackMaxCount = r.nackMaxCount := by
  unfold addNack
  split <;> rfl

theorem advanceEnd_nackPacks (r : Receiver) (p : Packet) :
    (r.advanceEnd p).nackPacks =
      if !Sn.aheadOf 16 0 (u16 r.endSeq) p.seq.toNat &&
          decide (1 < Sn.forwardDiff 16 0 (u16 r.endSeq) p.seq.toNat)
      then (r.addNack (u16 (r.endSeq + 1)) p.seq.toNat).nackPacks
      else r.nackPacks := by
  unfold advanceEnd
  cases hahead : Sn.aheadOf 16 0 (u16 r.endSeq) p.seq.toNat with
  | true => simp
  | false => by_cases hdiff : 1 < Sn.forwardDiff 16 0 (u16 r.endSeq) p.seq.toNat <;> simp [hdiff]

theorem advanceEnd_nackMaxCount (r : Receiver) (p : Packet) :
    (r.advanceEnd p).nackMaxCount = r.nackMaxCount := by
  unfold advanceEnd
  dsimp only
  split_ifs <;> simp

/-- Only a packet that skips numbers changes the list. -/
theorem insertPacket_nackPacks (r : Receiver) (p : Packet) (now : ℤ) :
    (r.insertPacket p now).nackPacks =
      if r.skips p then
        (addNack { r with ssrc := p.ssrc } (u16 (r.endSeq + 1)) p.seq.toNat).nackPacks
      else r.nackPacks := by
  have hdrop (r : Receiver) : r.dropFull.nackPacks = r.nackPacks := by
    unfold dropFull
    split <;> rfl
  rw [insertPacket, hdrop, advanceEnd_nackPacks]
  by_cases hr : restarts { r with ssrc := p.ssrc } p = true
  · have hr' : r.restarts p = true := hr
    have hself : Sn.forwardDiff 16 0 p.seq.toNat p.seq.toNat = 0 := by
      simp [Sn.forwardDiff]
    have hend : u16 (((restart { r with ssrc := p.ssrc } p now).store p).endSeq) = p.seq.toNat :=
      u16_natCast p.seq.toNat_lt
    rw [if_pos hr, hend, hself, if_neg (by simp), skips, hr', if_neg (by simp)]
    rfl
  · have hr' : r.restarts p = false := Bool.eq_false_iff.mpr hr
    rw [if_neg hr, skips, hr']
    simp only [Bool.not_false, Bool.true_and]
    split
    · next h =>
      rw [if_pos (by exact h)]
      exact addNack_nackPacks_congr _ _ rfl rfl rfl
    · next h =>
      rw [if_neg (by exact h)]
      rfl

theorem insertPacket_nackMaxCount (r : Receiver) (p : Packet) (now : ℤ) :
    (r.insertPacket p now).nackMaxCount = r.nackMaxCount := by
  have hdrop (r : Receiver) : r.dropFull.nackMaxCount = r.nackMaxCount := by
    unfold dropFull
    split <;> rfl
  rw [insertPacket, hdrop, advanceEnd_nackMaxCount]
  split <;> rfl

/-- `add_nack` files what it adds, and leaves the entries that are there. -/
theorem getElem?_addNack {r : Receiver} (h : 0 < r.nackMaxCount) (b e : ℕ) (seq : UInt16) :
    (r.addNack b e).nackPacks[seq]? = r.nackPacks[seq]?.or
      (if seq ∈ (Sn.numbers b e).map UInt16.ofNat then some ⟨r.ssrc, seq, r.nackMaxCount⟩
        else none) := by
  have hfold (l : List ℕ) (m : Std.ExtTreeMap UInt16 NackPkt compare) :
      (l.foldl (fun m i => m.insertIfNew (UInt16.ofNat i)
        ⟨r.ssrc, UInt16.ofNat i, r.nackMaxCount⟩) m)[seq]? = m[seq]?.or
          (if seq ∈ l.map UInt16.ofNat then some ⟨r.ssrc, seq, r.nackMaxCount⟩ else none) := by
    induction l generalizing m with
    | nil => simp
    | cons i l ih =>
      rw [List.foldl_cons, ih, Std.ExtTreeMap.getElem?_insertIfNew]
      simp only [Std.LawfulEqCmp.compare_eq_iff_eq, List.map_cons, List.mem_cons]
      by_cases hi : UInt16.ofNat i = seq
      · subst hi
        by_cases hm : UInt16.ofNat i ∈ m <;> simp [hm]
      · have hne : seq ≠ UInt16.ofNat i := fun heq => hi heq.symm
        simp [hi, hne]
  rw [addNack, if_neg (by omega)]
  exact hfold _ _

theorem nackFiled_insertPacket {r : Receiver} (h : r.NackFiled) (p : Packet) (now : ℤ) :
    (r.insertPacket p now).NackFiled := by
  intro seq nack hget
  rw [insertPacket_nackPacks] at hget
  split at hget
  · by_cases hmax : 0 < r.nackMaxCount
    · have hmax' : 0 < { r with ssrc := p.ssrc }.nackMaxCount := hmax
      rw [getElem?_addNack hmax', Option.or_eq_some_iff] at hget
      rcases hget with hold | ⟨-, hnew⟩
      · exact h seq nack hold
      · split at hnew
        · rw [← Option.some.inj hnew]
        · cases hnew
    · rw [addNack, if_pos (by dsimp only; omega)] at hget
      exact h seq nack hget
  · exact h seq nack hget

end Receiver

/-- A receiver that was sent the packets with these numbers. -/
private def sentNumbers (seqs : List UInt16) : Receiver :=
  seqs.foldl (fun r seq => r.insertPacket ⟨false, 0, seq, 0, 1, [0]⟩ 0) { ssrc := 1 }

private theorem sentNumbers_filed (seqs : List UInt16) : (sentNumbers seqs).NackFiled := by
  have hfold (seqs : List UInt16) (r : Receiver) (h : r.NackFiled) :
      (seqs.foldl (fun r seq => r.insertPacket ⟨false, 0, seq, 0, 1, [0]⟩ 0) r).NackFiled := by
    induction seqs generalizing r with
    | nil => exact h
    | cons seq seqs ih => exact ih _ (Receiver.nackFiled_insertPacket h _ _)
  exact hfold seqs _ fun _ _ hget => by simp at hget

theorem nack_encoding_sent :
    (∀ seq, Denotes ((sentNumbers [5, 8]).processNack 0 ⟨false, 0⟩).2.2.1 seq ↔
        seq ∈ (sentNumbers [5, 8]).nackPacks) ↔ NoWrap (sentNumbers [5, 8]).pending :=
  Receiver.nack_encoding_iff (sentNumbers_filed _) (by decide +kernel) (by decide +kernel) 0
    ⟨false, 0⟩

/-- After a loss across the wrap the wrong numbers are asked for. -/
theorem wrap_asks_for_others :
    ¬ ∀ r : Receiver, r.NackFiled → r.nackPacks.size < 1000 → r.waitingForKeyframe = false →
      ∀ now clock seq, Denotes (r.processNack now clock).2.2.1 seq ↔ seq ∈ r.nackPacks := by
  intro h
  have hfull : (sentNumbers [65534, 2]).nackPacks.size < 1000 := by decide +kernel
  have hkey : (sentNumbers [65534, 2]).waitingForKeyframe = false := by decide +kernel
  have hexact := h _ (sentNumbers_filed [65534, 2]) hfull hkey 0 ⟨false, 0⟩
  have hwrap := (Receiver.nack_encoding_iff (sentNumbers_filed _) hfull hkey 0 ⟨false, 0⟩).mp hexact
  exact absurd hwrap (by decide +kernel)

end CxxDeps.Rtp
