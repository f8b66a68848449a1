import CxxDeps.H264.AnnexB
import CxxDeps.H264.Window
import CxxDeps.Ps.Receiver
import CxxDeps.Ps.Sender

/-! A frame sent as a program stream. No NAL unit has a start code inside, so the sender
writes a pack header and nothing else, in one packet without a marker; the receiver finds
no block in what is made of such packets. -/

namespace CxxDeps.Ps

open Rtp
open H264 (noWindow takeSlots deref annexB Delimited ZeroesOk findNals)

/-! ### What is sent -/

theorem findNalStart_eq_none {pre suf : List UInt8} (h : ¬ [0, 0, 1] <:+: pre ++ suf) {z : ℤ}
    (hz : ZeroesOk z pre) (i : ℕ) : findNalStart suf i z = none := by
  induction suf generalizing pre z i with
  | nil => rfl
  | cons b suf ih =>
    have hsplit : pre ++ b :: suf = pre ++ [b] ++ suf := by simp
    rw [findNalStart]
    split_ifs with hb hcode
    · subst hb
      exact ih (hsplit ▸ h) hz.inc _
    · obtain ⟨rfl, h2⟩ := hcode
      obtain ⟨p, rfl⟩ := hz.two h2
      exact absurd ⟨p, suf, by simp⟩ h
    · exact ih (hsplit ▸ h) (H264.zeroesOk_zero _) _

theorem addNal_of_delimited {nal : List UInt8} (h : Delimited nal) (ts : UInt64)
    (frame : PsFrame) : addNal ts frame nal = some frame := by
  have hcode : ¬ [0, 0, 1] <:+: [] ++ nal := h.noStartCode
  have hnone : findNalStart nal 0 0 = none := findNalStart_eq_none hcode (H264.zeroesOk_zero _) 0
  rw [addNal, hnone]

theorem foldlM_addNal {nals : List (List UInt8)} (h : ∀ nal ∈ nals, Delimited nal) (ts : UInt64)
    (frame : PsFrame) : nals.foldlM (addNal ts) frame = some frame := by
  induction nals with
  | nil => rfl
  | cons nal nals ih =>
    obtain ⟨hnal, hnals⟩ := List.forall_mem_cons.mp h
    rw [List.foldlM_cons, addNal_of_delimited hnal]
    exact ih hnals

/-- A pack header with six bytes of stuffing. -/
structure IsHeader (data : List UInt8) : Prop where
  length : data.length = 20
  startCode : data.getD 3 0 = packHeader
  stuffing : data.getD 13 0 &&& 0x07 = 6

theorem isHeader_emptyFrame (ts : UInt64) : IsHeader (emptyFrame ts).serialize where
  length := rfl
  startCode := rfl
  stuffing := by
    show (6 : UInt64).toUInt8 &&& 0x07 = 6
    decide

/-- A header goes out in one packet. -/
theorem sendRtpFrame_header (share : ℕ → ℕ → UInt32 → UInt32) {frame : List UInt8}
    (h : IsHeader frame) (duration : UInt32) (s : Sender) :
    (sendRtpFrame share frame duration (frame.length + 1) s 0).2 = [s.newPacket false frame] := by
  have hlen := h.length
  have hlast (s₁ : Sender) : sendRtpFrame share frame duration frame.length s₁ (0 + 1) =
      (s₁, []) := by
    rw [hlen, sendRtpFrame, if_neg (by simp [maxRtpPayloadSize, hlen])]
  rw [sendRtpFrame, if_pos (by omega)]
  simp only [hlast, maxRtpPayloadSize, Nat.zero_mul, Nat.zero_add, Nat.sub_zero, List.drop_zero]
  rw [if_neg (by omega), List.take_length]

/-- Whatever its NAL units are, a frame is sent as one pack header without a marker. -/
theorem sendFrame_annexB (share : ℕ → ℕ → UInt32 → UInt32) (s : Sender)
    {nals : List (Bool × List UInt8)} (h : ∀ n ∈ nals, Delimited n.2) (duration : UInt32) :
    ∃ s' pkt, sendFrame share s (annexB nals) duration = some (s', [pkt]) ∧ pkt.m = false ∧
      IsHeader pkt.payload := by
  have hnals : ∀ nal ∈ nals.map Prod.snd, Delimited nal := by
    intro nal hnal
    obtain ⟨n, hn, rfl⟩ := List.mem_map.mp hnal
    exact h n hn
  have hheader := isHeader_emptyFrame (s.timestamp + duration).toUInt64
  have hsent := sendRtpFrame_header share hheader duration s
  rw [sendFrame, H264.findNals_annexB h, sendNal, foldlM_addNal hnals, Option.map_some]
  exact ⟨_, s.newPacket false _, congrArg some (Prod.ext rfl hsent), rfl, hheader⟩

/-! ### What is made of it -/

/-- Any number of pack headers has no block. -/
theorem readBlocks_headers {headers : List (List UInt8)} (h : ∀ data ∈ headers, IsHeader data)
    (n : ℕ) : (readBlocks n headers.flatten).getD [] = [] := by
  induction headers generalizing n with
  | nil => cases n <;> rfl
  | cons data headers ih =>
    obtain ⟨hdata, hrest⟩ := List.forall_mem_cons.mp h
    have hlen := hdata.length
    cases n with
    | zero => rfl
    | succ n =>
      have hcode : (data ++ headers.flatten).getD 3 0 = packHeader := by
        rw [← hdata.startCode]
        simp [List.getD_eq_getElem?_getD, List.getElem?_append, hlen]
      have hstuffing : ((data ++ headers.flatten).drop 4).getD 9 0 &&& 0x07 = 6 := by
        rw [← hdata.stuffing]
        simp [List.getD_eq_getElem?_getD, List.getElem?_append, hlen]
      have hpsh : Psh.deserialize ((data ++ headers.flatten).drop 4) = 0 ∨
          4 + Psh.deserialize ((data ++ headers.flatten).drop 4) = data.length := by
        simp only [Psh.deserialize, hstuffing, hlen]
        split_ifs
        · exact .inl rfl
        · exact .inl rfl
        · exact .inr rfl
      rw [List.flatten_cons, readBlocks, if_neg (by simp; omega), if_pos hcode]
      simp only
      split_ifs with hc
      · rfl
      · rw [hpsh.resolve_left hc, List.drop_left]
        exact ih hrest n

theorem combinFrame_headers {pkts : List Packet} (h : ∀ pkt ∈ pkts, IsHeader pkt.payload)
    (r : Receiver) : combinFrame r pkts = (r, []) := by
  have hblocks : (PsFrame.deserialize (pkts.flatMap Packet.payload)).getD [] = [] := by
    rw [List.flatMap_def]
    apply readBlocks_headers
    intro data hdata
    obtain ⟨pkt, hpkt, rfl⟩ := List.mem_map.mp hdata
    exact h pkt hpkt
  simp only [combinFrame, hblocks]
  rfl

/-! ### The receiver -/

/-- The window holds nothing but pack headers. -/
def Barren (r : Receiver) : Prop := ∀ i pkt, r.recvPacks i = some pkt → IsHeader pkt.payload

theorem barren_insertPacket {r : Receiver} (h : Barren r) {pkt : Packet}
    (hpkt : IsHeader pkt.payload) (now : ℤ) : Barren (r.insertPacket pkt now) := by
  have hset (w : Slots) (hw : ∀ i p, w i = some p → IsHeader p.payload)
      (i : Fin packetBufferSize) (p : Packet)
      (hp : w.set (slot pkt.seq.toNat) (some pkt) i = some p) :
      IsHeader p.payload := by
    unfold Slots.set at hp
    split_ifs at hp
    · cases hp
      exact hpkt
    · exact hw i p hp
  unfold Barren
  cases hr : r.restarts pkt with
  | true =>
    rw [(Receiver.insertPacket_of_restarts now hr).2.2]
    exact hset Slots.empty (fun i p hp => by simp at hp)
  | false =>
    rw [(Receiver.insertPacket_of_not_restarts now hr).2.2]
    exact hset r.recvPacks h

theorem takeSlots_barren {w : Slots} (h : ∀ i pkt, w i = some pkt → IsHeader pkt.payload)
    (idx : List (Fin packetBufferSize)) {pkts : List Packet}
    (hd : deref (takeSlots w idx).1 = some pkts) : ∀ pkt ∈ pkts, IsHeader pkt.payload := by
  induction idx generalizing w pkts with
  | nil =>
    cases hd
    simp
  | cons i idx ih =>
    simp only [takeSlots] at hd
    cases hw : w i with
    | none => simp [hw, deref] at hd
    | some p =>
      simp only [hw, deref] at hd
      obtain ⟨rest, hrest, rfl⟩ := Option.map_eq_some_iff.mp hd
      have hw' : ∀ j pkt, w.set i none j = some pkt → IsHeader pkt.payload := by
        intro j pkt hj
        unfold Slots.set at hj
        split_ifs at hj
        exact h j pkt hj
      exact List.forall_mem_cons.mpr ⟨h i p hw, ih hw' hrest⟩

/-- A frame taken from the window is made of pack headers, and so is what stays. -/
theorem findAFrame_barren {r r' : Receiver} (h : Barren r) {now : ℤ}
    {slots : List (Option Packet)} (hf : findAFrame r now = some (r', slots)) :
    Barren r' ∧ ∀ pkts, deref slots = some pkts → ∀ pkt ∈ pkts, IsHeader pkt.payload := by
  unfold findAFrame at hf
  split_ifs at hf
  split at hf
  · cases hf
  · split_ifs at hf
    cases hf
    refine ⟨fun i pkt hi => ?_, fun pkts hd => takeSlots_barren h _ hd⟩
    simp only [H264.takeSlots_snd] at hi
    split_ifs at hi
    exact h i pkt hi

theorem drainFrames_barren {n : ℕ} {r r' : Receiver} (h : Barren r) {now : ℤ}
    {frames : List Frame} (hd : drainFrames now n r = some (r', frames)) :
    Barren r' ∧ frames = [] := by
  induction n generalizing r r' frames with
  | zero =>
    cases hd
    exact ⟨h, rfl⟩
  | succ n ih =>
    rw [drainFrames] at hd
    cases hf : findAFrame r now with
    | none =>
      rw [hf] at hd
      cases hd
      exact ⟨h, rfl⟩
    | some q =>
      obtain ⟨r₁, slots⟩ := q
      obtain ⟨h₁, hpkts⟩ := findAFrame_barren h hf
      rw [hf] at hd
      simp only [Option.bind_eq_bind, Option.pure_def] at hd
      obtain ⟨pkts, hderef, hd⟩ := Option.bind_eq_some_iff.mp hd
      rw [combinFrame_headers (hpkts pkts hderef)] at hd
      obtain ⟨⟨r₂, rest⟩, hrest, hd⟩ := Option.bind_eq_some_iff.mp hd
      obtain ⟨h₂, rfl⟩ := ih h₁ hrest
      cases hd
      exact ⟨h₂, rfl⟩

theorem dropLoop_barren {r : Receiver} (h : Barren r) (now : ℤ) (ts : UInt32) (i : ℕ)
    (js : List ℕ) : Barren (dropLoop now r ts i js).1 := by
  induction js generalizing r ts i with
  | nil => exact h
  | cons j js ih =>
    rw [dropLoop]
    split
    · exact ih h _ _
    · have h' : Barren { r with recvPacks := r.recvPacks.set (slot j) none } := by
        intro k pkt hk
        simp only [Slots.set] at hk
        split_ifs at hk
        exact h k pkt hk
      simp only
      split_ifs
      · exact h
      · exact h'
      · exact ih h' _ _
      · exact h
      · exact h'
      · exact ih h' _ _

theorem checkForDrop_barren {r : Receiver} (h : Barren r) (now : ℤ) :
    Barren (checkForDrop r now) := by
  unfold checkForDrop
  split_ifs
  · exact h
  · exact h
  · exact dropLoop_barren h now 0 _ _

/-- Nothing comes of pack headers, in this call or a later one. -/
theorem insertPacket_barren {r r' : Receiver} (h : Barren r) {pkt : Packet}
    (hpkt : IsHeader pkt.payload) {now : ℤ} {frames : List Frame}
    (hi : insertPacket r pkt now = some (r', frames)) : Barren r' ∧ frames = [] := by
  simp only [insertPacket, Option.bind_eq_bind, Option.pure_def] at hi
  obtain ⟨⟨r₁, out⟩, hd, hi⟩ := Option.bind_eq_some_iff.mp hi
  obtain ⟨h₁, rfl⟩ := drainFrames_barren (barren_insertPacket h hpkt now) hd
  cases hi
  exact ⟨checkForDrop_barren h₁ now, rfl⟩

theorem receive_barren {r r' : Receiver} (h : Barren r) {pkts : List (Packet × ℤ)}
    (hpkts : ∀ p ∈ pkts, IsHeader p.1.payload) {frames : List Frame}
    (hr : receive r pkts = some (r', frames)) : frames = [] := by
  induction pkts generalizing r r' frames with
  | nil =>
    cases hr
    rfl
  | cons p pkts ih =>
    obtain ⟨hp, hrest⟩ := List.forall_mem_cons.mp hpkts
    rw [receive] at hr
    simp only [Option.bind_eq_bind, Option.pure_def] at hr
    obtain ⟨⟨r₁, out⟩, hi, hr⟩ := Option.bind_eq_some_iff.mp hr
    obtain ⟨h₁, rfl⟩ := insertPacket_barren h hp hi
    obtain ⟨⟨r₂, more⟩, hmore, hr⟩ := Option.bind_eq_some_iff.mp hr
    cases hr
    exact ih h₁ hrest hmore

/-! ### The round trip -/

/-- The packets of a frame give one frame with the same NAL units, when `clock` is read
as they come in. -/
def RoundTrips (share : ℕ → ℕ → UInt32 → UInt32) (s : Sender) (r : Receiver)
    (nals : List (Bool × List UInt8)) (duration : UInt32) (clock : ℕ → ℤ) : Prop :=
  ∃ s' pkts r' frame, sendFrame share s (annexB nals) duration = some (s', pkts) ∧
    receive r (pkts.zipIdx.map fun p => (p.1, clock p.2)) = some (r', [frame]) ∧
    findNals frame.data (frame.data.length + 1) 0 = nals.map Prod.snd

/-- The loops of the sender end and send something, but no frame makes the round trip,
with whatever else of this kind the receiver still holds. -/
theorem ps_never_round_trips (share : ℕ → ℕ → UInt32 → UInt32) (s : Sender) (r : Receiver)
    (hr : Barren r) (nals : List (Bool × List UInt8)) (hn : ∀ n ∈ nals, Delimited n.2)
    (duration : UInt32) (clock : ℕ → ℤ) :
    (∃ s' pkt, sendFrame share s (annexB nals) duration = some (s', [pkt])) ∧
      ¬ RoundTrips share s r nals duration clock := by
  obtain ⟨s', pkt, hsend, -, hheader⟩ := sendFrame_annexB share s hn duration
  refine ⟨⟨s', pkt, hsend⟩, ?_⟩
  rintro ⟨s₁, pkts, r', frame, hsend₁, hreceive, -⟩
  obtain ⟨-, rfl⟩ := Prod.mk.inj (Option.some.inj (hsend.symm.trans hsend₁))
  have hpkts : ∀ p ∈ [pkt].zipIdx.map fun p => (p.1, clock p.2), IsHeader p.1.payload := by
    intro p hp
    cases List.mem_singleton.mp hp
    exact hheader
  cases receive_barren hr hpkts hreceive

theorem barren_fresh (ssrc : UInt32) : Barren { ssrc } := by
  intro i pkt hi
  simp at hi

private theorem delimited_slice : Delimited [0x65, 0x88, 0x80] := ⟨by decide, ⟨_, rfl, by decide⟩⟩

theorem ps_never_round_trips_slice :
    (∃ s' pkt, sendFrame (fun _ _ d => d) { pt := 96, ssrc := 1, seq := 5 }
        (annexB [(true, [0x65, 0x88, 0x80])]) 3000 = some (s', [pkt])) ∧
      ¬ RoundTrips (fun _ _ d => d) { pt := 96, ssrc := 1, seq := 5 } { ssrc := 1 }
        [(true, [0x65, 0x88, 0x80])] 3000 (fun _ => 0) := by
  have hn : ∀ n ∈ [(true, [0x65, 0x88, 0x80])], Delimited n.2 := by
    intro n h
    cases List.mem_singleton.mp h
    exact delimited_slice
  exact ps_never_round_trips _ _ _ (barren_fresh 1) _ hn _ _

/-- A receiver that has seen its key frame gets nothing for a slice. -/
theorem ps_slice_lost :
    ¬ ∀ (share : ℕ → ℕ → UInt32 → UInt32) (s : Sender) (r : Receiver),
      r.waitingForKeyframe = false → Barren r → ∀ nals : List (Bool × List UInt8),
        (∀ n ∈ nals, Delimited n.2) → ∀ (duration : UInt32) (clock : ℕ → ℤ),
          RoundTrips share s r nals duration clock := by
  intro h
  have hn : ∀ n ∈ [(true, [0x65, 0x88, 0x80])], Delimited n.2 := by
    intro n hn
    cases List.mem_singleton.mp hn
    exact delimited_slice
  obtain ⟨s', pkts, r', frame, hsend, hreceive, -⟩ :=
    h (fun _ _ d => d) { pt := 96, ssrc := 1, seq := 5 } { ssrc := 1 } rfl (barren_fresh 1) _ hn
      3000 (fun _ => 0)
  have hlost : ((sendFrame (fun _ _ d => d) { pt := 96, ssrc := 1, seq := 5 }
        (annexB [(true, [0x65, 0x88, 0x80])]) 3000).bind fun sent =>
      (receive { ssrc := 1 } (sent.2.zipIdx.map fun p => (p.1, 0))).map fun r => r.2.length) =
        some 0 := by
    decide +kernel
  rw [hsend, Option.bind_some, hreceive] at hlost
  exact absurd (Option.some.inj hlost) Nat.one_ne_zero

end CxxDeps.Ps
