import CxxDeps.H264.Safety
import CxxDeps.H265.Depacketize

/-! When depacketisation of H.265 stays within the payloads, with the drop of packets. The
reader of a NAL header tests for its two bytes, so that only the byte behind it, the header
of a fragment, is read untested. -/

namespace CxxDeps.H265

open Rtp
open H264 (Combin FuOk emit_locals noWindow frameAt)

/-! ### Dropped packets -/

/-- `nal_header_set` on the bytes of a payload; `none` stands for a read behind them. -/
def readHeader (nal : NalHeader) (v : List UInt8) : Option NalHeader :=
  if v.length < 2 then some nal
  else
    match v[0]?, v[1]? with
    | some _, some _ => some (nalHeaderSet nal v)
    | _, _ => none

/-- The loop of `check_for_drop`, with the number it stops at. -/
def dropLoop (now : ℤ) (r : Receiver) (i : ℕ) : List ℕ → Option (Receiver × ℕ)
  | [] => some (r, i)
  | j :: js =>
    match r.recvPacks (slot j) with
    | none => dropLoop now r ((j + 1) % 65536) js
    | some pkt => do
      let _ ← readHeader {} pkt.payload
      let r := { r with recvPacks := r.recvPacks.set (slot j) none }
      if pkt.m then some ({ r with frameBeginTs := now }, (j + 1) % 65536)
      else dropLoop now r ((j + 1) % 65536) js

/-- `check_for_drop`. -/
def checkForDrop (r : Receiver) (now : ℤ) : Option Receiver :=
  if noWindow r then some r
  else if !r.isTimeout now then some r
  else
    (dropLoop now r (u16 r.beginSeq) (Sn.numbers (u16 r.beginSeq) (u16 r.endSeq))).map
      fun q => { q.1 with beginSeq := q.2 }

theorem readHeader_eq (nal : NalHeader) (v : List UInt8) :
    readHeader nal v = some (nalHeaderSet nal v) := by
  unfold readHeader
  rcases v with _ | ⟨v0, _ | ⟨v1, v⟩⟩
  · rfl
  · rfl
  · rw [if_neg (by simp)]
    rfl

theorem dropLoop_isSome (now : ℤ) (r : Receiver) (i : ℕ) (js : List ℕ) :
    (dropLoop now r i js).isSome = true := by
  induction js generalizing r i with
  | nil => rfl
  | cons j js ih =>
    unfold dropLoop
    rcases r.recvPacks (slot j) with _ | pkt
    · exact ih _ _
    · dsimp only
      rw [readHeader_eq, Option.bind_eq_bind, Option.bind_some]
      split_ifs
      · rfl
      · exact ih _ _

theorem checkForDrop_isSome (r : Receiver) (now : ℤ) : (checkForDrop r now).isSome = true := by
  unfold checkForDrop
  split_ifs
  · rfl
  · rfl
  · rw [Option.isSome_map, dropLoop_isSome]

/-! ### A frame -/

/-- As many rounds as there are bytes are enough for the NAL units of a packet. -/
theorem apLoop_fuel {n m : ℕ} {buf : List UInt8} (hn : buf.length ≤ n) (hm : buf.length ≤ m)
    (f : Frame) (c : Combin) : apLoop n buf f c = apLoop m buf f c := by
  induction n generalizing m buf f c with
  | zero =>
    obtain rfl : buf = [] := List.length_eq_zero_iff.mp (by omega)
    cases m <;> rfl
  | succ n ih =>
    rcases buf with _ | ⟨b0, _ | ⟨b1, data⟩⟩
    · cases m <;> rfl
    · cases m <;> rfl
    obtain ⟨m, rfl⟩ := Nat.exists_eq_succ_of_ne_zero (n := m) (by
      rw [List.length_cons] at hm; omega)
    rw [List.length_cons, List.length_cons] at hn hm
    unfold apLoop
    dsimp only
    split_ifs
    · rfl
    · exact ih (by rw [List.length_drop]; omega) (by rw [List.length_drop]; omega) _ _

/-- A payload that is looked at, and the type in its header. -/
def Typed (payload : List UInt8) (type : UInt8) : Prop :=
  2 ≤ payload.length ∧ (nalHeaderSet {} payload).f = 0 ∧ (nalHeaderSet {} payload).type = type

/-- The payloads of a frame are safe one by one, up to the one that ends the loop: a fragment
has the byte of its own header. -/
def FrameSafe : List (List UInt8) → Prop
  | [] => True
  | payload :: payloads =>
    (Typed payload 49 → 3 ≤ payload.length) ∧
      ((∃ type, 49 < type ∧ Typed payload type) ∨ FrameSafe payloads)

theorem sawKey_locals (c : Combin) (t : UInt8) :
    (sawKey c t).firstPkt = c.firstPkt ∧ (sawKey c t).fuFrameData = c.fuFrameData := by
  unfold sawKey
  split <;> exact ⟨rfl, rfl⟩

theorem apLoop_locals (n : ℕ) (buf : List UInt8) (f : Frame) (c : Combin) :
    (apLoop n buf f c).firstPkt = c.firstPkt ∧
      (apLoop n buf f c).fuFrameData = c.fuFrameData := by
  induction n generalizing buf f c with
  | zero => exact ⟨rfl, rfl⟩
  | succ n ih =>
    rcases buf with _ | ⟨b0, _ | ⟨b1, data⟩⟩
    · exact ⟨rfl, rfl⟩
    · exact ⟨rfl, rfl⟩
    unfold apLoop
    dsimp only
    split_ifs
    · exact ⟨rfl, rfl⟩
    · obtain ⟨h1, h2⟩ := ih (data.drop (b0.toNat * 256 + b1.toNat)) _ _
      exact ⟨h1.trans ((emit_locals _ _).1.trans (sawKey_locals _ _).1),
        h2.trans ((emit_locals _ _).2.trans (sawKey_locals _ _).2)⟩

theorem FuOk.of_locals {c c' : Combin} (hc : FuOk c)
    (h : c'.firstPkt = c.firstPkt ∧ c'.fuFrameData = c.fuFrameData) : FuOk c' :=
  ⟨by rw [h.1, h.2]; exact hc.first, by rw [h.1, h.2]; exact hc.length⟩

/-- What is known of a packet that is combined. -/
structure Combined (payload : List UInt8) (q : Option (Except Combin Combin)) : Prop where
  isSome : q.isSome = true ↔ (Typed payload 49 → 3 ≤ payload.length)
  error : ∀ c', q = some (.error c') → ∃ type, 49 < type ∧ Typed payload type
  ok : ∀ c', q = some (.ok c') → FuOk c' ∧ ¬ ∃ type, 49 < type ∧ Typed payload type

theorem combinPacket_spec {c : Combin} (hc : FuOk c) (pkt : Packet) :
    Combined pkt.payload (combinPacket c pkt) := by
  have htyped : ∀ {type}, Typed pkt.payload type → (nalHeaderSet {} pkt.payload).type = type :=
    fun h => h.2.2
  -- a packet of another type than a fragment
  have hother : ∀ c', FuOk c' → (∀ type, 49 ≤ type → ¬ Typed pkt.payload type) →
      Combined pkt.payload (some (.ok c')) := fun c' hc' hne =>
    ⟨iff_of_true rfl fun h => absurd h (hne 49 UInt8.le_rfl), (by rintro c'' ⟨⟩), by
      rintro c'' ⟨⟩
      exact ⟨hc', fun ⟨type, hlt, h⟩ => hne type (UInt8.le_of_lt hlt) h⟩⟩
  unfold combinPacket
  by_cases hshort : pkt.payload.length < 2
  · rw [if_pos hshort]
    exact hother c hc fun _ _ h => absurd h.1 (Nat.not_le.mpr hshort)
  rw [if_neg hshort]
  dsimp only
  by_cases hf : (nalHeaderSet {} pkt.payload).f = 0
  swap
  · rw [if_pos hf]
    exact hother c hc fun _ _ h => hf h.2.1
  rw [if_neg (not_not_intro hf)]
  by_cases h48 : (nalHeaderSet {} pkt.payload).type < 48
  · rw [if_pos h48]
    refine hother _ (FuOk.of_locals hc ⟨(emit_locals _ _).1.trans (sawKey_locals _ _).1,
      (emit_locals _ _).2.trans (sawKey_locals _ _).2⟩) fun type hle h => ?_
    rw [htyped h] at h48
    exact absurd (UInt8.lt_of_le_of_lt hle h48) (by decide)
  rw [if_neg h48]
  by_cases hap : (nalHeaderSet {} pkt.payload).type = 48
  · rw [if_pos hap]
    refine hother _ (FuOk.of_locals hc (apLoop_locals _ _ _ _)) fun type hle h => ?_
    rw [htyped h] at hap
    rw [hap] at hle
    exact absurd hle (by decide)
  rw [if_neg hap]
  by_cases hfu : (nalHeaderSet {} pkt.payload).type = 49
  · have hfrag : Typed pkt.payload 49 := ⟨Nat.le_of_not_lt hshort, hf, hfu⟩
    have hstop : ¬ ∃ type, 49 < type ∧ Typed pkt.payload type := by
      rintro ⟨type, hlt, h⟩
      rw [← htyped h, hfu] at hlt
      exact absurd hlt (by decide)
    rw [if_pos hfu]
    by_cases hlen : 3 ≤ pkt.payload.length
    · rw [List.getElem?_eq_getElem (show 2 < pkt.payload.length from hlen)]
      dsimp only
      obtain ⟨c₁, hc₁⟩ : ∃ c₁ : Combin, c₁ = if (H264.fuHeaderSet pkt.payload[2]).s = 1 then
          { c with
            firstPkt := some pkt
            fuFrameData := H264.startCode ++ nalHeaderGet { nalHeaderSet {} pkt.payload with
              type := (H264.fuHeaderSet pkt.payload[2]).t } } else c := ⟨_, rfl⟩
      have hok : FuOk c₁ := by
        rw [hc₁]
        split_ifs
        · exact ⟨fun _ => Option.some_ne_none _, fun _ => Nat.le_succ 5⟩
        · exact hc
      rw [← hc₁]
      by_cases hnone : c₁.firstPkt = none
      · rw [if_pos hnone]
        exact ⟨iff_of_true rfl fun _ => hlen, (by rintro c' ⟨⟩), by
          rintro c' ⟨⟩; exact ⟨hok, hstop⟩⟩
      · rw [if_neg hnone]
        refine ⟨iff_of_true rfl fun _ => hlen, (by rintro c' ⟨⟩), ?_⟩
        rintro c' ⟨⟩
        refine ⟨⟨fun _ => hnone, fun _ => ?_⟩, hstop⟩
        rw [List.length_append]
        exact (hok.length hnone).trans (Nat.le_add_right _ _)
    · rw [List.getElem?_eq_none (Nat.le_of_not_lt hlen)]
      exact ⟨iff_of_false Bool.false_ne_true fun h => hlen (h hfrag), (by rintro c' ⟨⟩),
        by rintro c' ⟨⟩⟩
  · rw [if_neg hfu]
    have hgt : 49 < (nalHeaderSet {} pkt.payload).type := by
      have h1 := UInt8.le_iff_toNat_le.mp (UInt8.not_lt.mp h48)
      have h2 := fun he => hap (UInt8.toNat_inj.mp he)
      have h3 := fun he => hfu (UInt8.toNat_inj.mp he)
      exact UInt8.lt_iff_toNat_lt.mpr (Nat.lt_of_le_of_ne
        (Nat.lt_of_le_of_ne h1 (Ne.symm h2)) (Ne.symm h3))
    refine ⟨iff_of_true rfl fun h => absurd h.2.2 hfu, fun _ _ => ⟨_, hgt,
      Nat.le_of_not_lt hshort, hf, rfl⟩, by rintro c' ⟨⟩⟩

theorem combinLoop_isSome_iff {c : Combin} (hc : FuOk c) (pkts : List Packet) :
    ((combinLoop c pkts).isSome = true ↔ FrameSafe (pkts.map Packet.payload)) ∧
      ∀ c', combinLoop c pkts = some (.ok c') → FuOk c' := by
  induction pkts generalizing c with
  | nil => exact ⟨iff_of_true rfl trivial, by rintro c' ⟨⟩; exact hc⟩
  | cons pkt pkts ih =>
    have hpkt := combinPacket_spec hc pkt
    unfold combinLoop
    rw [List.map_cons, FrameSafe, ← hpkt.isSome]
    rcases hq : combinPacket c pkt with _ | c' | c'
    · exact ⟨iff_of_false Bool.false_ne_true fun h => Bool.false_ne_true h.1, by rintro c' ⟨⟩⟩
    · exact ⟨iff_of_true rfl ⟨rfl, .inl (hpkt.error c' hq)⟩, by rintro c'' ⟨⟩⟩
    · obtain ⟨hok, hstop⟩ := hpkt.ok c' hq
      obtain ⟨hsome, hrest⟩ := ih hok
      dsimp only
      rw [hsome, or_iff_right hstop]
      exact ⟨(and_iff_right rfl).symm, hrest⟩

theorem combinFu_isSome {c : Combin} (hc : FuOk c) : (combinFu c).isSome = true := by
  unfold combinFu
  split_ifs with hempty
  · rfl
  · obtain ⟨pkt, hpkt⟩ := Option.ne_none_iff_exists'.mp (hc.first hempty)
    rw [hpkt]
    rfl

theorem combinFrame_isSome_iff (r : Receiver) (pkts : List Packet) :
    (combinFrame r pkts).isSome = true ↔ FrameSafe (pkts.map Packet.payload) := by
  have hinit : FuOk { receiver := r } := ⟨fun h => absurd rfl h, fun h => absurd rfl h⟩
  obtain ⟨hsome, hok⟩ := combinLoop_isSome_iff hinit pkts
  rw [← hsome]
  unfold combinFrame
  rcases hq : combinLoop { receiver := r } pkts with _ | c | c
  · exact Iff.rfl
  · exact Iff.rfl
  · rw [Option.isSome_map]
    exact iff_of_true (combinFu_isSome (hok c hq)) rfl

/-- The depacketisers stay within the payloads exactly on safe ones, and all their loops end:
more rounds than there are bytes change nothing. -/
theorem depacketising_safe_iff (r : Receiver) (pkts : List Packet) (now : ℤ) :
    ((H264.combinFrame r pkts).isSome = true ↔
        H264.FrameSafe False (pkts.map Packet.payload)) ∧
      ((H264.checkForDrop r now).isSome = true ↔ noWindow r = true ∨ r.isTimeout now = false ∨
        H264.DropSafe r.recvPacks (Sn.numbers (u16 r.beginSeq) (u16 r.endSeq))) ∧
      ((combinFrame r pkts).isSome = true ↔ FrameSafe (pkts.map Packet.payload)) ∧
      (checkForDrop r now).isSome = true ∧
      (∀ t hl ts n buf f c, 2 ≤ hl → buf.length ≤ n →
        H264.aggregateLoop t hl ts n buf f c = H264.aggregateLoop t hl ts buf.length buf f c) ∧
      ∀ n buf f c, buf.length ≤ n → apLoop n buf f c = apLoop buf.length buf f c :=
  ⟨H264.combinFrame_isSome_iff r pkts, H264.checkForDrop_isSome_iff r now,
    combinFrame_isSome_iff r pkts, checkForDrop_isSome r now,
    fun _ _ _ _ _ f c hhl hn => H264.aggregateLoop_fuel hhl hn le_rfl f c,
    fun _ _ f c hn => apLoop_fuel hn le_rfl f c⟩

private def bare (payload : List UInt8) : Packet := ⟨true, 96, 1, 3000, 1, payload⟩

/-- An aggregation packet that ends in the size of an empty NAL unit, one without its decoding
order number, a fragment of type FU-B without its number, one of H.265 without its header, and
the drop of an empty packet. -/
theorem short_payloads_unsafe :
    H264.combinFrame (Receiver.newVideo 1) [bare [0x78, 0, 0]] = none ∧
      H264.combinFrame (Receiver.newVideo 1) [bare [0x79, 0]] = none ∧
      H264.combinFrame (Receiver.newVideo 1) [bare [0x7d, 0x85]] = none ∧
      combinFrame (Receiver.newVideo 1) [bare [0x62, 0x01]] = none ∧
      H264.checkForDrop ((Receiver.newVideo 1).insertPacket (bare []) 0) 1000 = none := by
  decide

end CxxDeps.H265
