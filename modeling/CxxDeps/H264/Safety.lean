import Mathlib.Logic.Relation
import CxxDeps.H264.Receiver

/-! When depacketisation stays within the payloads. Three of the formats read behind a short
payload: an aggregation packet that ends in the size of an empty NAL unit, an aggregation
packet with a decoding order number of which only one byte is there, and a fragment of type
FU-B without room for its number. The drop of a packet reads its first byte untested. -/

namespace CxxDeps.H264

open Rtp

variable {t : UInt8} {hl : ℕ} {ts : List UInt8 → ℤ}

/-! ### Aggregation packets -/

/-- The size in front of a NAL unit. -/
def unitSize : List UInt8 → ℕ
  | b0 :: b1 :: _ => b0.toNat * 256 + b1.toNat
  | _ => 0

/-- A NAL unit of an aggregation packet that is there whole, and what comes behind it. -/
def NextUnit (hl : ℕ) (buf rest : List UInt8) : Prop :=
  hl ≤ buf.length ∧ unitSize buf ≤ (buf.drop hl).length ∧
    rest = (buf.drop hl).drop (unitSize buf)

/-- No NAL unit of the packet is an empty one at its very end. -/
def UnitsSafe (hl : ℕ) (buf : List UInt8) : Prop :=
  ∀ rest, Relation.ReflTransGen (NextUnit hl) buf rest →
    ¬ (rest.length = hl ∧ unitSize rest = 0)

theorem unitsSafe_iff {buf : List UInt8} :
    UnitsSafe hl buf ↔ ¬ (buf.length = hl ∧ unitSize buf = 0) ∧
      ∀ rest, NextUnit hl buf rest → UnitsSafe hl rest := by
  constructor
  · intro h
    exact ⟨h buf .refl, fun rest hnext rest' hreach => h rest' (.head hnext hreach)⟩
  · rintro ⟨hhere, hnext⟩ rest hreach
    rcases Relation.ReflTransGen.cases_head hreach with rfl | ⟨rest', hstep, hrest⟩
    · exact hhere
    · exact hnext rest' hstep rest hrest

theorem unitsSafe_of_not {buf : List UInt8}
    (h : ¬ (hl ≤ buf.length ∧ unitSize buf ≤ (buf.drop hl).length)) : UnitsSafe hl buf :=
  unitsSafe_iff.mpr ⟨fun he => h ⟨he.1.ge, he.2.le.trans (Nat.zero_le _)⟩,
    fun _ hnext => absurd ⟨hnext.1, hnext.2.1⟩ h⟩

theorem unitsSafe_of_short {buf : List UInt8} (h : buf.length < hl) : UnitsSafe hl buf :=
  unitsSafe_of_not fun hle => absurd hle.1 (Nat.not_le.mpr h)

theorem aggregateLoop_isSome_iff (hhl : 2 ≤ hl) {n : ℕ} {buf : List UInt8} (hn : buf.length ≤ n)
    (f : Frame) (c : Combin) :
    (aggregateLoop t hl ts n buf f c).isSome = true ↔ UnitsSafe hl buf := by
  induction n generalizing buf f c with
  | zero => exact iff_of_true rfl (unitsSafe_of_short (by omega))
  | succ n ih =>
    rcases buf with _ | ⟨b0, _ | ⟨b1, tail⟩⟩
    · exact iff_of_true rfl (unitsSafe_of_short (by rw [List.length_nil]; omega))
    · exact iff_of_true rfl (unitsSafe_of_short (by rw [List.length_singleton]; omega))
    obtain ⟨buf, hbuf⟩ : ∃ buf, buf = b0 :: b1 :: tail := ⟨_, rfl⟩
    have hsize : b0.toNat * 256 + b1.toNat = unitSize buf := by rw [hbuf]; rfl
    unfold aggregateLoop
    dsimp only
    rw [← hbuf] at hn ⊢
    rw [hsize]
    by_cases hshort : buf.length < hl
    · rw [if_pos hshort]
      exact iff_of_true rfl (unitsSafe_of_short hshort)
    rw [if_neg hshort]
    by_cases hover : unitSize buf > (buf.drop hl).length
    · rw [if_pos hover]
      exact iff_of_true rfl (unitsSafe_of_not fun hle => absurd hle.2 (Nat.not_le.mpr hover))
    rw [if_neg hover, unitsSafe_iff]
    rcases hdata : buf.drop hl with _ | ⟨b, data⟩
    · -- the header of an empty NAL unit is read behind the end
      have hlen : buf.length ≤ hl := List.drop_eq_nil_iff.mp hdata
      rw [hdata, List.length_nil] at hover
      exact iff_of_false Bool.false_ne_true fun h => h.1 ⟨by omega, by omega⟩
    · have hlen : hl < buf.length := by
        have := congrArg List.length hdata
        rw [List.length_drop, List.length_cons] at this
        omega
      dsimp only
      rw [← hdata, ih (by rw [List.length_drop, List.length_drop]; omega)]
      constructor
      · intro h
        refine ⟨fun he => absurd he.1 hlen.ne', fun rest hnext => ?_⟩
        rw [hnext.2.2]
        exact h
      · intro h
        exact h.2 _ ⟨hlen.le, Nat.le_of_not_lt hover, rfl⟩

/-- As many rounds as there are bytes are enough. -/
theorem aggregateLoop_fuel (hhl : 2 ≤ hl) {n m : ℕ} {buf : List UInt8} (hn : buf.length ≤ n)
    (hm : buf.length ≤ m) (f : Frame) (c : Combin) :
    aggregateLoop t hl ts n buf f c = aggregateLoop t hl ts m buf f c := by
  induction n generalizing m buf f c with
  | zero =>
    obtain rfl : buf = [] := List.length_eq_zero_iff.mp (by omega)
    cases m <;> rfl
  | succ n ih =>
    rcases buf with _ | ⟨b0, _ | ⟨b1, tail⟩⟩
    · cases m <;> rfl
    · cases m <;> rfl
    obtain ⟨m, rfl⟩ := Nat.exists_eq_succ_of_ne_zero (n := m) (by
      rw [List.length_cons] at hm; omega)
    unfold aggregateLoop
    dsimp only
    split_ifs
    · rfl
    · rfl
    rcases hdata : (b0 :: b1 :: tail).drop hl with _ | ⟨b, data⟩
    · rfl
    · have hlen := congrArg List.length hdata
      rw [List.length_drop] at hlen
      rw [List.length_cons, List.length_cons] at hn hm hlen
      exact ih (by rw [List.length_drop]; omega) (by rw [List.length_drop]; omega) _ _

theorem emit_locals (c : Combin) (f : Frame) :
    (c.emit f).1.firstPkt = c.firstPkt ∧ (c.emit f).1.fuFrameData = c.fuFrameData := by
  unfold Combin.emit
  dsimp only
  split <;> exact ⟨rfl, rfl⟩

theorem sawKey_locals (c : Combin) (t : UInt8) :
    (c.sawKey t).firstPkt = c.firstPkt ∧ (c.sawKey t).fuFrameData = c.fuFrameData := by
  unfold Combin.sawKey
  split <;> exact ⟨rfl, rfl⟩

theorem aggregateLoop_locals {n : ℕ} {buf : List UInt8} {f : Frame} {c c' : Combin}
    (h : aggregateLoop t hl ts n buf f c = some c') :
    c'.firstPkt = c.firstPkt ∧ c'.fuFrameData = c.fuFrameData := by
  induction n generalizing buf f c with
  | zero => cases h; exact ⟨rfl, rfl⟩
  | succ n ih =>
    unfold aggregateLoop at h
    split at h
    · split at h
      · cases h; exact ⟨rfl, rfl⟩
      · dsimp only at h
        split at h
        · cases h; exact ⟨rfl, rfl⟩
        · split at h
          · cases h
          · obtain ⟨h1, h2⟩ := ih h
            exact ⟨h1.trans ((emit_locals _ _).1.trans (sawKey_locals c t).1),
              h2.trans ((emit_locals _ _).2.trans (sawKey_locals c t).2)⟩
    · cases h; exact ⟨rfl, rfl⟩

/-! ### One packet -/

/-- A fragment that starts a NAL unit. -/
def Starts (payload : List UInt8) : Prop :=
  ∃ p0 p1 rest, payload = p0 :: p1 :: rest ∧ (nalHeaderSet p0).f = 0 ∧
    28 ≤ (nalHeaderSet p0).t ∧ (nalHeaderSet p0).t ≤ 29 ∧ (fuHeaderSet p1).s = 1

/-- A packet of no known type, which ends the loop of `combin_frame`. -/
def Stops (payload : List UInt8) : Prop :=
  ∃ p0 p1 rest, payload = p0 :: p1 :: rest ∧ (nalHeaderSet p0).f = 0 ∧ 29 < (nalHeaderSet p0).t

/-- What a payload needs so that nothing is read behind it; a fragment is read when a NAL
unit was started. -/
def PayloadSafe (started : Prop) (payload : List UInt8) : Prop :=
  ∀ p0 p1 rest, payload = p0 :: p1 :: rest → (nalHeaderSet p0).f = 0 →
    ((nalHeaderSet p0).t = 24 → UnitsSafe 2 (p1 :: rest)) ∧
    (25 ≤ (nalHeaderSet p0).t → (nalHeaderSet p0).t ≤ 27 →
      rest ≠ [] ∧ UnitsSafe (aggregateHeader (nalHeaderSet p0).t) (rest.drop 1)) ∧
    ((nalHeaderSet p0).t = 29 → started ∨ (fuHeaderSet p1).s = 1 → 2 ≤ rest.length)

/-- The bytes of a fragmented NAL unit come behind its first packet. -/
structure FuOk (c : Combin) : Prop where
  first : c.fuFrameData ≠ [] → c.firstPkt ≠ none
  length : c.firstPkt ≠ none → 5 ≤ c.fuFrameData.length

section

variable {p0 p1 : UInt8} {rest : List UInt8}

theorem starts_cons : Starts (p0 :: p1 :: rest) ↔ (nalHeaderSet p0).f = 0 ∧
    28 ≤ (nalHeaderSet p0).t ∧ (nalHeaderSet p0).t ≤ 29 ∧ (fuHeaderSet p1).s = 1 := by
  constructor
  · rintro ⟨_, _, _, ⟨⟩, h⟩
    exact h
  · exact fun h => ⟨p0, p1, rest, rfl, h⟩

theorem stops_cons :
    Stops (p0 :: p1 :: rest) ↔ (nalHeaderSet p0).f = 0 ∧ 29 < (nalHeaderSet p0).t := by
  constructor
  · rintro ⟨_, _, _, ⟨⟩, h⟩
    exact h
  · exact fun h => ⟨p0, p1, rest, rfl, h⟩

theorem payloadSafe_cons {started : Prop} (hf : (nalHeaderSet p0).f = 0) :
    PayloadSafe started (p0 :: p1 :: rest) ↔
      ((nalHeaderSet p0).t = 24 → UnitsSafe 2 (p1 :: rest)) ∧
      (25 ≤ (nalHeaderSet p0).t → (nalHeaderSet p0).t ≤ 27 →
        rest ≠ [] ∧ UnitsSafe (aggregateHeader (nalHeaderSet p0).t) (rest.drop 1)) ∧
      ((nalHeaderSet p0).t = 29 → started ∨ (fuHeaderSet p1).s = 1 → 2 ≤ rest.length) := by
  constructor
  · exact fun h => h p0 p1 rest rfl hf
  · rintro h _ _ _ ⟨⟩ -
    exact h

end

/-- What is known of a packet that is combined. -/
structure Combined (c : Combin) (payload : List UInt8) (safe : Prop)
    (q : Option (Except Combin Combin)) : Prop where
  isSome : q.isSome = true ↔ safe
  error : ∀ c', q = some (.error c') → Stops payload
  ok : ∀ c', q = some (.ok c') → ¬ Stops payload ∧ FuOk c' ∧
    (c'.firstPkt ≠ none ↔ c.firstPkt ≠ none ∨ Starts payload)

/-- A packet that leaves the locals alone. -/
theorem Combined.of_locals {c : Combin} {payload : List UInt8} {safe : Prop} (hc : FuOk c)
    {q : Option Combin} (hq : q.isSome = true ↔ safe)
    (hlocals : ∀ c', q = some c' → c'.firstPkt = c.firstPkt ∧ c'.fuFrameData = c.fuFrameData)
    (hstart : ¬ Starts payload) (hstop : ¬ Stops payload) :
    Combined c payload safe (q.map .ok) where
  isSome := by rw [Option.isSome_map]; exact hq
  error := by
    intro c' h
    obtain ⟨c'', -, h⟩ := Option.map_eq_some_iff.mp h
    cases h
  ok := by
    intro c' h
    obtain ⟨c'', hc'', h⟩ := Option.map_eq_some_iff.mp h
    cases h
    obtain ⟨h1, h2⟩ := hlocals c' hc''
    refine ⟨hstop, ⟨?_, ?_⟩, ?_⟩
    · rw [h1, h2]
      exact hc.first
    · rw [h1, h2]
      exact hc.length
    · rw [h1, or_iff_left hstart]

/-- A packet is combined exactly if its payload is safe, and leaves the locals in order. -/
theorem combinPacket_spec {c : Combin} (hc : FuOk c) (pkt : Packet) :
    Combined c pkt.payload (PayloadSafe (c.firstPkt ≠ none) pkt.payload) (combinPacket c pkt) := by
  have hskip : (∀ p0 p1 rest, pkt.payload = p0 :: p1 :: rest → (nalHeaderSet p0).f ≠ 0) →
      Combined c pkt.payload (PayloadSafe (c.firstPkt ≠ none) pkt.payload)
        ((some c).map .ok) := fun hun =>
    .of_locals hc (iff_of_true rfl fun _ _ _ hp hf => absurd hf (hun _ _ _ hp))
      (fun _ h => by cases h; exact ⟨rfl, rfl⟩)
      (fun ⟨_, _, _, hp, hf, _⟩ => hun _ _ _ hp hf) (fun ⟨_, _, _, hp, hf, _⟩ => hun _ _ _ hp hf)
  unfold combinPacket
  rcases hp : pkt.payload with _ | ⟨p0, _ | ⟨p1, rest⟩⟩
  · rw [hp] at hskip
    exact hskip (by rintro _ _ _ ⟨⟩)
  · rw [hp] at hskip
    exact hskip (by rintro _ _ _ ⟨⟩)
  dsimp only
  by_cases hf : (nalHeaderSet p0).f = 0
  swap
  · rw [if_pos hf]
    rw [hp] at hskip
    exact hskip (by rintro _ _ _ ⟨⟩; exact hf)
  rw [if_neg (not_not_intro hf)]
  obtain ⟨t, ht⟩ : ∃ t, t = (nalHeaderSet p0).t := ⟨_, rfl⟩
  rw [payloadSafe_cons hf, ← ht]
  have hstarts : t < 28 → ¬ Starts (p0 :: p1 :: rest) := fun hlt h =>
    UInt8.not_le.mpr hlt (ht ▸ (starts_cons.mp h).2.1)
  have hstops : t ≤ 29 → ¬ Stops (p0 :: p1 :: rest) := fun hle h =>
    UInt8.not_le.mpr (ht ▸ (stops_cons.mp h).2) hle
  by_cases h23 : t ≤ 23
  · rw [if_pos h23]
    refine Combined.of_locals (q := some _) hc (iff_of_true rfl ⟨?_, ?_, ?_⟩) ?_
      (hstarts (UInt8.lt_of_le_of_lt h23 (by decide)))
      (hstops (UInt8.le_trans h23 (by decide)))
    · rintro rfl
      exact absurd h23 (by decide)
    · exact fun h25 _ => absurd (UInt8.le_trans h25 h23) (by decide)
    · rintro rfl
      exact absurd h23 (by decide)
    · rintro c' ⟨⟩
      exact ⟨(emit_locals _ _).1.trans (sawKey_locals c t).1,
        (emit_locals _ _).2.trans (sawKey_locals c t).2⟩
  rw [if_neg h23]
  by_cases h24 : t = 24
  · rw [if_pos h24, h24]
    refine Combined.of_locals hc ?_ (fun _ => aggregateLoop_locals)
      (hstarts (by rw [h24]; decide)) (hstops (by rw [h24]; decide))
    rw [aggregateLoop_isSome_iff le_rfl le_rfl]
    refine ⟨fun h => ⟨fun _ => h, fun h25 => absurd h25 (by decide), fun h29 => ?_⟩,
      fun h => h.1 rfl⟩
    exact absurd h29 (by decide)
  rw [if_neg h24]
  by_cases h27 : t ≤ 27
  · have h25 : 25 ≤ t := by
      have hlow := UInt8.lt_iff_toNat_lt.mp (UInt8.not_le.mp h23)
      have hne := fun he => h24 (UInt8.toNat_inj.mp he)
      exact UInt8.le_iff_toNat_le.mpr (Nat.lt_of_le_of_ne hlow (Ne.symm hne))
    have hlt : t < 28 := UInt8.lt_of_le_of_lt h27 (by decide)
    have hne29 : t ≠ 29 := by rintro rfl; exact absurd h27 (by decide)
    have hle29 : t ≤ 29 := UInt8.le_trans h27 (by decide)
    have hsafe : (t = 24 → UnitsSafe 2 (p1 :: rest)) ∧
        (25 ≤ t → t ≤ 27 → rest ≠ [] ∧ UnitsSafe (aggregateHeader t) (rest.drop 1)) ∧
        (t = 29 → c.firstPkt ≠ none ∨ (fuHeaderSet p1).s = 1 → 2 ≤ rest.length) ↔
        rest ≠ [] ∧ UnitsSafe (aggregateHeader t) (rest.drop 1) :=
      ⟨fun h => h.2.1 h25 h27, fun h => ⟨fun he => absurd he h24, fun _ _ => h,
        fun he => absurd he hne29⟩⟩
    rw [if_pos h27, hsafe]
    rcases rest with _ | ⟨d, buf⟩
    · exact .of_locals (q := none) hc (iff_of_false Bool.false_ne_true fun h => h.1 rfl)
        (by rintro c' ⟨⟩) (hstarts hlt) (hstops hle29)
    · have hhl : 2 ≤ aggregateHeader t := by
        unfold aggregateHeader
        split_ifs <;> omega
      refine Combined.of_locals hc ?_ (fun _ => aggregateLoop_locals) (hstarts hlt) (hstops hle29)
      rw [aggregateLoop_isSome_iff hhl le_rfl]
      exact (and_iff_right (List.cons_ne_nil _ _)).symm
  rw [if_neg h27]
  by_cases h29 : t ≤ 29
  · rw [if_pos h29]
    have h28 : 28 ≤ t := UInt8.le_iff_toNat_le.mpr (UInt8.lt_iff_toNat_lt.mp (UInt8.not_le.mp h27))
    have hstart : Starts (p0 :: p1 :: rest) ↔ (fuHeaderSet p1).s = 1 := by
      rw [starts_cons, ← ht]
      exact ⟨fun h => h.2.2.2, fun h => ⟨hf, h28, h29, h⟩⟩
    obtain ⟨c₁, hc₁⟩ : ∃ c₁ : Combin, c₁ = if (fuHeaderSet p1).s = 1 then { c with
        firstPkt := some pkt
        fuFrameData := startCode ++ [nalHeaderGet ⟨(nalHeaderSet p0).f, (nalHeaderSet p0).nri,
          (fuHeaderSet p1).t⟩] } else c := ⟨_, rfl⟩
    have hfirst : c₁.firstPkt ≠ none ↔ c.firstPkt ≠ none ∨ (fuHeaderSet p1).s = 1 := by
      rw [hc₁]
      split_ifs with hs
      · exact iff_of_true (Option.some_ne_none _) (.inr hs)
      · exact (or_iff_left hs).symm
    have hok : FuOk c₁ := by
      rw [hc₁]
      split_ifs
      · exact ⟨fun _ => Option.some_ne_none _, fun _ => le_rfl⟩
      · exact hc
    rw [← hc₁]
    by_cases hnone : c₁.firstPkt = none
    · -- the fragment is skipped
      rw [if_pos hnone]
      refine ⟨iff_of_true rfl ⟨fun he => absurd he h24, fun _ hle => absurd hle h27,
        fun _ h => absurd hnone (hfirst.mpr h)⟩, (by rintro c' ⟨⟩), ?_⟩
      rintro c' ⟨⟩
      exact ⟨hstops h29, hok, by rw [hstart]; exact hfirst⟩
    rw [if_neg hnone]
    have hlen : (p0 :: p1 :: rest).length = rest.length + 2 := rfl
    rw [hlen]
    by_cases hshort : rest.length + 2 < if t = 29 then 4 else 2
    · have h29' : t = 29 := by
        by_contra hne
        rw [if_neg hne] at hshort
        omega
      rw [if_pos hshort]
      rw [if_pos h29'] at hshort
      refine ⟨iff_of_false Bool.false_ne_true fun h => ?_, (by rintro c' ⟨⟩), (by rintro c' ⟨⟩)⟩
      have := h.2.2 h29' (hfirst.mp hnone)
      omega
    · rw [if_neg hshort]
      refine ⟨iff_of_true rfl ⟨fun he => absurd he h24, fun _ hle => absurd hle h27,
        fun he _ => ?_⟩, (by rintro c' ⟨⟩), ?_⟩
      · rw [if_pos he] at hshort
        omega
      · rintro c' ⟨⟩
        refine ⟨hstops h29, ⟨fun _ => hnone, fun _ => ?_⟩, by rw [hstart]; exact hfirst⟩
        rw [List.length_append]
        exact (hok.length hnone).trans (Nat.le_add_right _ _)
  · rw [if_neg h29]
    have h29' : 29 < t := UInt8.not_le.mp h29
    refine ⟨iff_of_true rfl ⟨?_, ?_, ?_⟩, ?_, by rintro c' ⟨⟩⟩
    · exact fun he => absurd he h24
    · exact fun _ hle => absurd hle h27
    · rintro rfl
      exact absurd UInt8.le_rfl h29
    · exact fun _ _ => stops_cons.mpr ⟨hf, ht ▸ h29'⟩

/-! ### A frame -/

/-- The payloads of a frame are safe one by one, up to the one that ends the loop. -/
def FrameSafe : Prop → List (List UInt8) → Prop
  | _, [] => True
  | started, payload :: payloads =>
    PayloadSafe started payload ∧
      (Stops payload ∨ FrameSafe (started ∨ Starts payload) payloads)

theorem combinLoop_isSome_iff {c : Combin} (hc : FuOk c) (pkts : List Packet) :
    ((combinLoop c pkts).isSome = true ↔
        FrameSafe (c.firstPkt ≠ none) (pkts.map Packet.payload)) ∧
      ∀ c', combinLoop c pkts = some (.ok c') → FuOk c' := by
  induction pkts generalizing c with
  | nil => exact ⟨iff_of_true rfl trivial, by rintro c' ⟨⟩; exact hc⟩
  | cons pkt pkts ih =>
    have hpkt := combinPacket_spec hc pkt
    unfold combinLoop
    rw [List.map_cons, FrameSafe, ← hpkt.isSome]
    rcases hq : combinPacket c pkt with _ | c' | c'
    · exact ⟨iff_of_false Bool.false_ne_true fun h => Bool.false_ne_true h.1, by rintro c' ⟨⟩⟩
    · exact ⟨iff_of_true rfl ⟨rfl, .inl (hpkt.error c' hq)⟩, by rintro c'' ⟨⟩⟩
    · obtain ⟨hstop, hok, hfirst⟩ := hpkt.ok c' hq
      obtain ⟨hsome, hrest⟩ := ih hok
      dsimp only
      rw [hsome, hfirst, or_iff_right hstop]
      exact ⟨(and_iff_right rfl).symm, hrest⟩

theorem combinFu_isSome {c : Combin} (hc : FuOk c) : (combinFu c).isSome = true := by
  unfold combinFu
  split_ifs with hempty
  · rfl
  · obtain ⟨pkt, hpkt⟩ := Option.ne_none_iff_exists'.mp (hc.first hempty)
    have hlen := hc.length (hc.first hempty)
    rw [hpkt, List.getElem?_eq_getElem (show 4 < c.fuFrameData.length from hlen)]
    rfl

/-- `combin_frame` reads inside the payloads exactly if they are safe. -/
theorem combinFrame_isSome_iff (r : Receiver) (pkts : List Packet) :
    (combinFrame r pkts).isSome = true ↔ FrameSafe False (pkts.map Packet.payload) := by
  have hinit : FuOk { receiver := r } := ⟨fun h => absurd rfl h, fun h => absurd rfl h⟩
  obtain ⟨hsome, hok⟩ := combinLoop_isSome_iff hinit pkts
  have hnone : ((none : Option Packet) ≠ none) = False := eq_false (fun h => h rfl)
  dsimp only at hsome
  rw [hnone] at hsome
  rw [← hsome]
  unfold combinFrame
  rcases hq : combinLoop { receiver := r } pkts with _ | c | c
  · exact Iff.rfl
  · exact Iff.rfl
  · rw [Option.isSome_map]
    exact iff_of_true (combinFu_isSome (hok c hq)) rfl

/-! ### Dropped packets -/

/-- No packet up to the first marker is empty, of the packets in the slots of the numbers. -/
def DropSafe (w : Slots) (js : List ℕ) : Prop :=
  ∀ pre j post, js = pre ++ j :: post →
    (∀ i ∈ pre, ∀ p, w (slot i) = some p → p.m = false) →
    ∀ p, w (slot j) = some p → p.payload ≠ []

theorem dropSafe_cons {w : Slots} {j : ℕ} {js : List ℕ} :
    DropSafe w (j :: js) ↔ (∀ p, w (slot j) = some p → p.payload ≠ []) ∧
      ((∀ p, w (slot j) = some p → p.m = false) → DropSafe w js) := by
  constructor
  · intro h
    refine ⟨h [] j js rfl (List.forall_mem_nil _), fun hm pre i post hjs hpre => ?_⟩
    exact h (j :: pre) i post (by rw [hjs, List.cons_append])
      (List.forall_mem_cons.mpr ⟨hm, hpre⟩)
  · rintro ⟨hhere, hrest⟩ pre i post hjs hpre
    rcases pre with _ | ⟨i', pre⟩
    · obtain ⟨rfl, -⟩ := List.cons.inj hjs
      exact hhere
    · obtain ⟨rfl, htail⟩ := List.cons.inj hjs
      obtain ⟨hm, hpre⟩ := List.forall_mem_cons.mp hpre
      exact hrest hm pre i post htail hpre

/-- A slot with a harmless packet may as well be empty. -/
theorem dropSafe_set {w : Slots} {i : Fin packetBufferSize} {p : Packet} (hp : w i = some p)
    (hne : p.payload ≠ []) (hm : p.m = false) {js : List ℕ} :
    DropSafe (w.set i none) js ↔ DropSafe w js := by
  have hmark : ∀ j, (∀ q, (w.set i none) (slot j) = some q → q.m = false) ↔
      ∀ q, w (slot j) = some q → q.m = false := by
    intro j
    by_cases hj : slot j = i
    · rw [hj, Slots.set_self, hp]
      exact iff_of_true (by rintro q ⟨⟩) (by rintro q ⟨⟩; exact hm)
    · rw [Slots.set_of_ne _ _ hj]
  have hhere : ∀ j, (∀ q, (w.set i none) (slot j) = some q → q.payload ≠ []) ↔
      ∀ q, w (slot j) = some q → q.payload ≠ [] := by
    intro j
    by_cases hj : slot j = i
    · rw [hj, Slots.set_self, hp]
      exact iff_of_true (by rintro q ⟨⟩) (by rintro q ⟨⟩; exact hne)
    · rw [Slots.set_of_ne _ _ hj]
  simp only [DropSafe, hmark, hhere]

theorem dropLoop_isSome_iff (now : ℤ) (r : Receiver) (i : ℕ) (js : List ℕ) :
    (dropLoop now r i js).isSome = true ↔ DropSafe r.recvPacks js := by
  induction js generalizing r i with
  | nil =>
    refine iff_of_true rfl fun pre j post hjs => ?_
    exact absurd hjs (by simp)
  | cons j js ih =>
    rw [dropSafe_cons]
    unfold dropLoop
    rcases hw : r.recvPacks (slot j) with _ | pkt
    · dsimp only
      rw [ih]
      exact ⟨fun h => ⟨by rintro p ⟨⟩, fun _ => h⟩, fun h => h.2 (by rintro p ⟨⟩)⟩
    dsimp only
    rcases hp : pkt.payload with _ | ⟨b, bytes⟩
    · exact iff_of_false Bool.false_ne_true fun h => h.1 pkt rfl hp
    have hne : pkt.payload ≠ [] := by rw [hp]; exact List.cons_ne_nil _ _
    dsimp only
    by_cases hm : pkt.m = true
    · rw [if_pos hm]
      refine iff_of_true rfl ⟨by rintro p ⟨⟩; exact hne, fun h => ?_⟩
      rw [h pkt rfl] at hm
      cases hm
    · rw [if_neg hm, ih, releaseSlot]
      dsimp only
      rw [Bool.not_eq_true] at hm
      rw [dropSafe_set hw hne hm]
      exact ⟨fun h => ⟨by rintro p ⟨⟩; exact hne, fun _ => h⟩,
        fun h => h.2 (by rintro p ⟨⟩; exact hm)⟩

/-- `check_for_drop` reads inside the payloads exactly if it has nothing to drop, or drops
packets with payloads only. -/
theorem checkForDrop_isSome_iff (r : Receiver) (now : ℤ) :
    (checkForDrop r now).isSome = true ↔ noWindow r = true ∨ r.isTimeout now = false ∨
      DropSafe r.recvPacks (Sn.numbers (u16 r.beginSeq) (u16 r.endSeq)) := by
  unfold checkForDrop
  split_ifs with hw ht
  · exact iff_of_true rfl (.inl hw)
  · exact iff_of_true rfl (.inr (.inl (by simpa using ht)))
  · rw [Option.isSome_map, dropLoop_isSome_iff, or_iff_right hw, or_iff_right (by simpa using ht)]

end CxxDeps.H264
