import Mathlib.Data.List.Perm.Subperm
import CxxDeps.H264.RoundTrip

/-! The wait for a key frame, over frames of any mix of packet formats. Only a NAL unit in a
packet of its own, or in the last fragments of the frame, ends it: the branches of the
aggregation formats test the type of the packet and not that of the NAL unit. Fragments
are collected in one buffer, so that of several fragmented NAL units the last one is
handed out, behind everything else. -/

namespace CxxDeps.H264

open Rtp

/-- An IDR slice, or a sequence or picture parameter set. -/
def keyNal (nal : List UInt8) : Bool := keyType (nalHeaderSet (nal.headD 0)).t

/-! ### The packets of a frame -/

/-- A NAL unit of an aggregation packet, with the decoding order difference and the time
offset in front of it. -/
structure Entry where
  extra : List UInt8
  nal : List UInt8

/-- A packet of a fragmented NAL unit; of type FU-B, it has a decoding order number. -/
structure Fragment where
  indicator : UInt8
  header : UInt8
  don : List UInt8
  chunk : List UInt8

/-- What carries NAL units: one packet, or the packets of a fragmented one. A packet may also
carry none. -/
inductive Carrier
  | single (nal : List UInt8)
  | aggregate (header : UInt8) (don : List UInt8) (entries : List Entry)
  | fragmented (first : Fragment) (rest : List Fragment)
  | skipped (payload : List UInt8)

inductive Kind
  | single
  | aggregated
  | fragmented
  deriving DecidableEq, Repr

structure NalUnit where
  kind : Kind
  nal : List UInt8
  deriving DecidableEq, Repr

def Entry.bytes (e : Entry) : List UInt8 := hton16 e.nal.length ++ e.extra ++ e.nal

def Fragment.payload (f : Fragment) : List UInt8 := f.indicator :: f.header :: (f.don ++ f.chunk)

/-- The header of a fragmented NAL unit, put together from those of a fragment. -/
def Fragment.nalHeader (f : Fragment) : UInt8 :=
  nalHeaderGet ⟨0, (nalHeaderSet f.indicator).nri, (fuHeaderSet f.header).t⟩

namespace Carrier

def payloads : Carrier → List (List UInt8)
  | .single nal => [nal]
  | .aggregate header don entries => [header :: (don ++ entries.flatMap Entry.bytes)]
  | .fragmented first rest => (first :: rest).map Fragment.payload
  | .skipped payload => [payload]

def units : Carrier → List NalUnit
  | .single nal => [⟨.single, nal⟩]
  | .aggregate _ _ entries => entries.map fun e => ⟨.aggregated, e.nal⟩
  | .fragmented first rest =>
    [⟨.fragmented, first.nalHeader :: (first :: rest).flatMap Fragment.chunk⟩]
  | .skipped _ => []

end Carrier

structure Fragment.Ok (f : Fragment) : Prop where
  forbidden : (nalHeaderSet f.indicator).f = 0
  format : ((nalHeaderSet f.indicator).t = 28 ∧ f.don.length = 0) ∨
    ((nalHeaderSet f.indicator).t = 29 ∧ f.don.length = 2)

/-- The payloads are as RFC 6184 has them: single NAL unit packets, STAP-A, STAP-B, MTAP16,
MTAP24, FU-A and FU-B; a packet that is too short or has its forbidden bit set is skipped. -/
def Carrier.Ok : Carrier → Prop
  | .single nal => 2 ≤ nal.length ∧ (nalHeaderSet (nal.headD 0)).f = 0 ∧
      (nalHeaderSet (nal.headD 0)).t ≤ 23
  | .aggregate header don entries =>
    (nalHeaderSet header).f = 0 ∧ 24 ≤ (nalHeaderSet header).t ∧ (nalHeaderSet header).t ≤ 27 ∧
      don.length = (if (nalHeaderSet header).t = 24 then 0 else 2) ∧ entries ≠ [] ∧
      ∀ e ∈ entries, e.extra.length + 2 = aggregateHeader (nalHeaderSet header).t ∧
        e.nal ≠ [] ∧ e.nal.length < 65536
  | .fragmented first rest =>
    first.Ok ∧ (fuHeaderSet first.header).s = 1 ∧
      ∀ f ∈ rest, f.Ok ∧ (fuHeaderSet f.header).s ≠ 1
  | .skipped payload => payload.length < 2 ∨ (nalHeaderSet (payload.headD 0)).f ≠ 0

/-! ### What the receiver makes of them -/

/-- The wait, what is handed out, and the NAL unit in the buffer of the fragments. -/
structure Gate where
  waiting : Bool
  out : List (List UInt8) := []
  pending : Option (List UInt8) := none

namespace Gate

def hand (g : Gate) (nal : List UInt8) : Gate :=
  if g.waiting then g else { g with out := g.out ++ [startCode ++ nal] }

def unlock (g : Gate) (nal : List UInt8) : Gate := { g with waiting := g.waiting && !keyNal nal }

/-- A NAL unit on its way through `combin_frame`. -/
def meet (g : Gate) (u : NalUnit) : Gate :=
  match u.kind with
  | .single => (g.unlock u.nal).hand u.nal
  | .aggregated => g.hand u.nal
  | .fragmented => { g with pending := some u.nal }

/-- The block behind the loop. -/
def finish (g : Gate) : Gate :=
  match g.pending with
  | none => g
  | some nal => (g.unlock nal).hand nal

/-- The state of `combin_frame`. -/
structure Models (g : Gate) (c : Combin) : Prop where
  waiting : c.receiver.waitingForKeyframe = g.waiting
  out : c.out.map Frame.data = g.out
  pending : c.fuFrameData = (g.pending.map (startCode ++ ·)).getD []
  first : g.pending ≠ none → c.firstPkt ≠ none
  nonempty : ∀ nal ∈ g.pending, nal ≠ []

variable {g : Gate} {c : Combin}

theorem Models.sawKey (h : Models g c) (nal : List UInt8) :
    Models (g.unlock nal) (c.sawKey (nalHeaderSet (nal.headD 0)).t) := by
  unfold Combin.sawKey unlock keyNal
  split_ifs with hk
  · exact ⟨by rw [hk, Bool.not_true, Bool.and_false], h.out, h.pending, h.first, h.nonempty⟩
  · rw [Bool.not_eq_true] at hk
    exact ⟨by rw [hk, Bool.not_false, Bool.and_true]; exact h.waiting, h.out, h.pending, h.first,
      h.nonempty⟩

/-- A type that is no NAL unit's ends no wait. -/
theorem sawKey_eq {t : UInt8} (h : keyType t = false) (c : Combin) : c.sawKey t = c :=
  if_neg (by simp [h])

theorem Models.emit (h : Models g c) {f : Frame} {nal : List UInt8}
    (hf : f.data = startCode ++ nal) : Models (g.hand nal) (c.emit f).1 := by
  unfold Combin.emit hand
  rw [h.waiting]
  split_ifs
  · exact ⟨h.waiting, h.out, h.pending, h.first, h.nonempty⟩
  · refine ⟨h.waiting, ?_, h.pending, h.first, h.nonempty⟩
    rw [List.map_append, h.out, List.map_singleton, ← hf]
    unfold Receiver.invokeRtpFrame
    dsimp only
    split_ifs <;> rfl

/-! ### One packet -/

theorem combinPacket_single (h : Models g c) {pkt : Packet}
    (hok : (Carrier.single pkt.payload).Ok) :
    ∃ c', combinPacket c pkt = some (.ok c') ∧ Models (g.meet ⟨.single, pkt.payload⟩) c' := by
  obtain ⟨hlen, hf, ht⟩ := hok
  have hmodels := (h.sawKey pkt.payload).emit
    (f := { frameAt pkt.ts.toNat with data := startCode ++ pkt.payload }) rfl
  refine ⟨_, ?_, hmodels⟩
  unfold combinPacket
  rcases hp : pkt.payload with _ | ⟨p0, _ | ⟨p1, rest⟩⟩
  · rw [hp] at hlen
    exact absurd hlen (by decide)
  · rw [hp] at hlen
    exact absurd hlen (by rw [List.length_singleton]; decide)
  rw [hp, List.headD_cons] at hf ht
  dsimp only
  rw [if_neg (not_not_intro hf), if_pos ht]
  rfl

theorem combinPacket_skipped {pkt : Packet} (hok : (Carrier.skipped pkt.payload).Ok) :
    combinPacket c pkt = some (.ok c) := by
  unfold combinPacket
  rcases hp : pkt.payload with _ | ⟨p0, _ | ⟨p1, rest⟩⟩
  · rfl
  · rfl
  · rw [hp] at hok
    have hf := hok.resolve_left (by simp)
    rw [List.headD_cons] at hf
    dsimp only
    rw [if_pos hf]

/-- The loop over the NAL units of an aggregation packet, whose type is not that of a NAL
unit. -/
theorem aggregateLoop_entries {t : UInt8} (hk : keyType t = false) {hl : ℕ} (ts : List UInt8 → ℤ)
    {entries : List Entry} (hok : ∀ e ∈ entries, e.extra.length + 2 = hl ∧ e.nal ≠ [] ∧
      e.nal.length < 65536) {fuel : ℕ} (hfuel : (entries.flatMap Entry.bytes).length ≤ fuel)
    (f : Frame) (h : Models g c) :
    ∃ c', aggregateLoop t hl ts fuel (entries.flatMap Entry.bytes) f c = some c' ∧
      Models (entries.foldl (fun g e => g.hand e.nal) g) c' := by
  induction entries generalizing fuel f c g with
  | nil => exact ⟨c, by cases fuel <;> rfl, h⟩
  | cons e entries ih =>
    obtain ⟨⟨hextra, hne, hlen⟩, hrest⟩ := List.forall_mem_cons.mp hok
    rw [List.flatMap_cons] at hfuel ⊢
    obtain ⟨tail, htail⟩ : ∃ tail, tail = entries.flatMap Entry.bytes := ⟨_, rfl⟩
    rw [← htail] at hfuel ih ⊢
    have hbytes : e.bytes.length = hl + e.nal.length := by
      rw [Entry.bytes, List.length_append, List.length_append, hton16]
      simp only [List.length_cons, List.length_nil]
      omega
    rw [List.length_append, hbytes] at hfuel
    obtain ⟨fuel, rfl⟩ := Nat.exists_eq_succ_of_ne_zero (n := fuel) (by omega)
    have hdrop : (e.bytes ++ tail).drop hl = e.nal ++ tail := by
      rw [Entry.bytes, List.append_assoc]
      exact List.drop_left' (by
        rw [List.length_append, hton16]; simp only [List.length_cons, List.length_nil]; omega)
    have hlist : e.bytes ++ tail = UInt8.ofNat (e.nal.length / 256) :: UInt8.ofNat e.nal.length ::
        (e.extra ++ e.nal ++ tail) := by
      rw [Entry.bytes, hton16]
      simp
    obtain ⟨frame, hframe⟩ : ∃ frame : Frame, frame = { f with
      pts := ts (e.bytes ++ tail)
      dts := ts (e.bytes ++ tail)
      data := startCode ++ e.nal } := ⟨_, rfl⟩
    have hemit := h.emit (show frame.data = startCode ++ e.nal by rw [hframe])
    obtain ⟨c', hloop, hmodels⟩ := ih hrest (show tail.length ≤ fuel by omega) (c.emit frame).2
      hemit
    refine ⟨c', ?_, hmodels⟩
    rw [← hloop]
    conv_lhs => rw [hlist]; unfold aggregateLoop
    dsimp only
    rw [← hlist, hdrop, hton16_value hlen, if_neg (by rw [List.length_append, hbytes]; omega),
      if_neg (by rw [List.length_append]; omega), List.take_left, List.drop_left, sawKey_eq hk,
      ← hframe]
    obtain ⟨b, bytes, hnal⟩ := List.exists_cons_of_ne_nil hne
    rw [hnal]
    rfl

theorem keyType_of_aggregate {t : UInt8} (h24 : 24 ≤ t) : keyType t = false := by
  have hne : ∀ k : UInt8, k < 24 → (t == k) = false := fun k hk => by
    rw [beq_eq_false_iff_ne]
    rintro rfl
    exact UInt8.not_lt.mpr h24 hk
  rw [keyType, hne 7 (by decide), hne 8 (by decide), hne 5 (by decide)]
  rfl

theorem combinPacket_aggregate (h : Models g c) {pkt : Packet} {header : UInt8} {don : List UInt8}
    {entries : List Entry} (hok : (Carrier.aggregate header don entries).Ok)
    (hp : pkt.payload = header :: (don ++ entries.flatMap Entry.bytes)) :
    ∃ c', combinPacket c pkt = some (.ok c') ∧
      Models (entries.foldl (fun g e => g.hand e.nal) g) c' := by
  obtain ⟨hf, h24, h27, hdon, hne, hentries⟩ := hok
  have hk := keyType_of_aggregate h24
  have hnot23 : ¬ (nalHeaderSet header).t ≤ 23 := fun hle =>
    absurd (UInt8.le_trans h24 hle) (by decide)
  unfold combinPacket
  by_cases hstap : (nalHeaderSet header).t = 24
  · rw [if_pos hstap] at hdon
    obtain rfl := List.length_eq_zero_iff.mp hdon
    obtain ⟨e, es, rfl⟩ := List.exists_cons_of_ne_nil hne
    obtain ⟨p1, rest, hflat⟩ : ∃ p1 rest, (e :: es).flatMap Entry.bytes = p1 :: rest :=
      ⟨_, _, rfl⟩
    rw [hp, List.nil_append, hflat]
    dsimp only
    rw [if_neg (not_not_intro hf), if_neg hnot23, if_pos hstap, ← hflat]
    have hhl : aggregateHeader (nalHeaderSet header).t = 2 := by rw [hstap]; rfl
    rw [hhl] at hentries
    obtain ⟨c', hloop, hmodels⟩ := aggregateLoop_entries hk (fun _ => (pkt.ts.toNat : ℤ)) hentries
      le_rfl (frameAt pkt.ts.toNat) h
    exact ⟨c', by rw [hloop]; rfl, hmodels⟩
  · rw [if_neg hstap] at hdon
    obtain ⟨d0, d1, rfl⟩ := List.length_eq_two.mp hdon
    rw [hp, List.cons_append, List.cons_append, List.nil_append]
    dsimp only
    rw [if_neg (not_not_intro hf), if_neg hnot23, if_neg hstap, if_pos h27]
    obtain ⟨c', hloop, hmodels⟩ := aggregateLoop_entries hk
      (fun buf => pkt.ts.toNat + (be ((buf.take
        (aggregateHeader (nalHeaderSet header).t)).drop 3) : ℤ)) hentries
      le_rfl (frameAt pkt.ts.toNat) h
    exact ⟨c', by rw [hloop]; rfl, hmodels⟩

/-- A fragment that starts a NAL unit, or goes on with the pending one. -/
theorem combinPacket_fragment (h : Models g c) {pkt : Packet} {f : Fragment} (hok : f.Ok)
    (hp : pkt.payload = f.payload) {nal : List UInt8}
    (hnal : if (fuHeaderSet f.header).s = 1 then nal = [f.nalHeader] else g.pending = some nal) :
    ∃ c', combinPacket c pkt = some (.ok c') ∧
      Models { g with pending := some (nal ++ f.chunk) } c' := by
  have hf := hok.forbidden
  have ht28 : 28 ≤ (nalHeaderSet f.indicator).t ∧ (nalHeaderSet f.indicator).t ≤ 29 := by
    rcases hok.format with ⟨ht, -⟩ | ⟨ht, -⟩ <;> rw [ht] <;> decide
  have hnot : ∀ k : UInt8, k < 28 → ¬ (nalHeaderSet f.indicator).t ≤ k := fun k hk hle =>
    UInt8.not_lt.mpr (UInt8.le_trans ht28.1 hle) hk
  have hne24 : (nalHeaderSet f.indicator).t ≠ 24 := fun he =>
    hnot 24 (by decide) (by rw [he]; exact UInt8.le_rfl)
  have hskip : pkt.payload.drop (if (nalHeaderSet f.indicator).t = 29 then 4 else 2) = f.chunk ∧
      ¬ pkt.payload.length < if (nalHeaderSet f.indicator).t = 29 then 4 else 2 := by
    rw [hp, Fragment.payload]
    rcases hok.format with ⟨ht, hdon⟩ | ⟨ht, hdon⟩
    · rw [ht, if_neg (by decide), List.length_eq_zero_iff.mp hdon]
      exact ⟨rfl, by simp⟩
    · obtain ⟨d0, d1, hd⟩ := List.length_eq_two.mp hdon
      rw [ht, if_pos rfl, hd]
      exact ⟨rfl, by simp⟩
  -- the buffer before the bytes of the fragment
  obtain ⟨c₁, hc₁⟩ : ∃ c₁ : Combin, c₁ = if (fuHeaderSet f.header).s = 1 then { c with
      firstPkt := some pkt
      fuFrameData := startCode ++ [nalHeaderGet ⟨(nalHeaderSet f.indicator).f,
        (nalHeaderSet f.indicator).nri, (fuHeaderSet f.header).t⟩] } else c := ⟨_, rfl⟩
  have hstart : c₁.receiver = c.receiver ∧ c₁.out = c.out ∧ c₁.fuFrameData = startCode ++ nal ∧
      c₁.firstPkt ≠ none := by
    rw [hc₁]
    split_ifs at hnal ⊢ with hs
    · rw [hnal, hf]
      exact ⟨rfl, rfl, rfl, Option.some_ne_none _⟩
    · refine ⟨rfl, rfl, ?_, h.first (by rw [hnal]; exact Option.some_ne_none _)⟩
      rw [h.pending, hnal]
      rfl
  refine ⟨{ c₁ with fuFrameData := c₁.fuFrameData ++ f.chunk }, ?_, ?_⟩
  · unfold combinPacket
    rw [hp, Fragment.payload]
    dsimp only
    rw [← Fragment.payload, ← hp, if_neg (not_not_intro hf), if_neg (hnot 23 (by decide)),
      if_neg hne24, if_neg (hnot 27 (by decide)), if_pos ht28.2, ← hc₁, if_neg hstart.2.2.2,
      if_neg hskip.2, hskip.1]
  · have hne : nal ≠ [] := by
      split_ifs at hnal with hs
      · rw [hnal]
        exact List.cons_ne_nil _ _
      · exact h.nonempty nal hnal
    refine ⟨?_, ?_, ?_, fun _ => hstart.2.2.2, ?_⟩
    · rw [hstart.1]
      exact h.waiting
    · rw [hstart.2.1]
      exact h.out
    · rw [hstart.2.2.1, List.append_assoc]
      rfl
    · rintro _ ⟨⟩
      exact List.append_ne_nil_of_left_ne_nil hne _

/-! ### A frame -/

theorem combinLoop_fragments (h : Models g c) {nal : List UInt8} (hg : g.pending = some nal)
    {rest : List Fragment} (hok : ∀ f ∈ rest, f.Ok ∧ (fuHeaderSet f.header).s ≠ 1)
    {pkts : List Packet} (hp : pkts.map Packet.payload = rest.map Fragment.payload) :
    ∃ c', combinLoop c pkts = some (.ok c') ∧
      Models { g with pending := some (nal ++ rest.flatMap Fragment.chunk) } c' := by
  induction rest generalizing g c nal pkts with
  | nil =>
    obtain rfl := List.map_eq_nil_iff.mp hp
    refine ⟨c, rfl, ?_⟩
    rw [List.flatMap_nil, List.append_nil, ← hg]
    exact h
  | cons f rest ih =>
    obtain ⟨⟨hf, hs⟩, hrest⟩ := List.forall_mem_cons.mp hok
    obtain ⟨pkt, pkts, rfl, hpkt, hp⟩ := List.map_eq_cons_iff.mp hp
    obtain ⟨c₁, hstep, hmodels⟩ := combinPacket_fragment h hf hpkt (by rw [if_neg hs]; exact hg)
    obtain ⟨c', hloop, hend⟩ := ih hmodels rfl hrest hp
    refine ⟨c', ?_, ?_⟩
    · unfold combinLoop
      rw [hstep]
      exact hloop
    · rw [List.flatMap_cons, ← List.append_assoc]
      exact hend

theorem combinLoop_carrier (h : Models g c) {carrier : Carrier} (hok : carrier.Ok)
    {pkts : List Packet} (hp : pkts.map Packet.payload = carrier.payloads) :
    ∃ c', combinLoop c pkts = some (.ok c') ∧ Models (carrier.units.foldl meet g) c' := by
  cases carrier with
  | single nal =>
    obtain ⟨pkt, pkts, rfl, rfl, hnil⟩ := List.map_eq_cons_iff.mp hp
    obtain rfl := List.map_eq_nil_iff.mp hnil
    obtain ⟨c', hstep, hmodels⟩ := combinPacket_single h hok
    exact ⟨c', by simp only [combinLoop, hstep], hmodels⟩
  | aggregate header don entries =>
    obtain ⟨pkt, pkts, rfl, hpkt, hnil⟩ := List.map_eq_cons_iff.mp hp
    obtain rfl := List.map_eq_nil_iff.mp hnil
    obtain ⟨c', hstep, hmodels⟩ := combinPacket_aggregate h hok hpkt
    refine ⟨c', by simp only [combinLoop, hstep], ?_⟩
    rw [Carrier.units, List.foldl_map]
    exact hmodels
  | fragmented first rest =>
    obtain ⟨hfirst, hs, hrest⟩ := hok
    rw [Carrier.payloads, List.map_cons] at hp
    obtain ⟨pkt, pkts, rfl, hpkt, hp⟩ := List.map_eq_cons_iff.mp hp
    obtain ⟨c₁, hstep, hmodels⟩ := combinPacket_fragment h hfirst hpkt
      (show if (fuHeaderSet first.header).s = 1 then [first.nalHeader] = [first.nalHeader] else
        g.pending = some [first.nalHeader] by rw [if_pos hs])
    obtain ⟨c', hloop, hend⟩ := combinLoop_fragments hmodels rfl hrest hp
    refine ⟨c', by simp only [combinLoop, hstep, hloop], ?_⟩
    rw [List.append_assoc] at hend
    exact hend
  | skipped payload =>
    obtain ⟨pkt, pkts, rfl, rfl, hnil⟩ := List.map_eq_cons_iff.mp hp
    obtain rfl := List.map_eq_nil_iff.mp hnil
    exact ⟨c, by simp only [combinLoop, combinPacket_skipped hok], h⟩

/-- The loop of `combin_frame` refines the way of the NAL units through the gate. -/
theorem combinLoop_carriers (h : Models g c) {cs : List Carrier} (hok : ∀ k ∈ cs, k.Ok)
    {pkts : List Packet} (hp : pkts.map Packet.payload = cs.flatMap Carrier.payloads) :
    ∃ c', combinLoop c pkts = some (.ok c') ∧
      Models ((cs.flatMap Carrier.units).foldl meet g) c' := by
  induction cs generalizing g c pkts with
  | nil =>
    obtain rfl := List.map_eq_nil_iff.mp hp
    exact ⟨c, rfl, h⟩
  | cons k cs ih =>
    obtain ⟨hk, hcs⟩ := List.forall_mem_cons.mp hok
    obtain ⟨xs, ys, rfl, hxs, hys⟩ := List.map_eq_append_iff.mp hp
    obtain ⟨c₁, hfirst, hmodels⟩ := combinLoop_carrier h hk hxs
    obtain ⟨c', hrest, hend⟩ := ih hmodels hcs hys
    refine ⟨c', by rw [combinLoop_append hfirst, hrest], ?_⟩
    rw [List.flatMap_cons, List.foldl_append]
    exact hend

theorem combinFu_finish (h : Models g c) :
    ∃ c', combinFu c = some c' ∧ c'.receiver.waitingForKeyframe = g.finish.waiting ∧
      c'.out.map Frame.data = g.finish.out := by
  unfold combinFu finish
  rcases hg : g.pending with _ | nal
  · rw [if_pos (by rw [h.pending, hg]; rfl)]
    exact ⟨c, rfl, h.waiting, h.out⟩
  · have hdata : c.fuFrameData = startCode ++ nal := by rw [h.pending, hg]; rfl
    obtain ⟨b, bytes, rfl⟩ := List.exists_cons_of_ne_nil (h.nonempty nal hg)
    obtain ⟨pkt, hpkt⟩ := Option.ne_none_iff_exists'.mp
      (h.first (by rw [hg]; exact Option.some_ne_none _))
    have hmodels := (h.sawKey (b :: bytes)).emit
      (f := { frameAt pkt.ts.toNat with data := startCode ++ (b :: bytes) }) rfl
    have hkey : (c.sawKey (nalHeaderSet b).t).fuFrameData = startCode ++ (b :: bytes) := by
      rw [← hdata]
      unfold Combin.sawKey
      split_ifs <;> rfl
    refine ⟨_, ?_, hmodels.waiting, hmodels.out⟩
    rw [if_neg (by rw [hdata]; exact List.append_ne_nil_of_right_ne_nil _ (List.cons_ne_nil _ _)),
      hpkt, hdata]
    dsimp only [startCode, List.cons_append, List.nil_append, List.getElem?_cons_succ,
      List.getElem?_cons_zero]
    rw [hkey]
    rfl

/-- `combin_frame` refines the way of the NAL units through the gate. -/
theorem combinFrame_carriers (r : Receiver) {cs : List Carrier} (hok : ∀ k ∈ cs, k.Ok)
    {pkts : List Packet} (hp : pkts.map Packet.payload = cs.flatMap Carrier.payloads) :
    ∃ r' out, combinFrame r pkts = some (r', out) ∧
      r'.waitingForKeyframe =
        ((cs.flatMap Carrier.units).foldl meet ⟨r.waitingForKeyframe, [], none⟩).finish.waiting ∧
      out.map Frame.data =
        ((cs.flatMap Carrier.units).foldl meet ⟨r.waitingForKeyframe, [], none⟩).finish.out := by
  obtain ⟨c, hloop, hmodels⟩ := combinLoop_carriers (g := ⟨r.waitingForKeyframe, [], none⟩)
    (c := { receiver := r }) ⟨rfl, rfl, rfl, fun h => absurd rfl h, by rintro _ ⟨⟩⟩ hok hp
  obtain ⟨c', hfu, hwaiting, hout⟩ := combinFu_finish hmodels
  exact ⟨c'.receiver, c'.out, by rw [combinFrame, hloop]; dsimp only; rw [hfu]; rfl, hwaiting, hout⟩

/-! ### The way through the gate -/

/-- The fragmented NAL unit that is in the buffer after the NAL units. -/
def pendingAfter : Option (List UInt8) → List NalUnit → Option (List UInt8)
  | pending, [] => pending
  | pending, u :: us =>
    pendingAfter (if u.kind = .fragmented then some u.nal else pending) us

def fragmentedCount (us : List NalUnit) : ℕ := us.countP fun u => u.kind = .fragmented

/-- The NAL units that are handed out as they are met, as Annex B has them. -/
def atOnce (us : List NalUnit) : List (List UInt8) :=
  (us.filter fun u => u.kind ≠ .fragmented).map fun u => startCode ++ u.nal

theorem atOnce_append (us vs : List NalUnit) : atOnce (us ++ vs) = atOnce us ++ atOnce vs := by
  rw [atOnce, atOnce, atOnce, List.filter_append, List.map_append]

theorem foldl_meet_open (us : List NalUnit) {g : Gate} (h : g.waiting = false) :
    us.foldl meet g = ⟨false, g.out ++ atOnce us, pendingAfter g.pending us⟩ := by
  induction us generalizing g with
  | nil =>
    rw [atOnce, List.filter_nil, List.map_nil, List.append_nil]
    exact congrArg (Gate.mk · g.out g.pending) h
  | cons u us ih =>
    obtain ⟨kind, nal⟩ := u
    have hopen : (g.meet ⟨kind, nal⟩).waiting = false ∧
        (g.meet ⟨kind, nal⟩).out = g.out ++ atOnce [⟨kind, nal⟩] ∧
        (g.meet ⟨kind, nal⟩).pending = if kind = .fragmented then some nal else g.pending := by
      cases kind <;> simp [meet, hand, unlock, h, atOnce]
    rw [List.foldl_cons, ih hopen.1, hopen.2.1, hopen.2.2, List.append_assoc, ← atOnce_append]
    rfl

theorem foldl_meet_closed {us : List NalUnit}
    (hus : ∀ u ∈ us, u.kind = .single → keyNal u.nal = false) {g : Gate} (h : g.waiting = true) :
    us.foldl meet g = ⟨true, g.out, pendingAfter g.pending us⟩ := by
  induction us generalizing g with
  | nil => exact congrArg (Gate.mk · g.out g.pending) h
  | cons u us ih =>
    obtain ⟨hu, hrest⟩ := List.forall_mem_cons.mp hus
    obtain ⟨kind, nal⟩ := u
    have hclosed : (g.meet ⟨kind, nal⟩).waiting = true ∧ (g.meet ⟨kind, nal⟩).out = g.out ∧
        (g.meet ⟨kind, nal⟩).pending = if kind = .fragmented then some nal else g.pending := by
      cases kind
      · have hkey : keyNal nal = false := hu rfl
        simp [meet, hand, unlock, h, hkey]
      · simp [meet, hand, h]
      · simp [meet, h]
    rw [List.foldl_cons, ih hrest hclosed.1, hclosed.2.1, hclosed.2.2]
    rfl

theorem pendingAfter_append (p : Option (List UInt8)) (us vs : List NalUnit) :
    pendingAfter p (us ++ vs) = pendingAfter (pendingAfter p us) vs := by
  induction us generalizing p with
  | nil => rfl
  | cons u us ih => exact ih _

theorem pendingAfter_of_count_eq_zero {us : List NalUnit} (h : fragmentedCount us = 0)
    (p : Option (List UInt8)) :
    pendingAfter p us = p ∧ atOnce us = us.map fun u => startCode ++ u.nal := by
  have hkind : ∀ u ∈ us, u.kind ≠ .fragmented := fun u hu => by
    simpa using List.countP_eq_zero.mp h u hu
  refine ⟨?_, congrArg (List.map _) (List.filter_eq_self.mpr fun u hu => by simpa using hkind u hu)⟩
  clear h
  induction us with
  | nil => rfl
  | cons u us ih =>
    obtain ⟨hu, hus⟩ := List.forall_mem_cons.mp hkind
    rw [pendingAfter, if_neg hu]
    exact ih hus

/-- The only fragmented NAL unit comes behind the others. -/
theorem perm_of_count_eq_one {us : List NalUnit} (h : fragmentedCount us = 1)
    (p : Option (List UInt8)) :
    ∃ nal, pendingAfter p us = some nal ∧
      (us.map fun u => startCode ++ u.nal).Perm (atOnce us ++ [startCode ++ nal]) := by
  induction us generalizing p with
  | nil => cases h
  | cons u us ih =>
    by_cases hu : u.kind = .fragmented
    · have hzero : fragmentedCount us = 0 := by
        rw [fragmentedCount, List.countP_cons_of_pos (by simpa using hu)] at h
        exact Nat.succ.inj h
      obtain ⟨hpending, honce⟩ := pendingAfter_of_count_eq_zero hzero (some u.nal)
      refine ⟨u.nal, by rw [pendingAfter, if_pos hu, hpending], ?_⟩
      rw [atOnce, List.filter_cons_of_neg (by simpa using hu), ← atOnce, honce, List.map_cons]
      exact (List.perm_append_singleton _ _).symm
    · rw [fragmentedCount, List.countP_cons_of_neg (by simpa using hu)] at h
      obtain ⟨nal, hpending, hperm⟩ := ih h p
      refine ⟨nal, by rw [pendingAfter, if_neg hu, hpending], ?_⟩
      rw [atOnce, List.filter_cons_of_pos (by simpa using hu), List.map_cons, List.map_cons,
        ← atOnce, List.cons_append]
      exact hperm.cons _

/-- All NAL units are handed out, at once or at the end, if at most one is fragmented. -/
theorem subperm_iff (us : List NalUnit) (p : Option (List UInt8)) :
    (us.map fun u => startCode ++ u.nal).Subperm
        (atOnce us ++ (pendingAfter p us).toList.map (startCode ++ ·)) ↔
      fragmentedCount us ≤ 1 := by
  constructor
  · intro h
    have hlen := h.length_le
    have hsplit := List.length_eq_countP_add_countP (l := us) fun u => u.kind = .fragmented
    have hpending : (pendingAfter p us).toList.length ≤ 1 := by
      rcases pendingAfter p us with _ | nal
      · exact Nat.zero_le 1
      · exact le_rfl
    rw [List.length_append, List.length_map, List.length_map, atOnce, List.length_map,
      ← List.countP_eq_length_filter] at hlen
    rw [fragmentedCount]
    simp only [ne_eq, decide_not, Bool.decide_eq_true] at hlen hsplit
    omega
  · intro h
    rcases Nat.le_one_iff_eq_zero_or_eq_one.mp h with h0 | h1
    · rw [(pendingAfter_of_count_eq_zero h0 p).2]
      exact (List.sublist_append_left _ _).subperm
    · obtain ⟨nal, hpending, hperm⟩ := perm_of_count_eq_one h1 p
      rw [hpending]
      exact hperm.subperm

theorem exists_of_pendingAfter {p : Option (List UInt8)} {us : List NalUnit} {nal : List UInt8}
    (h : pendingAfter p us = some nal) : p = some nal ∨ ∃ u ∈ us, u.kind = .fragmented ∧
      u.nal = nal := by
  induction us generalizing p with
  | nil => exact .inl h
  | cons u us ih =>
    rcases ih h with hp | ⟨v, hv, hkind, hnal⟩
    · split_ifs at hp with hu
      · exact .inr ⟨u, List.mem_cons_self, hu, Option.some.inj hp⟩
      · exact .inl hp
    · exact .inr ⟨v, List.mem_cons_of_mem _ hv, hkind, hnal⟩

/-- What is handed out at the end, of a gate that is open behind some of the NAL units. -/
theorem finish_of_open {g : Gate} (h : g.waiting = false) :
    g.finish.waiting = false ∧
      g.finish.out = g.out ++ g.pending.toList.map (startCode ++ ·) := by
  unfold finish
  rcases g.pending with _ | nal
  · exact ⟨h, (List.append_nil _).symm⟩
  · simp [unlock, hand, h]

theorem meet_single_key {nal : List UInt8} (h : keyNal nal = true) (p : Option (List UInt8)) :
    meet ⟨true, [], p⟩ ⟨.single, nal⟩ = ⟨false, [startCode ++ nal], p⟩ := by
  simp [meet, unlock, hand, h]

theorem finish_fragmented_key {nal : List UInt8} (h : keyNal nal = true)
    (p : Option (List UInt8)) :
    (meet ⟨true, [], p⟩ ⟨.fragmented, nal⟩).finish =
      ⟨false, [startCode ++ nal], some nal⟩ := by
  simp [meet, finish, unlock, hand, h]

theorem finish_waits {out : List (List UInt8)} {p : Option (List UInt8)}
    (h : ∀ nal, p = some nal → keyNal nal = false) :
    ¬(⟨true, out, p⟩ : Gate).finish.waiting = false := by
  rcases p with _ | nal
  · exact (Bool.noConfusion : true ≠ false)
  · simp [finish, unlock, hand, h nal rfl]

/-- Without a wait, what is handed out for the NAL units behind the first ones. -/
theorem finish_open (us vs : List NalUnit) :
    ((us ++ vs).foldl meet ⟨false, [], none⟩).finish.waiting = false ∧
      ((us ++ vs).foldl meet ⟨false, [], none⟩).finish.out.drop (atOnce us).length =
        atOnce vs ++ (pendingAfter (pendingAfter none us) vs).toList.map (startCode ++ ·) := by
  have hfinish := finish_of_open (g := (us ++ vs).foldl meet ⟨false, [], none⟩)
    (by rw [foldl_meet_open _ rfl])
  refine ⟨hfinish.1, ?_⟩
  rw [hfinish.2, foldl_meet_open _ rfl, List.nil_append, atOnce_append, pendingAfter_append,
    List.append_assoc]
  exact List.drop_left' rfl

end Gate

open Gate

theorem Carrier.payloads_ne_nil (k : Carrier) : k.payloads ≠ [] := by
  cases k <;> exact List.cons_ne_nil _ _

/-- The NAL units of one carrier are of one kind, and but for an aggregation packet there is
only one. -/
theorem Carrier.units_kind (k : Carrier) {us vs : List NalUnit} {u : NalUnit}
    (h : k.units = us ++ u :: vs) :
    (∀ v ∈ vs, v.kind = u.kind) ∧ (u.kind = .fragmented → vs = []) := by
  have hall : ∀ v ∈ k.units, ∀ w ∈ k.units, v.kind = w.kind := by
    cases k with
    | single nal => simp [units]
    | aggregate header don entries => simp [units]
    | fragmented first rest => simp [units]
    | skipped payload => simp [units]
  refine ⟨fun v hv => hall v (by rw [h]; simp [hv]) u (by rw [h]; simp), fun hu => ?_⟩
  cases k with
  | single nal =>
    have := congrArg List.length h
    rw [units, List.length_singleton, List.length_append, List.length_cons] at this
    exact List.length_eq_zero_iff.mp (by omega)
  | aggregate header don entries =>
    have hmem : u ∈ (Carrier.aggregate header don entries).units := by rw [h]; simp
    obtain ⟨e, -, rfl⟩ := List.mem_map.mp hmem
    cases hu
  | fragmented first rest =>
    have := congrArg List.length h
    rw [units, List.length_singleton, List.length_append, List.length_cons] at this
    exact List.length_eq_zero_iff.mp (by omega)
  | skipped payload => exact absurd h (by simp [units])

/-- Behind the packets `p₁` that bring a key NAL unit the wait is over, at the latest at the
end of the frame, and all NAL units `us` from it on are handed out, behind the first ones. -/
structure OpensAt (r : Receiver) (p₁ p₂ : List Packet) (early : ℕ) (us : List NalUnit) : Prop where
  opened : p₂ ≠ [] → ∃ c, combinLoop { receiver := r } p₁ = some (.ok c) ∧
    c.receiver.waitingForKeyframe = false
  delivered : ∃ r' out, combinFrame r (p₁ ++ p₂) = some (r', out) ∧
    r'.waitingForKeyframe = false ∧
    (us.map fun u => startCode ++ u.nal).Subperm ((out.map Frame.data).drop early)

/-- How many of the NAL units before the first key one are handed out as they are met. -/
def handedBefore (r : Receiver) (us : List NalUnit) : ℕ :=
  if r.waitingForKeyframe then 0 else (atOnce us).length

/-- The wait ends with the first key NAL unit of a frame and the others follow exactly if at
most one of the NAL units from it on is fragmented, and it comes, when there is a wait, in
a packet of its own or in the last fragments of the frame. -/
theorem keyGate_iff (r : Receiver) {cs₁ cs₂ : List Carrier} {k : Carrier}
    (hok : ∀ c ∈ cs₁ ++ k :: cs₂, c.Ok) {us vs : List NalUnit} {u : NalUnit}
    (hk : k.units = us ++ u :: vs) (hu : keyNal u.nal = true)
    (hfirst : ∀ v ∈ cs₁.flatMap Carrier.units ++ us, keyNal v.nal = false) {p₁ p₂ : List Packet}
    (h₁ : p₁.map Packet.payload = (cs₁ ++ [k]).flatMap Carrier.payloads)
    (h₂ : p₂.map Packet.payload = cs₂.flatMap Carrier.payloads) :
    OpensAt r p₁ p₂ (handedBefore r (cs₁.flatMap Carrier.units ++ us))
        (u :: vs ++ cs₂.flatMap Carrier.units) ↔
      fragmentedCount (u :: vs ++ cs₂.flatMap Carrier.units) ≤ 1 ∧
        (r.waitingForKeyframe = true →
          u.kind = .single ∨ (u.kind = .fragmented ∧ cs₂ = [])) := by
  obtain ⟨before, hbefore⟩ : ∃ before, before = cs₁.flatMap Carrier.units ++ us := ⟨_, rfl⟩
  obtain ⟨behind, hbehind⟩ : ∃ behind, behind = cs₂.flatMap Carrier.units := ⟨_, rfl⟩
  have hunits₁ : (cs₁ ++ [k]).flatMap Carrier.units = before ++ u :: vs := by
    rw [List.flatMap_append, List.flatMap_singleton, hk, hbefore, List.append_assoc]
  have hunits : (cs₁ ++ k :: cs₂).flatMap Carrier.units = before ++ (u :: vs ++ behind) := by
    rw [List.flatMap_append, List.flatMap_cons, hk, hbefore, hbehind]
    simp only [List.append_assoc, List.cons_append]
  have hpkts : (p₁ ++ p₂).map Packet.payload = (cs₁ ++ k :: cs₂).flatMap Carrier.payloads := by
    rw [List.map_append, h₁, h₂, ← List.flatMap_append, List.append_assoc, List.singleton_append]
  have hp₂ : p₂ = [] ↔ cs₂ = [] := by
    rw [← List.map_eq_nil_iff (f := Packet.payload), h₂, List.flatMap_eq_nil_iff]
    refine ⟨fun h => List.eq_nil_iff_forall_not_mem.mpr fun c hc => c.payloads_ne_nil (h c hc), ?_⟩
    rintro rfl
    exact List.forall_mem_nil _
  obtain ⟨c, hloop, hmodels⟩ := combinLoop_carriers (g := ⟨r.waitingForKeyframe, [], none⟩)
    (c := { receiver := r }) ⟨rfl, rfl, rfl, fun h => absurd rfl h, by rintro _ ⟨⟩⟩
    (fun c hc => hok c (by
      rw [List.append_cons]; exact List.mem_append_left _ hc)) h₁
  obtain ⟨r', out, hframe, hwaiting, hout⟩ := combinFrame_carriers r hok hpkts
  rw [hunits₁] at hmodels
  rw [hunits] at hwaiting hout
  rw [← hbefore] at hfirst ⊢
  rw [← hbehind]
  have hopens : OpensAt r p₁ p₂ (handedBefore r before) (u :: vs ++ behind) ↔
      (cs₂ ≠ [] → c.receiver.waitingForKeyframe = false) ∧ r'.waitingForKeyframe = false ∧
      ((u :: vs ++ behind).map fun u => startCode ++ u.nal).Subperm
        ((out.map Frame.data).drop (handedBefore r before)) := by
    constructor
    · rintro ⟨hopened, r₂, out₂, hframe₂, hdelivered⟩
      rw [hframe] at hframe₂
      obtain ⟨rfl, rfl⟩ := Prod.mk.inj (Option.some.inj hframe₂)
      refine ⟨fun hne => ?_, hdelivered⟩
      obtain ⟨c₂, hloop₂, hopen⟩ := hopened (mt hp₂.mp hne)
      rw [hloop] at hloop₂
      obtain rfl := Except.ok.inj (Option.some.inj hloop₂)
      exact hopen
    · rintro ⟨hopened, hdelivered⟩
      exact ⟨fun hne => ⟨c, hloop, hopened (mt hp₂.mpr hne)⟩, r', out, hframe, hdelivered⟩
  rw [hopens, hmodels.waiting, hwaiting, hout, handedBefore]
  cases hr : r.waitingForKeyframe with
  | false =>
    obtain ⟨hwait, hdrop⟩ := finish_open before (u :: vs ++ behind)
    rw [foldl_meet_open _ rfl, if_neg Bool.false_ne_true, hwait, hdrop, subperm_iff]
    exact ⟨fun h => ⟨h.2.2, fun hwaits => absurd hwaits Bool.false_ne_true⟩,
      fun h => ⟨fun _ => rfl, rfl, h.1⟩⟩
  | true =>
    rw [if_pos rfl, List.drop_zero, List.foldl_append, List.foldl_append, List.foldl_append,
      foldl_meet_closed (fun v hv _ => hfirst v hv) rfl]
    obtain ⟨hkinds, hlast⟩ := k.units_kind hk
    obtain ⟨kind, nal⟩ := u
    cases kind with
    | single =>
      rw [List.foldl_cons, meet_single_key hu, ← List.foldl_append]
      obtain ⟨hwait, hsent⟩ := finish_of_open
        (g := (vs ++ behind).foldl meet ⟨false, [startCode ++ nal], pendingAfter none before⟩)
        (by rw [foldl_meet_open _ rfl])
      rw [hwait, hsent, foldl_meet_open _ rfl, foldl_meet_open _ rfl]
      exact ⟨fun h => ⟨(subperm_iff _ _).mp h.2.2, fun _ => .inl rfl⟩,
        fun h => ⟨fun _ => rfl, rfl, (subperm_iff _ _).mpr h.1⟩⟩
    | aggregated =>
      have hkind : ∀ v ∈ (⟨.aggregated, nal⟩ : NalUnit) :: vs, v.kind = .aggregated :=
        List.forall_mem_cons.mpr ⟨rfl, hkinds⟩
      have hclosed := foldl_meet_closed (g := ⟨true, [], pendingAfter none before⟩)
        (fun v hv (hs : v.kind = .single) => absurd (hs.symm.trans (hkind v hv)) (by decide)) rfl
      rw [hclosed]
      refine ⟨fun h => ?_, fun h => ?_⟩
      · have hcs₂ : cs₂ = [] := by
          by_contra hne
          exact absurd (h.1 hne) (Bool.noConfusion : true ≠ false)
        rw [hcs₂, List.flatMap_nil] at hbehind
        rw [hbehind, List.foldl_nil] at h
        exact absurd h.2.1 (finish_waits fun nal' hnal' => by
          rcases exists_of_pendingAfter hnal' with hpend | ⟨v, hv, hfrag, -⟩
          · rcases exists_of_pendingAfter hpend with hnone | ⟨v, hv, -, rfl⟩
            · cases hnone
            · exact hfirst v hv
          · exact absurd (hfrag.symm.trans (hkind v hv)) (by decide))
      · rcases h.2 rfl with hs | ⟨hs, -⟩ <;> cases hs
    | fragmented =>
      obtain rfl := hlast rfl
      rw [List.foldl_cons, List.foldl_nil]
      by_cases hcs₂ : cs₂ = []
      · rw [hcs₂, List.flatMap_nil] at hbehind
        rw [hbehind, List.foldl_nil, finish_fragmented_key hu]
        exact ⟨fun _ => ⟨le_rfl, fun _ => .inr ⟨rfl, hcs₂⟩⟩,
          fun _ => ⟨fun hne => absurd hcs₂ hne, rfl, List.Subperm.refl _⟩⟩
      · refine ⟨fun h => absurd (h.1 hcs₂) (Bool.noConfusion : true ≠ false), fun h => ?_⟩
        rcases h.2 rfl with hs | ⟨-, hnil⟩
        · cases hs
        · exact absurd hnil hcs₂

private def slicePacket (payload : List UInt8) : Packet := ⟨true, 96, 1, 3000, 1, payload⟩

theorem keyGate_single :
    OpensAt (Receiver.newVideo 1) [slicePacket [0x65, 0x88]] [slicePacket [0x41, 0x9a]] 0
      [⟨.single, [0x65, 0x88]⟩, ⟨.single, [0x41, 0x9a]⟩] :=
  (@keyGate_iff (Receiver.newVideo 1) [] [.single [0x41, 0x9a]] (.single [0x65, 0x88])
    (fun c hc => by
      rcases List.mem_pair.mp hc with rfl | rfl <;> exact ⟨by decide, by decide, by decide⟩)
    [] [] ⟨.single, [0x65, 0x88]⟩ rfl (by decide) (List.forall_mem_nil _) _ _ rfl rfl).mpr
    ⟨by decide, fun _ => .inl rfl⟩

/-- The aggregation packet has an IDR slice; the wait goes on and nothing is handed out. -/
theorem aggregated_key_missed :
    (Carrier.aggregate 0x78 [] [⟨[], [0x65, 0x88]⟩]).Ok ∧ keyNal [0x65, 0x88] = true ∧
      [slicePacket [0x78, 0, 2, 0x65, 0x88]].map Packet.payload =
        (Carrier.aggregate 0x78 [] [⟨[], [0x65, 0x88]⟩]).payloads ∧
      (combinFrame (Receiver.newVideo 1) [slicePacket [0x78, 0, 2, 0x65, 0x88]]).map
        (fun x => (x.1.waitingForKeyframe, x.2)) = some (true, []) ∧
      ¬OpensAt (Receiver.newVideo 1) [slicePacket [0x78, 0, 2, 0x65, 0x88]] [] 0
        [⟨.aggregated, [0x65, 0x88]⟩] := by
  have hframe : (combinFrame (Receiver.newVideo 1) [slicePacket [0x78, 0, 2, 0x65, 0x88]]).map
      (fun x => (x.1.waitingForKeyframe, x.2)) = some (true, []) := by decide
  refine ⟨⟨by decide, by decide, by decide, rfl, List.cons_ne_nil _ _,
    List.forall_mem_singleton.mpr ⟨rfl, List.cons_ne_nil _ _, by decide⟩⟩, by decide, rfl, hframe,
    ?_⟩
  rintro ⟨-, r', out, hr', hwait, -⟩
  rw [List.append_nil] at hr'
  rw [hr', Option.map_some, hwait] at hframe
  cases hframe

end CxxDeps.H264
