import Mathlib.Algebra.Order.BigOperators.Group.List
import CxxDeps.H264.AnnexB
import CxxDeps.H264.Depacketize
import CxxDeps.H264.Sender
import CxxDeps.Library.Bits

/-! Packetisation followed by depacketisation. NAL units sent whole or in one
aggregation packet come back in order. A fragmented NAL unit is collected in a
buffer that the next one overwrites and that is handed out behind everything
else, so an access unit comes back exactly when at most its last NAL unit is
fragmented. -/

namespace CxxDeps.H264

open Rtp

/-- A NAL unit of the types that are sent as they are. -/
structure NalOk (nal : List UInt8) : Prop where
  delimited : Delimited nal
  two : 2 ≤ nal.length
  forbidden : ∀ b ∈ nal.head?, (nalHeaderSet b).f = 0
  type : ∀ b ∈ nal.head?, 1 ≤ (nalHeaderSet b).t ∧ (nalHeaderSet b).t ≤ 23

theorem nalOk_cons {b : UInt8} {bs : List UInt8} (hd : Delimited (b :: bs))
    (h2 : 2 ≤ (b :: bs).length) (hf : (nalHeaderSet b).f = 0)
    (ht : 1 ≤ (nalHeaderSet b).t ∧ (nalHeaderSet b).t ≤ 23) : NalOk (b :: bs) where
  delimited := hd
  two := h2
  forbidden := by rintro c ⟨⟩; exact hf
  type := by rintro c ⟨⟩; exact ht

/-! ### Header bytes -/

private theorem header_get_set (b : UInt8) : nalHeaderGet (nalHeaderSet b) = b := by
  revert b; exact Library.forall_uint8 (by decide +kernel)

private theorem header_set_get_24 (b : UInt8) :
    nalHeaderSet (nalHeaderGet ⟨(nalHeaderSet b).f, (nalHeaderSet b).nri, 24⟩) =
      ⟨(nalHeaderSet b).f, (nalHeaderSet b).nri, 24⟩ := by
  revert b; exact Library.forall_uint8 (by decide +kernel)

theorem nalHeader_set_get (b : UInt8) :
    nalHeaderSet (nalHeaderGet ⟨(nalHeaderSet b).f, (nalHeaderSet b).nri, 28⟩) =
      ⟨(nalHeaderSet b).f, (nalHeaderSet b).nri, 28⟩ := by
  revert b; exact Library.forall_uint8 (by decide +kernel)

theorem fuHeader_set_get (b : UInt8) :
    fuHeaderSet (fuHeaderGet ⟨1, 0, 0, (nalHeaderSet b).t⟩) = ⟨1, 0, 0, (nalHeaderSet b).t⟩ ∧
      fuHeaderSet (fuHeaderGet ⟨0, 1, 0, (nalHeaderSet b).t⟩) = ⟨0, 1, 0, (nalHeaderSet b).t⟩ ∧
      fuHeaderSet (fuHeaderGet ⟨0, 0, 0, (nalHeaderSet b).t⟩) = ⟨0, 0, 0, (nalHeaderSet b).t⟩ := by
  revert b; exact Library.forall_uint8 (by decide +kernel)

/-! ### What the receiver has collected -/

/-- The data handed out so far and the bytes of the fragmented NAL unit, of a
receiver that waits for no key frame. -/
structure Shows (c : Combin) (out : List (List UInt8)) (fu : List UInt8) : Prop where
  notWaiting : c.receiver.waitingForKeyframe = false
  out : c.out.map Frame.data = out
  fuFrameData : c.fuFrameData = fu
  firstPkt : fu ≠ [] → c.firstPkt ≠ none

namespace Shows

variable {c : Combin} {out : List (List UInt8)} {fu : List UInt8}

theorem sawKey (h : Shows c out fu) (t : UInt8) : Shows (c.sawKey t) out fu := by
  unfold Combin.sawKey
  split
  · exact ⟨rfl, h.out, h.fuFrameData, h.firstPkt⟩
  · exact h

theorem emit (h : Shows c out fu) (f : Frame) : Shows (c.emit f).1 (out ++ [f.data]) fu := by
  unfold Combin.emit
  simp only [h.notWaiting, Bool.false_eq_true, if_false]
  refine ⟨h.notWaiting, ?_, h.fuFrameData, h.firstPkt⟩
  simp only [List.map_append, h.out, List.map_cons, List.map_nil, Receiver.invokeRtpFrame]
  split <;> rfl

/-- A NAL unit in a packet of its own. -/
theorem single (h : Shows c out fu) {pkt : Packet} (hn : NalOk pkt.payload) :
    ∃ c', combinPacket c pkt = some (.ok c') ∧ Shows c' (out ++ [startCode ++ pkt.payload]) fu := by
  rcases hp : pkt.payload with _ | ⟨p0, _ | ⟨p1, rest⟩⟩
  · exact absurd hn.two (by simp [hp])
  · exact absurd hn.two (by simp [hp])
  have hf := hn.forbidden p0 (by simp [hp])
  have ht := (hn.type p0 (by simp [hp])).2
  refine ⟨_, ?_, (h.sawKey (nalHeaderSet p0).t).emit
    { frameAt pkt.ts.toNat with data := startCode ++ (p0 :: p1 :: rest) }⟩
  simp only [combinPacket, hp, hf, ht, ne_eq, not_true_eq_false, if_false, if_true]

end Shows

/-! ### Fragmented NAL units -/

theorem combinLoop_append {c c' : Combin} {xs ys : List Packet}
    (h : combinLoop c xs = some (.ok c')) : combinLoop c (xs ++ ys) = combinLoop c' ys := by
  induction xs generalizing c with
  | nil => cases h; rfl
  | cons x xs ih =>
    simp only [List.cons_append, combinLoop] at h ⊢
    split at h
    · cases h
    · cases h
    · exact ih h

/-- The packets turn what the receiver shows into something else. -/
def Recombines (pkts : List Packet) (out : List (List UInt8)) (fu : List UInt8)
    (out' : List (List UInt8)) (fu' : List UInt8) : Prop :=
  ∀ c, Shows c out fu → ∃ c', combinLoop c pkts = some (.ok c') ∧ Shows c' out' fu'

theorem Recombines.nil (out : List (List UInt8)) (fu : List UInt8) :
    Recombines [] out fu out fu := fun c h => ⟨c, rfl, h⟩

theorem Recombines.append {xs ys : List Packet} {o₁ o₂ o₃ : List (List UInt8)}
    {f₁ f₂ f₃ : List UInt8} (hx : Recombines xs o₁ f₁ o₂ f₂) (hy : Recombines ys o₂ f₂ o₃ f₃) :
    Recombines (xs ++ ys) o₁ f₁ o₃ f₃ := by
  intro c h
  obtain ⟨c₁, h₁, hs₁⟩ := hx c h
  obtain ⟨c₂, h₂, hs₂⟩ := hy c₁ hs₁
  exact ⟨c₂, by rw [combinLoop_append h₁, h₂], hs₂⟩

theorem Recombines.of_packet {pkt : Packet} {o o' : List (List UInt8)} {f f' : List UInt8}
    (h : ∀ c, Shows c o f → ∃ c', combinPacket c pkt = some (.ok c') ∧ Shows c' o' f') :
    Recombines [pkt] o f o' f' := by
  intro c hc
  obtain ⟨c', h1, h2⟩ := h c hc
  exact ⟨c', by simp [combinLoop, h1], h2⟩

variable {nal0 : UInt8} {out : List (List UInt8)} {fu : List UInt8}

/-- The first fragment starts the buffer anew. -/
theorem recombines_first (h0 : (nalHeaderSet nal0).f = 0) {pkt : Packet} {chunk : List UInt8}
    (hp : pkt.payload = nalHeaderGet ⟨(nalHeaderSet nal0).f, (nalHeaderSet nal0).nri, 28⟩ ::
      fuHeaderGet ⟨1, 0, 0, (nalHeaderSet nal0).t⟩ :: chunk) :
    Recombines [pkt] out fu out (startCode ++ nal0 :: chunk) := by
  refine .of_packet fun c h => ⟨{ c with
    firstPkt := some pkt
    fuFrameData := startCode ++ [nal0] ++ chunk }, ?_, h.notWaiting, h.out, by simp, by simp⟩
  have hget : nalHeaderGet ⟨0, (nalHeaderSet nal0).nri, (nalHeaderSet nal0).t⟩ = nal0 := by
    rw [← h0]; exact header_get_set nal0
  rw [combinPacket]
  simp only [hp, nalHeader_set_get, (fuHeader_set_get nal0).1]
  simp [h0, hget]

/-- A later fragment is appended to the buffer. -/
theorem recombines_next (h0 : (nalHeaderSet nal0).f = 0) (hfu : fu ≠ []) {pkt : Packet}
    {chunk : List UInt8} {hdr : UInt8} (hs : (fuHeaderSet hdr).s = 0)
    (hp : pkt.payload = nalHeaderGet ⟨(nalHeaderSet nal0).f, (nalHeaderSet nal0).nri, 28⟩ ::
      hdr :: chunk) :
    Recombines [pkt] out fu out (fu ++ chunk) := by
  refine .of_packet fun c h => ⟨{ c with fuFrameData := fu ++ chunk }, ?_, h.notWaiting, h.out, rfl,
    fun _ => h.firstPkt hfu⟩
  have hfirst := h.firstPkt hfu
  have hfud := h.fuFrameData
  rw [combinPacket]
  simp only [hp, nalHeader_set_get, hs]
  simp [h0, hfirst, hfud]

/-- The largest fragmented part that the 32-bit products of `send_nal` allow. -/
def maxFragmented : ℕ := 3579139 * 1200

theorem fragmentOffset_eq {index : ℕ} (h : index ≤ 3579139) :
    fragmentOffset index = index * 1200 := by
  simp only [fragmentOffset, maxRtpPayloadSize]; omega

private theorem maxRtpPayloadSize_eq : maxRtpPayloadSize = 1200 := rfl

/-- The fragments behind the first one. -/
theorem fuLoop_rest (h0 : (nalHeaderSet nal0).f = 0) {nalSize : ℕ} (hsize : nalSize ≤ maxFragmented)
    (islast : Bool) (fuel : ℕ) (s : Sender) (index : ℕ) (rest : List UInt8) (hi : 0 < index)
    (hi' : index ≤ 3579139) (hr : rest.length = nalSize - index * 1200) (hf : rest.length < fuel) :
    ∃ s' pkts, fuLoop (nalHeaderGet ⟨(nalHeaderSet nal0).f, (nalHeaderSet nal0).nri, 28⟩)
        (nalHeaderSet nal0).t nalSize islast fuel s index rest = some (s', pkts) ∧
      ∀ out fu, fu ≠ [] → Recombines pkts out fu out (fu ++ rest) := by
  have hmax := maxRtpPayloadSize_eq
  simp only [maxFragmented] at hsize
  induction fuel generalizing s index rest with
  | zero => omega
  | succ fuel ih =>
    by_cases hend : index * 1200 < nalSize
    · simp only [fuLoop]
      rw [fragmentOffset_eq hi', fragmentOffset_eq (show index + 1 ≤ 3579139 by omega), if_pos hend,
        show (index + 1) % 2 ^ 32 = index + 1 by omega, if_neg (show ¬ index = 0 by omega)]
      set len := if (index + 1) * 1200 < nalSize then maxRtpPayloadSize else nalSize - index * 1200
        with hlen
      have hle : len ≤ rest.length ∧ 0 < len ∧
          rest.length - len = nalSize - (index + 1) * 1200 := by
        rw [hlen]; split_ifs <;> omega
      rw [if_neg (by omega)]
      set final := decide ((index + 1) * 1200 ≥ nalSize)
      set hdr := fuHeaderGet (if final = true then (⟨0, 1, 0, (nalHeaderSet nal0).t⟩ : FuHeader)
        else ⟨0, 0, 0, (nalHeaderSet nal0).t⟩) with hhdr
      have hs : (fuHeaderSet hdr).s = 0 := by
        rw [hhdr]
        split
        · rw [(fuHeader_set_get nal0).2.1]
        · rw [(fuHeader_set_get nal0).2.2]
      set pkt := s.newPacket (islast && final) (_ :: hdr :: rest.take len)
      obtain ⟨s', pkts, hrec, hcomb⟩ := ih (s.sendPacket pkt) (index + 1)
        (rest.drop len) (by omega) (by omega) (by rw [List.length_drop]; omega)
        (by rw [List.length_drop]; omega)
      refine ⟨s', pkt :: pkts, by rw [hrec]; rfl, fun out fu hfu => ?_⟩
      have hhead : Recombines [pkt] out fu out (fu ++ rest.take len) :=
        recombines_next h0 hfu hs rfl
      have := hhead.append (hcomb out (fu ++ rest.take len) (by simp [hfu]))
      rwa [List.append_assoc, List.take_append_drop] at this
    · have hnil : rest = [] := List.eq_nil_of_length_eq_zero (by omega)
      rw [fuLoop, fragmentOffset_eq hi', if_neg hend]
      exact ⟨s, [], rfl, fun out fu _ => by rw [hnil, List.append_nil]; exact .nil _ _⟩

/-- All fragments of a NAL unit. -/
theorem fuLoop_all (h0 : (nalHeaderSet nal0).f = 0) (islast : Bool) (s : Sender)
    (rest : List UInt8) (hpos : 0 < rest.length) (hsize : rest.length ≤ maxFragmented) :
    ∃ s' pkts, fuLoop (nalHeaderGet ⟨(nalHeaderSet nal0).f, (nalHeaderSet nal0).nri, 28⟩)
        (nalHeaderSet nal0).t rest.length islast (rest.length + 1) s 0 rest = some (s', pkts) ∧
      ∀ out fu, Recombines pkts out fu out (startCode ++ nal0 :: rest) := by
  have hmax := maxRtpPayloadSize_eq
  simp only [fuLoop, if_true]
  rw [fragmentOffset_eq (Nat.zero_le _), fragmentOffset_eq (show 0 + 1 ≤ 3579139 by omega),
    if_pos (show 0 * 1200 < rest.length by omega), show (0 + 1) % 2 ^ 32 = 1 by omega]
  set len := if (0 + 1) * 1200 < rest.length then maxRtpPayloadSize else rest.length - 0 * 1200
    with hlen
  have hle : len ≤ rest.length ∧ 0 < len ∧ rest.length - len = rest.length - 1 * 1200 := by
    rw [hlen]; split_ifs <;> omega
  rw [if_neg (by omega)]
  set pkt := s.newPacket _ (_ :: _ :: rest.take len)
  obtain ⟨s', pkts, hrec, hcomb⟩ := fuLoop_rest h0 hsize islast rest.length
    (s.sendPacket pkt) 1 (rest.drop len) (by omega) (by omega)
    (by rw [List.length_drop]; omega) (by rw [List.length_drop]; omega)
  refine ⟨s', pkt :: pkts, by rw [hrec]; rfl, fun out fu => ?_⟩
  have hhead : Recombines [pkt] out fu out (startCode ++ nal0 :: rest.take len) :=
    recombines_first h0 rfl
  have := hhead.append (hcomb out _ (by simp))
  rwa [List.append_assoc, List.cons_append, List.cons_append, List.nil_append,
    List.take_append_drop] at this

/-- A NAL unit beyond the limit makes the loop read behind its end. -/
theorem fuLoop_none {fuInd t : UInt8} {nalSize : ℕ} (hsize : maxFragmented < nalSize)
    (h32 : nalSize < 2 ^ 32) (islast : Bool) {fuel : ℕ} {s : Sender} {index : ℕ}
    {rest : List UInt8} (hi : index ≤ 3579139) (hr : rest.length = nalSize - index * 1200)
    (hf : 3579139 - index < fuel) : fuLoop fuInd t nalSize islast fuel s index rest = none := by
  have hmax := maxRtpPayloadSize_eq
  simp only [maxFragmented] at hsize
  induction fuel generalizing s index rest with
  | zero => omega
  | succ fuel ih =>
    have hcur : index * 1200 < nalSize := lt_of_le_of_lt (Nat.mul_le_mul_right 1200 hi) hsize
    rcases Nat.lt_or_eq_of_le hi with hlt | hlast
    · have hnext : (index + 1) * 1200 < nalSize :=
        lt_of_le_of_lt (Nat.mul_le_mul_right 1200 hlt) hsize
      simp only [fuLoop]
      rw [fragmentOffset_eq hi, fragmentOffset_eq (show index + 1 ≤ 3579139 from hlt), if_pos hcur,
        if_pos hnext, if_neg (by omega), show (index + 1) % 2 ^ 32 = index + 1 by omega,
        ih hlt (by rw [List.length_drop]; omega) (by omega)]
      rfl
    · -- the product wraps
      have hwrap : fragmentOffset (index + 1) = 704 := by
        rw [hlast]; norm_num [fragmentOffset, maxRtpPayloadSize]
      have hsmall : 704 < nalSize := lt_trans (by norm_num) hsize
      simp only [fuLoop]
      rw [hwrap, fragmentOffset_eq hi, if_pos hcur, if_pos hsmall, if_pos]
      rw [hr, hlast]
      omega

/-! ### One NAL unit -/

/-- The largest NAL unit that `send_nal` gets through. -/
def Sendable (nal : List UInt8) : Prop := nal.length ≤ maxFragmented + 1

/-- The effect of one NAL unit on the data handed out and on the buffer. -/
def collect (q : List (List UInt8) × List UInt8) (nal : List UInt8) :
    List (List UInt8) × List UInt8 :=
  if nal.length ≤ maxRtpPayloadSize then (q.1 ++ [startCode ++ nal], q.2)
  else (q.1, startCode ++ nal)

theorem sendNal_eq_some {nal : List UInt8} (hn : NalOk nal) (hs : Sendable nal) (s : Sender)
    (duration : UInt32) (islast : Bool) :
    ∃ s' pkts, sendNal s duration nal islast = some (s', pkts) ∧
      ∀ out fu, Recombines pkts out fu (collect (out, fu) nal).1 (collect (out, fu) nal).2 := by
  unfold sendNal nalPackets
  by_cases hlen : nal.length ≤ maxRtpPayloadSize
  · rw [if_pos hlen]
    refine ⟨_, _, rfl, fun out fu => ?_⟩
    rw [collect, if_pos hlen]
    exact .of_packet fun c hc => hc.single (show NalOk (s.newPacket islast nal).payload from hn)
  · rw [if_neg hlen]
    rcases nal with _ | ⟨nal0, rest⟩
    · exact absurd hn.two (by simp)
    have h0 := hn.forbidden nal0 (by simp)
    simp only [Sendable, List.length_cons, maxRtpPayloadSize] at hs hlen
    obtain ⟨s', pkts, hsend, hrec⟩ := fuLoop_all h0 islast s rest (by omega) (by omega)
    refine ⟨_, pkts, by
      dsimp only; rw [List.length_cons, hsend]; rfl, fun out fu => ?_⟩
    rw [collect, if_neg (by simpa [maxRtpPayloadSize] using hlen)]
    exact hrec out fu

theorem sendNal_eq_none {nal : List UInt8} (hs : ¬ Sendable nal) (h32 : nal.length < 2 ^ 32)
    (s : Sender) (duration : UInt32) (islast : Bool) : sendNal s duration nal islast = none := by
  have hlong : ¬ nal.length ≤ maxRtpPayloadSize := fun hle =>
    hs (hle.trans (by norm_num [maxRtpPayloadSize, maxFragmented]))
  unfold sendNal nalPackets
  rw [if_neg hlong]
  rcases nal with _ | ⟨nal0, rest⟩
  · rfl
  simp only [Sendable, List.length_cons, not_le, Nat.add_lt_add_iff_right] at hs h32 ⊢
  have hfuel : 3579139 - 0 < rest.length + 1 :=
    lt_of_lt_of_le (lt_trans (by norm_num [maxFragmented]) hs) (Nat.le_succ _)
  rw [fuLoop_none hs (by omega) islast (Nat.zero_le _) (by simp) hfuel]
  rfl

/-! ### All NAL units -/

theorem sendNals_eq_some {nals : List (List UInt8)} (hn : ∀ nal ∈ nals, NalOk nal)
    (hs : ∀ nal ∈ nals, Sendable nal) (s : Sender) (duration : UInt32) :
    ∃ s' pkts, sendNals s duration nals = some (s', pkts) ∧
      ∀ out fu, Recombines pkts out fu (nals.foldl collect (out, fu)).1
        (nals.foldl collect (out, fu)).2 := by
  induction nals generalizing s with
  | nil => exact ⟨s, [], rfl, fun out fu => .nil _ _⟩
  | cons nal nals ih =>
    obtain ⟨s₁, xs, h₁, hx⟩ := sendNal_eq_some (hn nal (by simp)) (hs nal (by simp)) s duration
      nals.isEmpty
    obtain ⟨s₂, ys, h₂, hy⟩ := ih (fun m hm => hn m (by simp [hm]))
      (fun m hm => hs m (by simp [hm])) s₁
    refine ⟨s₂, xs ++ ys, by simp [sendNals, h₁, h₂], fun out fu => ?_⟩
    exact (hx out fu).append (hy _ _)

theorem sendNals_eq_none {nals : List (List UInt8)} (hn : ∀ nal ∈ nals, NalOk nal)
    (h32 : ∀ nal ∈ nals, nal.length < 2 ^ 32) (hs : ∃ nal ∈ nals, ¬ Sendable nal) (s : Sender)
    (duration : UInt32) : sendNals s duration nals = none := by
  induction nals generalizing s with
  | nil => simp at hs
  | cons nal nals ih =>
    by_cases h : Sendable nal
    · obtain ⟨s₁, xs, h₁, -⟩ := sendNal_eq_some (hn nal (by simp)) h s duration nals.isEmpty
      have hs' : ∃ m ∈ nals, ¬ Sendable m := by simpa [h] using hs
      have hrest := ih (fun m hm => hn m (by simp [hm])) (fun m hm => h32 m (by simp [hm])) hs' s₁
      simp [sendNals, h₁, hrest]
    · simp [sendNals, sendNal_eq_none h (h32 nal (by simp))]

/-- The NAL units that are handed out behind the loop over the packets. -/
def handedOut (q : List (List UInt8) × List UInt8) : List (List UInt8) :=
  q.1 ++ if q.2 = [] then [] else [q.2]

/-- `combin_frame` on packets whose effect is known. -/
theorem combinFrame_of_recombines {pkts : List Packet} {out : List (List UInt8)} {fu : List UInt8}
    {r : Receiver} (hr : r.waitingForKeyframe = false) (h : Recombines pkts [] [] out fu)
    (hfu : fu = [] ∨ 4 < fu.length) :
    ∃ r' frames, combinFrame r pkts = some (r', frames) ∧
      frames.map Frame.data = handedOut (out, fu) := by
  obtain ⟨c, hc, hs⟩ := h { receiver := r } ⟨hr, rfl, rfl, by simp⟩
  rw [combinFrame, hc]
  rcases eq_or_ne fu [] with rfl | hne
  · exact ⟨c.receiver, c.out, by simp [combinFu, hs.fuFrameData], by simp [handedOut, hs.out]⟩
  · have h4 : 4 < fu.length := hfu.resolve_left hne
    obtain ⟨pkt, hpkt⟩ := Option.ne_none_iff_exists'.mp (hs.firstPkt hne)
    have hget : c.fuFrameData[4]? = some fu[4] := by
      rw [hs.fuFrameData, List.getElem?_eq_getElem h4]
    have hkey := hs.sawKey (nalHeaderSet fu[4]).t
    have hemit := hkey.emit { frameAt pkt.ts.toNat with
      data := (c.sawKey (nalHeaderSet fu[4]).t).fuFrameData }
    have hfin : combinFu c = some ((c.sawKey (nalHeaderSet fu[4]).t).emit
        { frameAt pkt.ts.toNat with data := (c.sawKey (nalHeaderSet fu[4]).t).fuFrameData }).1 := by
      rw [combinFu, if_neg (by rw [hs.fuFrameData]; exact hne), hpkt, hget]
    refine ⟨_, _, by dsimp only; rw [hfin]; rfl, ?_⟩
    rw [hemit.out, hkey.fuFrameData, handedOut, if_neg hne]

/-! ### The aggregation packet -/

theorem hton16_value {n : ℕ} (h : n < 65536) :
    (UInt8.ofNat (n / 256)).toNat * 256 + (UInt8.ofNat n).toNat = n := by
  simp only [UInt8.toNat_ofNat']
  omega

theorem aggregateLoop_stap (t : UInt8) (ts : List UInt8 → ℤ) {nals : List (List UInt8)}
    (hn : ∀ nal ∈ nals, NalOk nal) (hs : ∀ nal ∈ nals, nal.length ≤ maxRtpPayloadSize) (fuel : ℕ)
    (hf : (nals.flatMap fun nal => hton16 nal.length ++ nal).length ≤ fuel) (frame : Frame)
    {c : Combin} {out : List (List UInt8)} {fu : List UInt8} (hc : Shows c out fu) :
    ∃ c', aggregateLoop t 2 ts fuel (nals.flatMap fun nal => hton16 nal.length ++ nal) frame c =
        some c' ∧ Shows c' (out ++ nals.map (startCode ++ ·)) fu := by
  induction nals generalizing fuel frame c out with
  | nil => exact ⟨c, by cases fuel <;> rfl, by simpa using hc⟩
  | cons nal nals ih =>
    have hlen := hs nal (by simp)
    simp only [maxRtpPayloadSize] at hlen
    obtain ⟨b, rest, hnal⟩ : ∃ b rest, nal = b :: rest := by
      rcases nal with _ | ⟨b, rest⟩
      · exact absurd (hn [] (by simp)).two (by simp)
      · exact ⟨b, rest, rfl⟩
    rw [List.flatMap_cons] at hf ⊢
    set tail := nals.flatMap fun nal => hton16 nal.length ++ nal
    have hlen2 : (hton16 nal.length).length = 2 := rfl
    rw [List.length_append, List.length_append, hlen2] at hf
    obtain ⟨fuel, rfl⟩ : ∃ k, fuel = k + 1 := ⟨fuel - 1, by omega⟩
    have hstep := (hc.sawKey t).emit { frame with
      pts := ts (hton16 nal.length ++ nal ++ tail)
      dts := ts (hton16 nal.length ++ nal ++ tail)
      data := startCode ++ nal }
    obtain ⟨c', hloop, hshow⟩ := ih (fun m hm => hn m (by simp [hm]))
      (fun m hm => hs m (by simp [hm])) fuel (by omega) ((c.sawKey t).emit { frame with
        pts := ts (hton16 nal.length ++ nal ++ tail)
        dts := ts (hton16 nal.length ++ nal ++ tail)
        data := startCode ++ nal }).2 hstep
    refine ⟨c', ?_, by simpa using hshow⟩
    simp only [aggregateLoop, hton16, List.cons_append, List.nil_append, List.length_cons,
      hton16_value (show nal.length < 65536 by omega)] at hloop ⊢
    rw [if_neg (by omega)]
    simp only [List.drop_succ_cons, List.drop_zero, List.length_append]
    rw [if_neg (by omega), List.take_left, List.drop_left]
    simp only [hnal, List.cons_append] at hloop ⊢
    exact hloop

theorem recombines_stap {nals : List (List UInt8)} (hne : nals ≠ [])
    (hn : ∀ nal ∈ nals, NalOk nal) (hs : ∀ nal ∈ nals, nal.length ≤ maxRtpPayloadSize)
    {pkt : Packet} (hp : pkt.payload = stapPayload nals) (out : List (List UInt8))
    (fu : List UInt8) : Recombines [pkt] out fu (out ++ nals.map (startCode ++ ·)) fu := by
  refine .of_packet fun c hc => ?_
  obtain ⟨nal, nals', rfl⟩ := List.exists_cons_of_ne_nil hne
  obtain ⟨b, rest, hnal⟩ : ∃ b rest, nal = b :: rest := by
    rcases nal with _ | ⟨b, rest⟩
    · exact absurd (hn [] (by simp)).two (by simp)
    · exact ⟨b, rest, rfl⟩
  have h0 := (hn nal (by simp)).forbidden b (by simp [hnal])
  obtain ⟨c', hloop, hshow⟩ := aggregateLoop_stap 24 (fun _ => pkt.ts.toNat) hn hs
    _ le_rfl (frameAt pkt.ts.toNat) hc
  refine ⟨c', ?_, hshow⟩
  rw [List.flatMap_cons] at hloop
  rw [combinPacket, hp, stapPayload, List.flatMap_cons]
  simp only [hton16, List.cons_append, List.nil_append, List.headD_cons] at hloop ⊢
  simp only [hnal, List.headD_cons, header_set_get_24] at hloop ⊢
  rw [if_neg (by simp [h0]), if_neg (by decide), if_pos trivial, hloop]
  rfl

/-! ### Access units -/

/-- Units of the length limit are appended in order. -/
theorem foldl_collect_small {nals : List (List UInt8)}
    (h : ∀ nal ∈ nals, nal.length ≤ maxRtpPayloadSize) (out : List (List UInt8))
    (fu : List UInt8) : nals.foldl collect (out, fu) = (out ++ nals.map (startCode ++ ·), fu) := by
  induction nals generalizing out with
  | nil => simp
  | cons nal nals ih =>
    rw [List.foldl_cons, collect, if_pos (h nal (by simp)), ih fun m hm => h m (by simp [hm])]
    simp

/-- The buffer is that of a long unit, and only short units are appended. -/
theorem foldl_collect (nals : List (List UInt8)) :
    ((nals.foldl collect ([], [])).1 =
        (nals.filter (·.length ≤ maxRtpPayloadSize)).map (startCode ++ ·)) ∧
      ((nals.foldl collect ([], [])).2 = [] ∨
        ∃ nal ∈ nals, maxRtpPayloadSize < nal.length ∧
          (nals.foldl collect ([], [])).2 = startCode ++ nal) ∧
      ((nals.foldl collect ([], [])).2 = [] → ∀ nal ∈ nals, nal.length ≤ maxRtpPayloadSize) := by
  induction nals using List.reverseRecOn with
  | nil => simp
  | append_singleton nals nal ih =>
    obtain ⟨h1, h2, h3⟩ := ih
    rw [List.foldl_append, List.foldl_cons, List.foldl_nil, collect]
    by_cases hlen : nal.length ≤ maxRtpPayloadSize
    · rw [if_pos hlen]
      refine ⟨by simp [h1, hlen], ?_, fun h m hm => ?_⟩
      · rcases h2 with h2 | ⟨m, hm, h2⟩
        · exact .inl h2
        · exact .inr ⟨m, by simp [hm], h2⟩
      · rcases List.mem_append.mp hm with hm | hm
        · exact h3 h m hm
        · rw [List.mem_singleton.mp hm]; exact hlen
    · rw [if_neg hlen]
      exact ⟨by simp [h1, hlen], .inr ⟨nal, by simp, by omega, rfl⟩,
        fun h => by simp [startCode] at h⟩

/-- The units come back as they were sent exactly when none but the last is
fragmented. -/
theorem handedOut_eq_iff (nals : List (List UInt8)) :
    handedOut (nals.foldl collect ([], [])) = nals.map (startCode ++ ·) ↔
      ∀ nal ∈ nals.dropLast, nal.length ≤ maxRtpPayloadSize := by
  rcases List.eq_nil_or_concat nals with rfl | ⟨init, last, rfl⟩
  · simp [handedOut]
  rw [List.concat_eq_append, List.dropLast_concat]
  constructor
  · obtain ⟨h1, h2, h3⟩ := foldl_collect init
    rw [List.foldl_append, List.foldl_cons, List.foldl_nil, collect, List.map_append, List.map_cons,
      List.map_nil]
    intro h
    by_cases hlen : last.length ≤ maxRtpPayloadSize
    · rw [if_pos hlen, handedOut] at h
      rcases h2 with h2 | ⟨nal, -, hlong, h2⟩
      · exact h3 h2
      · -- the long unit would be handed out in the place of the last one
        rw [if_neg (by simp [h2, startCode])] at h
        have := List.append_inj_right' h rfl
        simp only [h2, List.cons.injEq, List.append_cancel_left_eq, and_true] at this
        rw [this] at hlong
        omega
    · rw [if_neg hlen, handedOut, if_neg (by simp [startCode])] at h
      have hinit := List.append_inj_left' h rfl
      rw [h1] at hinit
      have hcount := congrArg List.length hinit
      rw [List.length_map, List.length_map] at hcount
      intro nal hnal
      have hall := List.length_filter_eq_length_iff.mp hcount nal hnal
      simpa using hall
  · intro h
    rw [List.foldl_append, foldl_collect_small h, List.foldl_cons, List.foldl_nil, collect]
    by_cases hlen : last.length ≤ maxRtpPayloadSize
    · simp [handedOut, hlen]
    · simp [handedOut, hlen, startCode]

/-- The condition on an access unit: none but the last NAL unit is fragmented,
and the last one is not too long for 32-bit offsets. -/
def RoundTripOk (nals : List (List UInt8)) : Prop :=
  (∀ nal ∈ nals.dropLast, nal.length ≤ maxRtpPayloadSize) ∧ ∀ nal ∈ nals.getLast?, Sendable nal

theorem RoundTripOk.sendable {nals : List (List UInt8)} (h : RoundTripOk nals) :
    ∀ nal ∈ nals, Sendable nal := by
  rcases List.eq_nil_or_concat nals with rfl | ⟨init, last, rfl⟩
  · simp
  obtain ⟨h1, h2⟩ := h
  rw [List.concat_eq_append, List.dropLast_concat] at h1
  intro nal hnal
  rw [List.concat_eq_append, List.mem_append, List.mem_singleton] at hnal
  rcases hnal with hnal | rfl
  · exact (h1 nal hnal).trans (by norm_num [maxRtpPayloadSize, maxFragmented])
  · exact h2 nal (by simp)

theorem length_le_annexB_of_mem {nals : List (Bool × List UInt8)} {n : Bool × List UInt8}
    (h : n ∈ nals) : n.2.length ≤ (annexB nals).length := by
  induction nals with
  | nil => cases h
  | cons m nals ih =>
    rw [annexB_cons, List.length_append, List.length_append]
    rcases List.mem_cons.mp h with rfl | h
    · omega
    · have := ih h; omega

/-- The data handed out for the packets of an access unit. -/
def roundTrip (s : Sender) (r : Receiver) (frame : List UInt8) (duration : UInt32) :
    Option (List (List UInt8)) := do
  let (_, pkts) ← sendFrame s frame duration
  let (_, frames) ← combinFrame r pkts
  return frames.map Frame.data

/-- For every access unit that fits the 32-bit size of `send_frame`, the packets
are sent and give back the NAL units in order, each behind a start code of four
bytes, if and only if the condition holds. -/
theorem round_trip_iff (s : Sender) (r : Receiver) (hr : r.waitingForKeyframe = false)
    (nals : List (Bool × List UInt8)) (hn : ∀ n ∈ nals, NalOk n.2)
    (h32 : (annexB nals).length < 2 ^ 32) (duration : UInt32) :
    roundTrip s r (annexB nals) duration = some ((nals.map Prod.snd).map (startCode ++ ·)) ↔
      RoundTripOk (nals.map Prod.snd) := by
  have hok : ∀ nal ∈ nals.map Prod.snd, NalOk nal := List.forall_mem_map.mpr hn
  have hlen : ∀ nal ∈ nals.map Prod.snd, nal.length < 2 ^ 32 := by
    intro nal hnal
    obtain ⟨n, hmem, rfl⟩ := List.mem_map.mp hnal
    exact lt_of_le_of_lt (length_le_annexB_of_mem hmem) h32
  rw [roundTrip, sendFrame, findNals_annexB fun n hm => (hn n hm).delimited]
  generalize nals.map Prod.snd = units at hok hlen ⊢
  dsimp only
  by_cases hstap : (units.map List.length).sum ≤ maxRtpPayloadSize ∧ units.length > 1
  · -- one aggregation packet
    have hsmall : ∀ nal ∈ units, nal.length ≤ maxRtpPayloadSize := fun nal hnal =>
      (List.le_sum_of_mem (List.mem_map_of_mem hnal)).trans hstap.1
    rw [if_pos hstap]
    set pkt := s.newPacket _ (stapPayload units)
    have hne : units ≠ [] := by rintro rfl; simp at hstap
    obtain ⟨r', frames, hc, hdata⟩ := combinFrame_of_recombines hr
      (recombines_stap hne hok hsmall (show pkt.payload = stapPayload units from rfl) [] [])
      (.inl rfl)
    have hout : frames.map Frame.data = units.map (startCode ++ ·) := by
      simpa [handedOut] using hdata
    have hcond : RoundTripOk units := ⟨fun nal hnal => hsmall nal (List.mem_of_mem_dropLast hnal),
      fun nal hnal => (hsmall nal (List.mem_of_getLast? hnal)).trans
        (by norm_num [maxRtpPayloadSize, maxFragmented])⟩
    simp [hc, hout, hcond]
  · rw [if_neg hstap]
    by_cases hall : ∀ nal ∈ units, Sendable nal
    · obtain ⟨s', pkts, hsend, hrec⟩ := sendNals_eq_some hok hall s duration
      have hfu : (units.foldl collect ([], [])).2 = [] ∨
          4 < (units.foldl collect ([], [])).2.length := by
        rcases (foldl_collect units).2.1 with h | ⟨nal, -, hlong, h⟩
        · exact .inl h
        · rw [h]; right; simp only [startCode, List.length_append, List.length_cons]; omega
      obtain ⟨r', frames, hc, hdata⟩ := combinFrame_of_recombines hr (hrec [] []) hfu
      simp only [hsend, hc, Option.bind_eq_bind, Option.bind_some, Option.pure_def,
        Option.some.injEq, hdata]
      rw [handedOut_eq_iff]
      exact ⟨fun h => ⟨h, fun nal hnal => hall nal (List.mem_of_getLast? hnal)⟩, fun h => h.1⟩
    · have hnone := sendNals_eq_none hok hlen (by simpa using hall) s duration
      have hcond : ¬ RoundTripOk units := fun h => hall h.sendable
      simp [hnone, hcond]

/-- An access unit of three short NAL units. -/
theorem round_trip_short :
    roundTrip { pt := 96, ssrc := 1, seq := 5 } { ssrc := 1 }
      (annexB [(true, [0x67, 0x42]), (true, [0x68, 0xce]), (false, [0x65, 0x88, 0x80])]) 3000 =
        some [[0, 0, 0, 1, 0x67, 0x42], [0, 0, 0, 1, 0x68, 0xce],
          [0, 0, 0, 1, 0x65, 0x88, 0x80]] := by
  have hn : ∀ n ∈ [(true, [0x67, 0x42]), (true, [0x68, 0xce]), (false, [0x65, 0x88, 0x80])],
      NalOk n.2 := by
    simp only [List.forall_mem_cons, List.not_mem_nil, false_implies, implies_true, and_true]
    exact ⟨nalOk_cons ⟨by decide, ⟨_, rfl, by decide⟩⟩ (by decide) (by decide) (by decide),
      nalOk_cons ⟨by decide, ⟨_, rfl, by decide⟩⟩ (by decide) (by decide) (by decide),
      nalOk_cons ⟨by decide, ⟨_, rfl, by decide⟩⟩ (by decide) (by decide) (by decide)⟩
  refine (round_trip_iff _ _ rfl _ hn (by decide) 3000).mpr ⟨by decide, ?_⟩
  norm_num [Sendable, maxFragmented]

private def longNal : List UInt8 := 0x65 :: List.replicate 1200 0xff

/-- A fragmented NAL unit in front of a short one is handed out behind it. -/
theorem fragmented_nal_out_of_order :
    ¬ ∀ (s : Sender) (r : Receiver), r.waitingForKeyframe = false →
      ∀ nals : List (Bool × List UInt8), (∀ n ∈ nals, NalOk n.2) → (annexB nals).length < 2 ^ 32 →
        ∀ duration : UInt32, roundTrip s r (annexB nals) duration =
          some ((nals.map Prod.snd).map (startCode ++ ·)) := by
  intro h
  have hn : ∀ n ∈ [(true, longNal), (true, [0x41, 0x9a])], NalOk n.2 := by
    simp only [List.forall_mem_cons, List.not_mem_nil, false_implies, implies_true, and_true]
    exact ⟨nalOk_cons ⟨by decide +kernel, ⟨0xff, by decide +kernel, by decide⟩⟩ (by decide +kernel)
        (by decide) (by decide),
      nalOk_cons ⟨by decide, ⟨_, rfl, by decide⟩⟩ (by decide) (by decide) (by decide)⟩
  have := h { pt := 96, ssrc := 1, seq := 5 } { ssrc := 1 } rfl _ hn (by decide +kernel) 3000
  exact absurd this (by decide +kernel)

end CxxDeps.H264
