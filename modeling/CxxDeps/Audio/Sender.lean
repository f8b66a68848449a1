import Mathlib.Data.Nat.ModEq
import CxxDeps.H264.RoundTrip
import CxxDeps.Library.Run

/-! `sender_audio`: a frame is cut into packets, and each packet moves the clock by its share
of the duration, which is truncated. What the truncation takes away is never given back. -/

namespace CxxDeps.Audio

open Rtp Library
open H264 (fragmentOffset fragmentOffset_eq maxFragmented)

/-- `(uint32_t)((payload_length*1.0 / size) * duration)`, of exact numbers. -/
def payloadDuration (payloadLength size : ℕ) (duration : UInt32) : UInt32 :=
  UInt32.ofNat (payloadLength * duration.toNat / size)

/-- The body of the loop of `send_frame`, for a packet within the frame. -/
def sendPayload (s : Sender) (payload : List UInt8) (size : ℕ) (duration : UInt32) :
    Sender × Packet :=
  let pkt := s.newPacket false payload
  let s := s.sendPacket pkt
  ({ s with timestamp := s.timestamp + payloadDuration payload.length size duration }, pkt)

/-- The loop of `send_frame`; `none` stands for a read behind the end of the frame. -/
def sendLoop (frame : List UInt8) (duration : UInt32) :
    ℕ → Sender → (index : ℕ) → Option (Sender × List Packet)
  | 0, s, _ => some (s, [])
  | n + 1, s, index =>
    if fragmentOffset index < frame.length then
      let offset := fragmentOffset index
      let payloadLength :=
        if (offset + maxRtpPayloadSize) % 2 ^ 32 < frame.length then maxRtpPayloadSize
        else frame.length - offset
      if frame.length < offset + payloadLength then none
      else
        let (s, pkt) :=
          sendPayload s ((frame.drop offset).take payloadLength) frame.length duration
        (sendLoop frame duration n s ((index + 1) % 2 ^ 32)).map fun q => (q.1, pkt :: q.2)
    else some (s, [])

/-- `sender_audio::send_frame`. -/
def sendFrame (s : Sender) (frame : List UInt8) (duration : UInt32) :
    Option (Sender × List Packet) :=
  sendLoop frame duration (frame.length + 1) s 0

/-- The arguments of a call of `send_frame`. -/
structure Call where
  frame : List UInt8
  duration : UInt32

/-- One call, with its packets. -/
def sendStep (s : Sender) (c : Call) : Option (Sender × List (List Packet)) :=
  (sendFrame s c.frame c.duration).map fun q => (q.1, [q.2])

/-! ### What the truncation takes away -/

/-- The remainders of the shares of the last `rest` bytes. -/
def remainders (size : ℕ) (duration : UInt32) (rest : ℕ) : ℕ :=
  (rest - 1) / 1200 * (1200 * duration.toNat % size) +
    (rest - (rest - 1) / 1200 * 1200) * duration.toNat % size

/-- The part of the duration by which the clock falls behind. -/
def Call.lag (c : Call) : ℕ :=
  if c.frame = [] then c.duration.toNat
  else remainders c.frame.length c.duration c.frame.length / c.frame.length

theorem remainders_of_le {size : ℕ} {duration : UInt32} {rest : ℕ} (h : rest ≤ 1200) :
    remainders size duration rest = rest * duration.toNat % size := by
  rw [remainders, Nat.div_eq_of_lt (by omega), Nat.zero_mul, Nat.zero_mul, Nat.zero_add,
    Nat.sub_zero]

theorem remainders_of_lt {size : ℕ} {duration : UInt32} {rest : ℕ} (h : 1200 < rest) :
    remainders size duration rest =
      1200 * duration.toNat % size + remainders size duration (rest - 1200) := by
  obtain ⟨q, hq⟩ : ∃ q, q = (rest - 1200 - 1) / 1200 := ⟨_, rfl⟩
  have hlast : rest - (q + 1) * 1200 = rest - 1200 - q * 1200 := by omega
  rw [remainders, remainders, show (rest - 1) / 1200 = q + 1 by omega, ← hq, hlast,
    Nat.add_one_mul, Nat.add_comm (q * _), Nat.add_assoc]

/-- The packets of the last `rest` bytes of a frame. -/
structure Sent (frame : List UInt8) (duration : UInt32) (s s' : Sender) (rest : List UInt8)
    (pkts : List Packet) : Prop where
  payloads : pkts.flatMap Packet.payload = rest
  size : ∀ p ∈ pkts, p.payload.length ≤ maxRtpPayloadSize
  nonempty : ∀ p ∈ pkts, p.payload ≠ []
  first : ∀ p ∈ pkts.head?, p.ts = s.timestamp
  clock : ∃ advance, s'.timestamp = s.timestamp + UInt32.ofNat advance ∧
    frame.length * advance + remainders frame.length duration rest.length =
      rest.length * duration.toNat

theorem Sent.nil (frame : List UInt8) (duration : UInt32) (s : Sender) :
    Sent frame duration s s [] [] where
  payloads := rfl
  size := List.forall_mem_nil _
  nonempty := List.forall_mem_nil _
  first := by rintro p ⟨⟩
  clock := ⟨0, (UInt32.add_zero _).symm, by
    rw [List.length_nil, remainders_of_le (Nat.zero_le _), Nat.zero_mul, Nat.zero_mod,
      Nat.mul_zero]⟩

/-- One packet, and the others. -/
theorem Sent.cons {frame payload rest : List UInt8} {duration : UInt32} {s s' : Sender}
    {pkts : List Packet} (hlen : payload.length ≤ maxRtpPayloadSize)
    (hne : payload ≠ [])
    (hrem : remainders frame.length duration (payload ++ rest).length =
      payload.length * duration.toNat % frame.length +
        remainders frame.length duration rest.length)
    (h : Sent frame duration (sendPayload s payload frame.length duration).1 s' rest pkts) :
    Sent frame duration s s' (payload ++ rest)
      ((sendPayload s payload frame.length duration).2 :: pkts) where
  payloads := by rw [List.flatMap_cons, h.payloads]; rfl
  size := List.forall_mem_cons.mpr ⟨hlen, h.size⟩
  nonempty := List.forall_mem_cons.mpr ⟨hne, h.nonempty⟩
  first := by rintro p ⟨⟩; rfl
  clock := by
    obtain ⟨advance, hclock, hsum⟩ := h.clock
    refine ⟨payload.length * duration.toNat / frame.length + advance, ?_, ?_⟩
    · rw [hclock, UInt32.ofNat_add, ← UInt32.add_assoc]
      rfl
    · have hshare := Nat.div_add_mod (payload.length * duration.toNat) frame.length
      rw [hrem, List.length_append, Nat.add_mul, Nat.mul_add]
      omega

theorem sendLoop_sent {frame : List UInt8} (hlen : frame.length ≤ maxFragmented)
    (duration : UInt32) {fuel : ℕ} (s : Sender) {index : ℕ} (hi : index * 1200 < frame.length)
    (hf : frame.length - index * 1200 < fuel) :
    ∃ s' pkts, sendLoop frame duration fuel s index = some (s', pkts) ∧
      Sent frame duration s s' (frame.drop (index * 1200)) pkts := by
  induction fuel generalizing s index with
  | zero => omega
  | succ fuel ih =>
    simp only [maxFragmented] at hlen
    have hmax : maxRtpPayloadSize = 1200 := rfl
    have hoff := fragmentOffset_eq (show index ≤ 3579139 by omega)
    have hsum : (index * 1200 + 1200) % 2 ^ 32 = index * 1200 + 1200 := by omega
    have hdrop : (frame.drop (index * 1200)).length = frame.length - index * 1200 :=
      List.length_drop
    obtain ⟨rest, hrest⟩ : ∃ rest, rest = frame.drop (index * 1200) := ⟨_, rfl⟩
    unfold sendLoop
    dsimp only
    rw [hoff, if_pos hi, hmax, hsum, Nat.mod_eq_of_lt (by omega)]
    rw [← hrest] at hdrop ⊢
    by_cases hnext : index * 1200 + 1200 < frame.length
    · rw [if_pos hnext, if_neg (by omega)]
      have hfuel : ∀ o, frame.length - o < fuel + 1 → o < frame.length →
          frame.length - (o + 1200) < fuel := fun o _ _ => by omega
      have hi' : (index + 1) * 1200 < frame.length := by rw [Nat.add_one_mul]; exact hnext
      obtain ⟨s', pkts, hloop, hsent⟩ := ih
        (sendPayload s (rest.take 1200) frame.length duration).1 hi' (by
          rw [Nat.add_one_mul]; exact hfuel _ hf hi)
      rw [hloop]
      have hdrops : frame.drop ((index + 1) * 1200) = rest.drop 1200 := by
        rw [hrest, List.drop_drop]
        exact congrArg (frame.drop ·) (by omega)
      rw [hdrops] at hsent
      have htake : (rest.take 1200).length = 1200 := by rw [List.length_take]; omega
      refine ⟨s', _, rfl, ?_⟩
      have hcons := hsent.cons htake.le (List.ne_nil_of_length_pos (by omega)) (by
        rw [List.take_append_drop, htake, remainders_of_lt (by omega), List.length_drop])
      rwa [List.take_append_drop] at hcons
    · rw [if_neg hnext, if_neg (by omega)]
      -- the last packet
      have hall : rest.take (frame.length - index * 1200) = rest :=
        List.take_of_length_le (by omega)
      have hend : sendLoop frame duration fuel
          (sendPayload s rest frame.length duration).1 (index + 1) =
            some ((sendPayload s rest frame.length duration).1, []) := by
        rcases fuel with _ | fuel
        · rfl
        · unfold sendLoop
          rw [fragmentOffset_eq (show index + 1 ≤ 3579139 by omega), if_neg (by omega)]
      rw [hall, hend]
      refine ⟨_, _, rfl, ?_⟩
      have hcons := (Sent.nil frame duration
        (sendPayload s rest frame.length duration).1).cons (s := s)
        (show rest.length ≤ maxRtpPayloadSize by rw [hmax]; omega)
        (List.ne_nil_of_length_pos (by omega)) (by
          rw [List.append_nil, List.length_nil, remainders_of_le (by omega),
            remainders_of_le (Nat.zero_le _), Nat.zero_mul, Nat.zero_mod, Nat.add_zero])
      rwa [List.append_nil] at hcons

/-- A frame beyond the 32-bit products of the loop makes it read behind its end. -/
theorem sendLoop_none {frame : List UInt8} (hsize : maxFragmented < frame.length)
    (h32 : frame.length < 2 ^ 32) (duration : UInt32) {fuel : ℕ} {s : Sender} {index : ℕ}
    (hi : index ≤ 3579139) (hf : 3579139 - index < fuel) :
    sendLoop frame duration fuel s index = none := by
  have hmax : maxRtpPayloadSize = 1200 := rfl
  simp only [maxFragmented] at hsize
  induction fuel generalizing s index with
  | zero => omega
  | succ fuel ih =>
    have hcur : index * 1200 < frame.length := lt_of_le_of_lt (Nat.mul_le_mul_right 1200 hi) hsize
    unfold sendLoop
    dsimp only
    rw [fragmentOffset_eq hi, if_pos hcur, hmax]
    rcases Nat.lt_or_eq_of_le hi with hlt | hlast
    · have hnext : (index + 1) * 1200 < frame.length :=
        lt_of_le_of_lt (Nat.mul_le_mul_right 1200 hlt) hsize
      rw [Nat.add_one_mul] at hnext
      rw [Nat.mod_eq_of_lt (hnext.trans h32), if_pos hnext, if_neg (Nat.not_lt.mpr hnext.le),
        show (index + 1) % 2 ^ 32 = index + 1 by omega, ih hlt (by omega)]
      rfl
    · -- the sum wraps
      have hwrap : (index * 1200 + 1200) % 2 ^ 32 = 704 := by rw [hlast]; rfl
      rw [hwrap, if_pos (lt_trans (by norm_num) hsize), if_pos]
      rw [hlast]
      omega

/-- What a call of `send_frame` sends, and by how much its clock falls behind. -/
theorem sendFrame_sent {c : Call} (hlen : c.frame.length ≤ maxFragmented) (s : Sender) :
    ∃ s' pkts, sendFrame s c.frame c.duration = some (s', pkts) ∧
      Sent c.frame c.duration s s' c.frame pkts ∧
      s'.timestamp + UInt32.ofNat c.lag = s.timestamp + c.duration := by
  by_cases hempty : c.frame = []
  · refine ⟨s, [], by rw [hempty]; rfl, by rw [hempty]; exact Sent.nil _ _ s, ?_⟩
    rw [Call.lag, if_pos hempty, UInt32.ofNat_toNat]
  · have hpos : 0 < c.frame.length := List.length_pos_iff.mpr hempty
    obtain ⟨s', pkts, hsend, hsent⟩ := sendLoop_sent hlen c.duration s
      (show 0 * 1200 < c.frame.length by rw [Nat.zero_mul]; exact hpos)
      (show c.frame.length - 0 * 1200 < c.frame.length + 1 by omega)
    rw [Nat.zero_mul, List.drop_zero] at hsent
    refine ⟨s', pkts, hsend, hsent, ?_⟩
    obtain ⟨advance, hclock, hsum⟩ := hsent.clock
    have hle : advance ≤ c.duration.toNat :=
      Nat.le_of_mul_le_mul_left (Nat.le.intro hsum) hpos
    have hlag : c.lag = c.duration.toNat - advance := by
      rw [Call.lag, if_neg hempty, Nat.div_eq_of_eq_mul_right hpos]
      rw [Nat.mul_sub]
      omega
    rw [hclock, UInt32.add_assoc, ← UInt32.ofNat_add, hlag, Nat.add_sub_cancel' hle,
      UInt32.ofNat_toNat]

theorem size_dvd_remainders (size : ℕ) (duration : UInt32) :
    size ∣ remainders size duration size := by
  have hsplit : (size - 1) / 1200 * (1200 * duration.toNat) +
      (size - (size - 1) / 1200 * 1200) * duration.toNat = size * duration.toNat := by
    rw [← Nat.mul_assoc, ← Nat.add_mul]
    exact congrArg (· * duration.toNat) (by omega)
  refine Nat.modEq_zero_iff_dvd.mp ?_
  calc remainders size duration size
      ≡ (size - 1) / 1200 * (1200 * duration.toNat) +
          (size - (size - 1) / 1200 * 1200) * duration.toNat [MOD size] :=
        ((Nat.mod_modEq _ _).mul_left _).add (Nat.mod_modEq _ _)
    _ = size * duration.toNat := hsplit
    _ ≡ 0 [MOD size] := Nat.modEq_zero_iff_dvd.mpr (Nat.dvd_mul_right _ _)

/-- A frame of one packet keeps the clock, and a longer one does if its shares are whole. -/
theorem Call.lag_eq_zero_iff {c : Call} (h : c.frame ≠ []) :
    c.lag = 0 ↔ c.frame.length ≤ 1200 ∨ c.frame.length ∣ 1200 * c.duration.toNat := by
  have hpos : 0 < c.frame.length := List.length_pos_iff.mpr h
  have hdvd := size_dvd_remainders c.frame.length c.duration
  rw [Call.lag, if_neg h, Nat.div_eq_zero_iff_lt hpos]
  have hzero : remainders c.frame.length c.duration c.frame.length < c.frame.length ↔
      remainders c.frame.length c.duration c.frame.length = 0 :=
    ⟨fun hlt => Nat.eq_zero_of_dvd_of_lt hdvd hlt, fun h0 => h0 ▸ hpos⟩
  rw [hzero]
  by_cases hle : c.frame.length ≤ 1200
  · exact iff_of_true (by rw [remainders_of_le hle, Nat.mul_mod_right]) (.inl hle)
  · rw [or_iff_right hle, Nat.dvd_iff_mod_eq_zero]
    constructor
    · intro h0
      have hq : (c.frame.length - 1) / 1200 ≠ 0 := by omega
      rw [remainders, Nat.add_eq_zero_iff] at h0
      exact (Nat.mul_eq_zero.mp h0.1).resolve_left hq
    · intro hwhole
      rw [remainders, hwhole, Nat.mul_zero, Nat.zero_add] at hdvd ⊢
      exact Nat.eq_zero_of_dvd_of_lt hdvd (Nat.mod_lt _ hpos)

/-! ### Runs -/

/-- Each call sends its frame in packets of at most 1200 bytes, the first one at the time `t`
plus the durations of the calls before. -/
inductive OnClock : UInt32 → List Call → List (List Packet) → Prop
  | nil (t : UInt32) : OnClock t [] []
  | cons {t : UInt32} {c : Call} {cs : List Call} {pkts : List Packet} {out : List (List Packet)}
      (payloads : pkts.flatMap Packet.payload = c.frame)
      (size : ∀ p ∈ pkts, p.payload.length ≤ maxRtpPayloadSize)
      (first : ∀ p ∈ pkts.head?, p.ts = t) (rest : OnClock (t + c.duration) cs out) :
      OnClock t (c :: cs) (pkts :: out)

/-- Whenever a call sends a packet, what the clock has fallen behind is a multiple of its
range. -/
def InStep (lag : ℕ) : List Call → Prop
  | [] => True
  | c :: cs => (c.frame ≠ [] → 2 ^ 32 ∣ lag) ∧ InStep (lag + c.lag) cs

theorem ofNat_eq_zero_iff {n : ℕ} : UInt32.ofNat n = 0 ↔ 2 ^ 32 ∣ n := by
  rw [← UInt32.toNat_inj, UInt32.toNat_ofNat', Nat.dvd_iff_mod_eq_zero]
  rfl

theorem onClock_iff {calls : List Call} (h32 : ∀ c ∈ calls, c.frame.length < 2 ^ 32) (s : Sender)
    {t : UInt32} {lag : ℕ} (ht : s.timestamp + UInt32.ofNat lag = t) :
    (∃ s' out, run sendStep s calls = some (s', out) ∧ OnClock t calls out) ↔
      (∀ c ∈ calls, c.frame.length ≤ maxFragmented) ∧ InStep lag calls := by
  induction calls generalizing s t lag with
  | nil => exact iff_of_true ⟨s, [], rfl, .nil t⟩ ⟨List.forall_mem_nil _, trivial⟩
  | cons c calls ih =>
    obtain ⟨hc, hcalls⟩ := List.forall_mem_cons.mp h32
    rw [List.forall_mem_cons]
    by_cases hlen : c.frame.length ≤ maxFragmented
    · obtain ⟨s₁, pkts, hsend, hsent, hclock⟩ := sendFrame_sent hlen s
      have hstep : sendStep s c = some (s₁, [pkts]) := by rw [sendStep, hsend]; rfl
      have ht₁ : s₁.timestamp + UInt32.ofNat (lag + c.lag) = t + c.duration := by
        rw [UInt32.ofNat_add, UInt32.add_comm (UInt32.ofNat lag), ← UInt32.add_assoc, hclock, ← ht,
          UInt32.add_assoc, UInt32.add_assoc, UInt32.add_comm c.duration]
      -- the first packet is in time
      have hfirst : (∀ p ∈ pkts.head?, p.ts = t) ↔ (c.frame ≠ [] → 2 ^ 32 ∣ lag) := by
        rw [← ofNat_eq_zero_iff, ← hsent.payloads]
        rcases pkts with _ | ⟨p, pkts⟩
        · exact iff_of_true (by rintro p ⟨⟩) fun h => absurd rfl h
        · have hne : (p :: pkts).flatMap Packet.payload ≠ [] := fun h =>
            hsent.nonempty p List.mem_cons_self (List.flatMap_eq_nil_iff.mp h p List.mem_cons_self)
          rw [forall_prop_of_true hne, List.head?_cons]
          simp only [Option.mem_some_iff, forall_eq']
          rw [hsent.first p rfl, ← ht, eq_comm]
          exact UInt32.add_eq_left
      rw [InStep, and_iff_right hlen, ← hfirst, and_left_comm, ← ih hcalls s₁ ht₁]
      constructor
      · rintro ⟨s', out, hr, hon⟩
        obtain ⟨s₂, o, o', hs, hr', rfl⟩ := run_cons_eq_some.mp hr
        rw [hstep, Option.some.injEq, Prod.mk.injEq] at hs
        obtain ⟨rfl, rfl⟩ := hs
        cases hon with
        | cons _ _ hf hrest => exact ⟨hf, s', o', hr', hrest⟩
      · rintro ⟨hf, s', out, hr, hrest⟩
        exact ⟨s', pkts :: out, run_cons_eq_some.mpr ⟨s₁, [pkts], out, hstep, hr, rfl⟩,
          .cons hsent.payloads hsent.size hf hrest⟩
    · refine iff_of_false ?_ fun h => hlen h.1.1
      rintro ⟨s', out, hr, -⟩
      obtain ⟨s₁, o, o', hs, -, -⟩ := run_cons_eq_some.mp hr
      have hnone : sendFrame s c.frame c.duration = none :=
        sendLoop_none (Nat.lt_of_not_le hlen) hc c.duration (Nat.zero_le _)
          (lt_of_lt_of_le (lt_trans (by norm_num [maxFragmented]) (Nat.lt_of_not_le hlen))
            (Nat.le_succ _))
      rw [sendStep, hnone] at hs
      cases hs

/-- The packets of all calls carry the frames at the times of the media clock exactly if no
frame is too long and the clock never falls behind by anything but its range. -/
theorem sendFrames_onClock_iff {calls : List Call} (h32 : ∀ c ∈ calls, c.frame.length < 2 ^ 32)
    (s : Sender) :
    (∃ s' out, run sendStep s calls = some (s', out) ∧ OnClock s.timestamp calls out) ↔
      (∀ c ∈ calls, c.frame.length ≤ maxFragmented) ∧ InStep 0 calls :=
  onClock_iff h32 s (UInt32.add_zero s.timestamp)

private def quietSender : Sender := { pt := 8, ssrc := 1, seq := 0 }

theorem sendFrames_short :
    (∃ s' out, run sendStep quietSender [⟨[1, 2], 160⟩, ⟨[3], 160⟩] = some (s', out) ∧
      OnClock quietSender.timestamp [⟨[1, 2], 160⟩, ⟨[3], 160⟩] out) ↔
    (∀ c ∈ ([⟨[1, 2], 160⟩, ⟨[3], 160⟩] : List Call), c.frame.length ≤ maxFragmented) ∧
      InStep 0 [⟨[1, 2], 160⟩, ⟨[3], 160⟩] :=
  sendFrames_onClock_iff (by simp) quietSender

/-- A frame of 1201 bytes leaves the clock one tick behind. -/
theorem long_frame_falls_behind :
    ¬ ∃ s' out, run sendStep quietSender [⟨List.replicate 1201 0xd5, 160⟩, ⟨[0xd5], 160⟩] =
        some (s', out) ∧
      OnClock quietSender.timestamp [⟨List.replicate 1201 0xd5, 160⟩, ⟨[0xd5], 160⟩] out := by
  have hlag : Call.lag ⟨List.replicate 1201 0xd5, 160⟩ = 1 := by
    rw [Call.lag, if_neg (List.ne_nil_of_length_pos (by rw [List.length_replicate]; decide)),
      List.length_replicate]
    rfl
  have h32 : ∀ c ∈ ([⟨List.replicate 1201 0xd5, 160⟩, ⟨[0xd5], 160⟩] : List Call),
      c.frame.length < 2 ^ 32 := by
    rw [List.forall_mem_cons, List.forall_mem_singleton, List.length_replicate]
    norm_num
  rw [onClock_iff h32 quietSender (UInt32.add_zero quietSender.timestamp)]
  rintro ⟨-, -, hsecond, -⟩
  rw [hlag] at hsecond
  exact absurd (hsecond (List.cons_ne_nil _ _)) (by decide)

end CxxDeps.Audio
