import CxxDeps.Library.Access
import CxxDeps.Library.Bits
import CxxDeps.Library.Loop
import CxxDeps.Rtp.Sender

/-! `sender_audio_aac` and `receiver_audio_aac`: a frame of AAC in one packet, behind
its length. RFC 3016 writes the length in bytes of 255 and a smaller one, RFC 3640 as a
field of 13 bits in an AU header. What the receiver hands out are ranges of the payload. -/

namespace CxxDeps.Audio

open Rtp Library

/-! ### The sender -/

/-- The packet with its marker bit, and the clock behind it. The size is a `uint16_t`. -/
def sendUnit (s : Sender) (payload : List UInt8) (duration : UInt32) : Sender × Packet :=
  let pkt := s.newPacket true payload
  (({ s with timestamp := s.timestamp + duration } : Sender).sendPacket pkt, pkt)

def rfc3640Payload (frame : List UInt8) : List UInt8 :=
  let size := frame.length % 65536
  let c := size <<< 3 % 65536
  [0x00, 0x10, UInt8.ofNat ((c &&& 0xFF00) >>> 8), UInt8.ofNat (c &&& 0x00F8)] ++ frame.take size

/-- `send_frame_rfc3640`. -/
def sendFrameRfc3640 (s : Sender) (frame : List UInt8) (duration : UInt32) : Sender × Packet :=
  sendUnit s (rfc3640Payload frame) duration

def rfc3016Payload (frame : List UInt8) : List UInt8 :=
  let size := frame.length % 65536
  List.replicate (size / 0xFF) 0xFF ++ UInt8.ofNat (size % 0xFF) :: frame.take size

/-- `send_frame_rfc3016`. -/
def sendFrameRfc3016 (s : Sender) (frame : List UInt8) (duration : UInt32) : Sender × Packet :=
  sendUnit s (rfc3016Payload frame) duration

/-! ### The receiver -/

/-- The access units of a packet, handed out one after the other. -/
def handOut (pkt : Packet) : Receiver → List Access → Receiver × List Frame
  | r, [] => (r, [])
  | r, a :: as =>
    let pts : ℤ := pkt.ts.toNat
    let (r, frame) := r.invokeRtpFrame
      ⟨pts, pts, (pkt.payload.drop a.first).take (a.last - a.first), 0⟩
    let (r, frames) := handOut pkt
      { r with stats := { r.stats with framesReceived := r.stats.framesReceived + 1 } } as
    (r, frame :: frames)

/-- `c`, the number of AU headers; `none` is the result `false`. -/
def auHeaders : List UInt8 → Option ℕ
  | b0 :: b1 :: rest =>
    let c := (b0.toNat <<< 8 ||| b1.toNat) / 16
    if rest.length + 2 < 2 + c * 2 then none else some c
  | _ => none

/-- `ausize` of the AU header at `pos`. The headers are within the payload. -/
def auSize (payload : List UInt8) (pos : ℕ) : ℕ :=
  (payload.getD pos 0).toNat <<< 5 ||| (payload.getD (pos + 1) 0).toNat >>> 3

/-- The variables of the loop of `process_rfc3640_frame`. -/
structure AuPos where
  i : ℕ
  pos : ℕ
  aupos : ℕ
  deriving DecidableEq, Repr

/-- A round of the loop over the AU headers. -/
def rfc3640Round (payload : List UInt8) (c : ℕ) (p : AuPos) : Option (Access × AuPos) :=
  if p.i < c then
    let audata := 2 + c * 2
    let ausize := auSize payload p.pos
    if payload.length < p.pos + 2 + p.aupos + ausize then none
    else some (⟨payload.length, audata + p.aupos, audata + p.aupos + ausize⟩,
      ⟨p.i + 1, p.pos + 2, p.aupos + ausize⟩)
  else none

/-- `process_rfc3640_frame`, in at most `n` rounds. -/
def processRfc3640Frame (n : ℕ) (r : Receiver) (pkt : Packet) :
    Option (Bool × Receiver × List Frame) :=
  match auHeaders pkt.payload with
  | none => some (false, r, [])
  | some c =>
    (loop (rfc3640Round pkt.payload c) n ⟨0, 2, 0⟩).map fun units => (true, handOut pkt r units)

/-- The loop that counts bytes `0xFF`: `c`, `v` and the bytes it took. The last byte of
the payload is not read, and `v` then stays what it was. -/
def sizeLoop : List UInt8 → (c : ℕ) → (v : UInt8) → (taken : ℕ) → ℕ × UInt8 × ℕ
  | b :: b' :: rest, c, _, taken =>
    if b ≠ 0xFF then (c, b, taken + 1) else sizeLoop (b' :: rest) (c + 1) b (taken + 1)
  | _, c, v, taken => (c, v, taken)

/-- A round of the loop of `process_rfc3016_frame`; `ausize` is a `uint32_t`. -/
def rfc3016Round (payload : List UInt8) (pos : ℕ) : Option (Access × ℕ) :=
  if pos < payload.length then
    let (c, v, taken) := sizeLoop (payload.drop pos) 0 0 0
    let ausize := (c * 0xFF + v.toNat) % 2 ^ 32
    if pos + taken + ausize > payload.length then none
    else some (⟨payload.length, pos + taken, pos + taken + ausize⟩, pos + taken + ausize)
  else none

/-- `process_rfc3016_frame`, in at most `n` rounds. -/
def processRfc3016Frame (n : ℕ) (r : Receiver) (pkt : Packet) :
    Option (Bool × Receiver × List Frame) :=
  (loop (rfc3016Round pkt.payload) n 0).map fun units => (true, handOut pkt r units)

/-! ### Round trips -/

/-- A run of `0xFF`, a smaller byte, and something behind it. -/
theorem sizeLoop_run (k : ℕ) {v : UInt8} (hv : v ≠ 0xFF) {data : List UInt8} (hd : data ≠ [])
    (c : ℕ) (w : UInt8) (taken : ℕ) :
    sizeLoop (List.replicate k 0xFF ++ v :: data) c w taken = (c + k, v, taken + k + 1) := by
  induction k generalizing c w taken with
  | zero =>
    obtain ⟨d, ds, rfl⟩ := List.exists_cons_of_ne_nil hd
    simp only [List.replicate_zero, List.nil_append, sizeLoop, if_pos hv, Nat.add_zero]
  | succ k ih =>
    have hshape : ∃ b bs, List.replicate k 0xFF ++ v :: data = b :: bs := by
      cases k with
      | zero => exact ⟨v, data, rfl⟩
      | succ k => exact ⟨0xFF, _, rfl⟩
    obtain ⟨b, bs, hbs⟩ := hshape
    have hrest := ih (c + 1) 0xFF (taken + 1)
    rw [List.replicate_succ, List.cons_append]
    rw [hbs] at hrest ⊢
    rw [sizeLoop, if_neg (by decide), hrest]
    simp only [Prod.mk.injEq, true_and]
    omega

theorem handOut_single (pkt : Packet) (r : Receiver) (a : Access) :
    ∃ r' f, handOut pkt r [a] = (r', [f]) ∧
      f.data = (pkt.payload.drop a.first).take (a.last - a.first) := by
  refine ⟨_, _, rfl, ?_⟩
  dsimp only
  split_ifs <;> rfl

theorem rfc3016_round_trip (s : Sender) (r : Receiver) {frame : List UInt8} (duration : UInt32)
    (h1 : 1 ≤ frame.length) (h2 : frame.length ≤ 65535) :
    ∃ n r' f, processRfc3016Frame n r (sendFrameRfc3016 s frame duration).2 =
      some (true, r', [f]) ∧ f.data = frame := by
  set pkt := (sendFrameRfc3016 s frame duration).2 with hpkt
  set k := frame.length / 255
  set v : UInt8 := UInt8.ofNat (frame.length % 255) with hv
  have hsize : frame.length % 65536 = frame.length := Nat.mod_eq_of_lt (by omega)
  have hpay : pkt.payload = List.replicate k 0xFF ++ v :: frame := by
    have hp : pkt.payload = rfc3016Payload frame := rfl
    rw [hp, rfc3016Payload, hsize, List.take_length]
  have hval : v.toNat = frame.length % 255 := by
    rw [hv, UInt8.toNat_ofNat']
    omega
  have hff : v ≠ 0xFF := by
    intro h
    rw [h] at hval
    have : (0xFF : UInt8).toNat = 255 := rfl
    omega
  have hne : frame ≠ [] := List.length_pos_iff.mp (by omega)
  have hlen : pkt.payload.length = k + 1 + frame.length := by
    rw [hpay, List.length_append, List.length_replicate, List.length_cons]
    omega
  have hau : (k * 0xFF + v.toNat) % 2 ^ 32 = frame.length := by
    rw [hval]
    omega
  have hround : rfc3016Round pkt.payload 0 =
      some (⟨pkt.payload.length, k + 1, k + 1 + frame.length⟩, k + 1 + frame.length) := by
    rw [rfc3016Round, if_pos (by omega), List.drop_zero, hpay, sizeLoop_run k hff hne, ← hpay]
    simp only [Nat.zero_add, hau]
    rw [if_neg (by omega)]
  have hstop : rfc3016Round pkt.payload (k + 1 + frame.length) = none := by
    rw [rfc3016Round, if_neg (by omega)]
  obtain ⟨r', f, hout, hdata⟩ :=
    handOut_single pkt r ⟨pkt.payload.length, k + 1, k + 1 + frame.length⟩
  refine ⟨2, r', f, ?_, ?_⟩
  · rw [processRfc3016Frame, loop_of_some 1 hround, loop_of_none 0 hstop]
    simp only [Option.map_some, hout]
  · have hdrop : pkt.payload.drop (k + 1) = frame := by
      rw [hpay, ← List.drop_drop, List.drop_left' List.length_replicate]
      rfl
    rw [hdata, hdrop, Nat.add_sub_cancel_left, List.take_length]

/-- The thirteen bits of the size, in two bytes. -/
theorem auSize_field {n : ℕ} (h : n ≤ 8191) :
    (UInt8.ofNat ((n <<< 3 % 65536 &&& 0xFF00) >>> 8)).toNat <<< 5 |||
      (UInt8.ofNat (n <<< 3 % 65536 &&& 0x00F8)).toNat >>> 3 = n := by
  have hc : n <<< 3 % 65536 = n * 8 := by
    rw [Nat.shiftLeft_eq]
    omega
  have hhigh : (n * 8 &&& 0xFF00) >>> 8 = bits (n * 8) 8 8 :=
    and_mask_shiftRight (n * 8) 8 8 8 le_rfl
  have hlow : n * 8 &&& 0x00F8 = bits (n * 8) 3 5 <<< 3 :=
    and_mask_shiftRight (n * 8) 3 5 0 (Nat.zero_le 3)
  have hlt := bits_lt (n * 8) 3 5
  have hhi : (UInt8.ofNat (bits (n * 8) 8 8)).toNat = bits (n * 8) 8 8 := by
    rw [UInt8.toNat_ofNat']
    exact Nat.mod_eq_of_lt (bits_lt _ _ _)
  have hlo : (UInt8.ofNat (bits (n * 8) 3 5 <<< 3)).toNat >>> 3 = bits (n * 8) 3 5 := by
    rw [UInt8.toNat_ofNat', Nat.shiftLeft_eq, Nat.shiftRight_eq_div_pow]
    omega
  rw [hc, hhigh, hlow, hhi, hlo, ← Nat.shiftLeft_add_eq_or_of_lt hlt, Nat.shiftLeft_eq]
  simp only [bits]
  omega

theorem rfc3640_round_trip (s : Sender) (r : Receiver) {frame : List UInt8} (duration : UInt32)
    (h : frame.length ≤ 8191) :
    ∃ n r' f, processRfc3640Frame n r (sendFrameRfc3640 s frame duration).2 =
      some (true, r', [f]) ∧ f.data = frame := by
  set pkt := (sendFrameRfc3640 s frame duration).2 with hpkt
  have hsize : frame.length % 65536 = frame.length := Nat.mod_eq_of_lt (by omega)
  obtain ⟨hi, lo, hpay, hfield⟩ : ∃ hi lo : UInt8,
      pkt.payload = 0x00 :: 0x10 :: hi :: lo :: frame ∧
        hi.toNat <<< 5 ||| lo.toNat >>> 3 = frame.length := by
    refine ⟨_, _, ?_, auSize_field h⟩
    have hp : pkt.payload = rfc3640Payload frame := rfl
    rw [hp, rfc3640Payload, hsize, List.take_length]
    rfl
  have hlen : pkt.payload.length = 4 + frame.length := by
    rw [hpay]
    simp only [List.length_cons]
    omega
  have hc : auHeaders pkt.payload = some 1 := by
    rw [hpay, auHeaders]
    have hone : ((0x00 : UInt8).toNat <<< 8 ||| (0x10 : UInt8).toNat) / 16 = 1 := rfl
    simp only [hone, List.length_cons]
    exact if_neg (by omega)
  have hau : auSize pkt.payload 2 = frame.length := by
    rw [hpay]
    exact hfield
  have hround : rfc3640Round pkt.payload 1 ⟨0, 2, 0⟩ =
      some (⟨pkt.payload.length, 4, 4 + frame.length⟩, ⟨1, 4, frame.length⟩) := by
    rw [rfc3640Round, if_pos Nat.zero_lt_one]
    simp only [hau, Nat.zero_add]
    rw [if_neg (by omega)]
  have hstop : rfc3640Round pkt.payload 1 ⟨1, 4, frame.length⟩ = none :=
    if_neg (Nat.lt_irrefl 1)
  obtain ⟨r', f, hout, hdata⟩ := handOut_single pkt r ⟨pkt.payload.length, 4, 4 + frame.length⟩
  refine ⟨2, r', f, ?_, ?_⟩
  · rw [processRfc3640Frame, hc]
    dsimp only
    rw [loop_of_some 1 hround, loop_of_none 0 hstop]
    simp only [Option.map_some, hout]
  · have hdrop : pkt.payload.drop 4 = frame := by rw [hpay]; rfl
    rw [hdata, hdrop, Nat.add_sub_cancel_left, List.take_length]

/-- A frame comes back as the one access unit of its packet, whether its length is
written as RFC 3016 or as RFC 3640 has it. -/
theorem aac_round_trip (s : Sender) (r : Receiver) (frame : List UInt8) (duration : UInt32)
    (h1 : 1 ≤ frame.length) :
    (frame.length ≤ 65535 → ∃ n r' f,
      processRfc3016Frame n r (sendFrameRfc3016 s frame duration).2 = some (true, r', [f]) ∧
        f.data = frame) ∧
      (frame.length ≤ 8191 → ∃ n r' f,
        processRfc3640Frame n r (sendFrameRfc3640 s frame duration).2 = some (true, r', [f]) ∧
          f.data = frame) :=
  ⟨rfc3016_round_trip s r duration h1, rfc3640_round_trip s r duration⟩

/-- A frame of 510 bytes, which takes two bytes `0xFF` and a zero. -/
theorem aac_round_trip_510 :
    let frame := List.replicate 510 (7 : UInt8)
    let s : Sender := { pt := 97, ssrc := 1, seq := 3 }
    let r : Receiver := { ssrc := 1 }
    (∃ n r' f, processRfc3016Frame n r (sendFrameRfc3016 s frame 1024).2 = some (true, r', [f]) ∧
        f.data = frame) ∧
      ∃ n r' f, processRfc3640Frame n r (sendFrameRfc3640 s frame 1024).2 =
        some (true, r', [f]) ∧ f.data = frame :=
  have hlen : (List.replicate 510 (7 : UInt8)).length = 510 := List.length_replicate
  have h := aac_round_trip { pt := 97, ssrc := 1, seq := 3 } { ssrc := 1 }
    (List.replicate 510 7) 1024 (by omega)
  ⟨h.1 (by omega), h.2 (by omega)⟩

end CxxDeps.Audio
