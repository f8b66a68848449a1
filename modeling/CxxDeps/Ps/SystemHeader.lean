import CxxDeps.Library.Bits
import CxxDeps.Library.Reader

/-! The system header of a program stream (rtpx/mpeg/sys_header.cpp). A bit-field of `w`
bits is a `BitVec w`; expressions are computed in natural numbers, where nothing in them
overflows, and cut down to a byte or a field where the source does so. -/

namespace CxxDeps.Ps

open Library Reader

/-- `sys_header::stream_t`. -/
structure SysStream where
  streamId : UInt8
  flag : BitVec 2
  pStdBufferBoundScale : BitVec 1
  pStdBufferSizeBound : BitVec 13
  deriving DecidableEq, Repr

/-- `sys_header`. -/
structure SysHeader where
  rateBound : BitVec 22 := 0
  audioBound : BitVec 6 := 0
  fixedFlag : BitVec 1 := 0
  cspsFlag : BitVec 1 := 0
  systemAudioLockFlag : BitVec 1 := 0
  systemVideoLockFlag : BitVec 1 := 0
  videoBound : BitVec 5 := 0
  packetRateRestrictionFlag : BitVec 1 := 0
  streams : List SysStream := []
  deriving DecidableEq, Repr

def SysStream.serialize (stream : SysStream) : List UInt8 :=
  let bound := stream.pStdBufferSizeBound.toNat
  [stream.streamId,
    .ofNat (stream.flag.toNat <<< 6 ||| stream.pStdBufferBoundScale.toNat <<< 5 |||
      (bound &&& 0x1f00) >>> 8),
    .ofNat (bound &&& 0xff)]

/-- `sys_header::serialize`. -/
def SysHeader.serialize (hdr : SysHeader) : List UInt8 :=
  let rate := hdr.rateBound.toNat
  [.ofNat (0x80 ||| (rate &&& 0x3f8000) >>> 15),
    .ofNat ((rate &&& 0x7f80) >>> 7),
    .ofNat ((rate &&& 0x7f) <<< 1 ||| 1),
    .ofNat (hdr.audioBound.toNat <<< 2 ||| hdr.fixedFlag.toNat <<< 1 ||| hdr.cspsFlag.toNat),
    .ofNat (hdr.systemAudioLockFlag.toNat <<< 7 ||| hdr.systemVideoLockFlag.toNat <<< 6 |||
      1 <<< 5 ||| hdr.videoBound.toNat),
    .ofNat (hdr.packetRateRestrictionFlag.toNat <<< 7 ||| 0x7F)] ++
  hdr.streams.flatMap SysStream.serialize

/-- One entry, by its three bytes. -/
def SysStream.ofBytes (b₀ b₁ b₂ : UInt8) : SysStream where
  streamId := b₀
  flag := .ofNat 2 ((b₁.toNat &&& 0xc0) >>> 6)
  pStdBufferBoundScale := .ofNat 1 ((b₁.toNat &&& 0x20) >>> 5)
  pStdBufferSizeBound := .ofNat 13 ((b₁.toNat &&& 0x1f) <<< 8 ||| b₂.toNat)

/-- The header without its list, by the six bytes before that. -/
def SysHeader.ofBytes (b₀ b₁ b₂ b₃ b₄ b₅ : UInt8) : SysHeader where
  rateBound := .ofNat 22
    ((b₀.toNat &&& 0x7f) <<< 15 ||| b₁.toNat <<< 7 ||| (b₂.toNat &&& 0xfe) >>> 1)
  audioBound := .ofNat 6 ((b₃.toNat &&& 0xfc) >>> 2)
  fixedFlag := .ofNat 1 ((b₃.toNat &&& 0x02) >>> 1)
  cspsFlag := .ofNat 1 (b₃.toNat &&& 0x01)
  systemAudioLockFlag := .ofNat 1 ((b₄.toNat &&& 0x80) >>> 7)
  systemVideoLockFlag := .ofNat 1 ((b₄.toNat &&& 0x40) >>> 6)
  videoBound := .ofNat 5 (b₄.toNat &&& 0x1f)
  packetRateRestrictionFlag := .ofNat 1 ((b₅.toNat &&& 0x80) >>> 7)

/-- The loop of `sys_header::deserialize`. It only asks whether an entry begins in the
buffer. -/
def readStreams : ℕ → Reader (List SysStream)
  | 0 => pure []
  | n + 1 => do
    let pos ← position
    let size ← size
    if pos < size then
      let b₀ ← byte 0
      let b₁ ← byte 1
      let b₂ ← byte 2
      skip 3
      note (pos + 3)
      let rest ← readStreams n
      return .ofBytes b₀ b₁ b₂ :: rest
    else return []

/-- `sys_header::deserialize`. Every round of the loop passes three bytes, so the size of
the buffer bounds the rounds. -/
def SysHeader.read : Reader SysHeader := do
  need 6
  let b₀ ← byte 0
  let b₁ ← byte 1
  let b₂ ← byte 2
  let b₃ ← byte 3
  let b₄ ← byte 4
  let b₅ ← byte 5
  skip 6
  let size ← size
  let streams ← readStreams size
  return { SysHeader.ofBytes b₀ b₁ b₂ b₃ b₄ b₅ with streams }

def SysHeader.deserialize (buffer : List UInt8) : Option SysHeader :=
  (SysHeader.read.value buffer 0).map Prod.fst

/-! ### The fields -/

theorem bitVec_ofNat_bits {w : ℕ} (x : BitVec w) : BitVec.ofNat w (bits x.toNat 0 w) = x := by
  rw [bits_of_lt x.isLt, BitVec.ofNat_toNat, BitVec.setWidth_eq]

theorem SysStream.ofBytes_serialize (stream : SysStream) :
    ∃ b₀ b₁ b₂, stream.serialize = [b₀, b₁, b₂] ∧ SysStream.ofBytes b₀ b₁ b₂ = stream := by
  obtain ⟨streamId, flag, scale, bound⟩ := stream
  refine ⟨_, _, _, rfl, ?_⟩
  have hhigh : (bound.toNat &&& 0x1f00) >>> 8 = bits bound.toNat 8 5 :=
    and_mask_shiftRight bound.toNat 8 5 8 le_rfl
  have hlow : bound.toNat &&& 0xff = bits bound.toNat 0 8 := and_mask bound.toNat 8
  have hfields : ∀ (flag : BitVec 2) (scale : BitVec 1) (d : Fin 32),
      let b := (UInt8.ofNat (flag.toNat <<< 6 ||| scale.toNat <<< 5 ||| d.val)).toNat
      BitVec.ofNat 2 ((b &&& 0xc0) >>> 6) = flag ∧ BitVec.ofNat 1 ((b &&& 0x20) >>> 5) = scale ∧
        b &&& 0x1f = d.val := by decide
  obtain ⟨hflag, hscale, hd⟩ := hfields flag scale ⟨_, bits_lt bound.toNat 8 5⟩
  have hbyte : (UInt8.ofNat (bits bound.toNat 0 8)).toNat = bits bound.toNat 0 8 :=
    UInt8.toNat_ofNat_of_lt' (bits_lt bound.toNat 0 8)
  have hjoin := bits_or bound.toNat 0 8 5 0
  rw [ofBytes, hhigh, hlow, hflag, hscale, hd, hbyte]
  rw [Nat.shiftLeft_zero, Nat.shiftLeft_zero] at hjoin
  rw [hjoin, bitVec_ofNat_bits]

/-- A rate of 22 bits, as it is written here and in `psh2`. -/
theorem rate_join (r : BitVec 22) :
    BitVec.ofNat 22 (bits r.toNat 15 7 <<< 15 ||| bits r.toNat 7 8 <<< 7 ||| bits r.toNat 0 7) =
      r := by
  have hhigh := bits_or r.toNat 7 8 7 7
  have hlow := bits_or r.toNat 0 7 15 0
  rw [Nat.shiftLeft_zero, Nat.shiftLeft_zero] at hlow
  rw [hhigh, hlow, bitVec_ofNat_bits]

theorem SysHeader.ofBytes_serialize (hdr : SysHeader) :
    ∃ b₀ b₁ b₂ b₃ b₄ b₅,
      hdr.serialize = [b₀, b₁, b₂, b₃, b₄, b₅] ++ hdr.streams.flatMap SysStream.serialize ∧
        { SysHeader.ofBytes b₀ b₁ b₂ b₃ b₄ b₅ with streams := hdr.streams } = hdr := by
  obtain ⟨rate, audio, fixed, csps, audioLock, videoLock, video, restriction, streams⟩ := hdr
  refine ⟨_, _, _, _, _, _, rfl, ?_⟩
  have hrate : (rate.toNat &&& 0x3f8000) >>> 15 = bits rate.toNat 15 7 :=
    and_mask_shiftRight rate.toNat 15 7 15 le_rfl
  have hmiddle : (rate.toNat &&& 0x7f80) >>> 7 = bits rate.toNat 7 8 :=
    and_mask_shiftRight rate.toNat 7 8 7 le_rfl
  have hlow : rate.toNat &&& 0x7f = bits rate.toNat 0 7 := and_mask rate.toNat 7
  have hfirst : ∀ d : Fin 128, (UInt8.ofNat (0x80 ||| d.val)).toNat &&& 0x7f = d.val := by decide
  have hlast : ∀ d : Fin 128,
      ((UInt8.ofNat (d.val <<< 1 ||| 1)).toNat &&& 0xfe) >>> 1 = d.val := by decide
  have hbyte : (UInt8.ofNat (bits rate.toNat 7 8)).toNat = bits rate.toNat 7 8 :=
    UInt8.toNat_ofNat_of_lt' (bits_lt rate.toNat 7 8)
  have hbounds : ∀ (audio : BitVec 6) (fixed csps : BitVec 1),
      let b := (UInt8.ofNat (audio.toNat <<< 2 ||| fixed.toNat <<< 1 ||| csps.toNat)).toNat
      BitVec.ofNat 6 ((b &&& 0xfc) >>> 2) = audio ∧ BitVec.ofNat 1 ((b &&& 0x02) >>> 1) = fixed ∧
        BitVec.ofNat 1 (b &&& 0x01) = csps := by decide
  have hlocks : ∀ (audioLock videoLock : BitVec 1) (video : BitVec 5),
      let b := (UInt8.ofNat (audioLock.toNat <<< 7 ||| videoLock.toNat <<< 6 ||| 1 <<< 5 |||
        video.toNat)).toNat
      BitVec.ofNat 1 ((b &&& 0x80) >>> 7) = audioLock ∧
        BitVec.ofNat 1 ((b &&& 0x40) >>> 6) = videoLock ∧ BitVec.ofNat 5 (b &&& 0x1f) = video := by
    decide
  have hrestriction : ∀ flag : BitVec 1,
      BitVec.ofNat 1 (((UInt8.ofNat (flag.toNat <<< 7 ||| 0x7F)).toNat &&& 0x80) >>> 7) = flag := by
    decide
  obtain ⟨haudio, hfixed, hcsps⟩ := hbounds audio fixed csps
  obtain ⟨haudioLock, hvideoLock, hvideo⟩ := hlocks audioLock videoLock video
  simp only [ofBytes, hrate, hmiddle, hlow, hfirst ⟨_, bits_lt rate.toNat 15 7⟩,
    hlast ⟨_, bits_lt rate.toNat 0 7⟩, hbyte, rate_join, haudio, hfixed, hcsps, haudioLock,
    hvideoLock, hvideo, hrestriction]

/-! ### What is used -/

variable {buffer : List UInt8} {pos : ℕ}

/-- The loop is safe where its entries fill the buffer. -/
theorem uses_readStreams (n : ℕ) {pos : ℕ} (hpos : pos ≤ buffer.length)
    (hn : buffer.length ≤ pos + 3 * n) : AllOk ((readStreams n).uses buffer pos) ↔
      pos = buffer.length ∨ 3 ∣ buffer.length - pos ∧ buffer.length < 2 ^ 31 := by
  induction n generalizing pos with
  | zero => exact ⟨fun _ => .inl (by omega), fun _ => allOk_nil⟩
  | succ n ih =>
    by_cases hlt : pos < buffer.length
    · have huses : (readStreams (n + 1)).uses buffer pos =
          [.access ⟨buffer.length, pos, pos + 1⟩,
            .access ⟨buffer.length, pos + 1, pos + 2⟩,
            .access ⟨buffer.length, pos + 2, pos + 3⟩, .length (pos + 3)] ++
          (readStreams n).uses buffer (pos + 3) := by
        rw [readStreams]
        simp only [uses_bind, uses_position, value_position, uses_size, value_size, if_pos hlt]
        cases hv : (readStreams n).value buffer (pos + 3) <;> simp [hv]
      rw [huses]
      simp only [List.cons_append, List.nil_append, allOk_cons, Use.Ok, Access.InRange]
      by_cases hin : pos + 3 ≤ buffer.length
      · rw [ih hin (by omega)]
        omega
      · omega
    · have huses : (readStreams (n + 1)).uses buffer pos = [] := by
        rw [readStreams]
        simp only [uses_bind, uses_position, value_position, uses_size, value_size, if_neg hlt]
        rfl
      rw [huses]
      exact ⟨fun _ => .inl (by omega), fun _ => allOk_nil⟩

/-- The loop ends behind its last entry. -/
theorem value_readStreams (n : ℕ) {pos : ℕ} (hdvd : 3 ∣ buffer.length - pos)
    (hpos : pos ≤ buffer.length) :
    ∃ streams pos', (readStreams n).value buffer pos = some (streams, pos') ∧
      pos' ≤ buffer.length := by
  induction n generalizing pos with
  | zero => exact ⟨_, _, rfl, hpos⟩
  | succ n ih =>
    rw [readStreams]
    simp only [value_bind, value_position, value_size, Option.bind_some]
    by_cases hlt : pos < buffer.length
    · have hrest : 3 ∣ buffer.length - (pos + 3) := by omega
      obtain ⟨streams, pos', hvalue, hle⟩ := ih hrest (by omega)
      simp only [if_pos hlt, value_bind, value_byte, value_skip, value_note, Option.bind_some,
        hvalue, value_pure]
      exact ⟨_, _, rfl, hle⟩
    · simp only [if_neg hlt]
      exact ⟨_, _, rfl, hpos⟩

theorem readStreams_end (n : ℕ) (h : buffer.length ≤ pos) :
    (readStreams n).SameAt (pure []) buffer pos := by
  cases n with
  | zero => exact .refl _ _ _
  | succ n =>
    refine (sameAt_silent rfl rfl).trans ((sameAt_silent rfl rfl).trans ?_)
    rw [if_neg (Nat.not_lt.mpr h)]
    exact .refl _ _ _

theorem readStreams_rounds {m n : ℕ} (hm : buffer.length ≤ pos + m)
    (hn : buffer.length ≤ pos + n) : (readStreams m).SameAt (readStreams n) buffer pos := by
  induction m generalizing n pos with
  | zero => exact (readStreams_end n hm).symm
  | succ m ih =>
    by_cases hend : buffer.length ≤ pos
    · exact (readStreams_end _ hend).trans (readStreams_end _ hend).symm
    cases n with
    | zero => exact absurd hn hend
    | succ n =>
      rw [readStreams, readStreams]
      refine SameAt.bind (.refl _ _ _) fun _ _ hposition =>
        SameAt.bind (.refl _ _ _) fun _ _ hsize => ?_
      obtain ⟨rfl, rfl⟩ := Prod.mk.inj (Option.some.inj hposition)
      obtain ⟨rfl, rfl⟩ := Prod.mk.inj (Option.some.inj hsize)
      rw [if_pos (by omega), if_pos (by omega)]
      refine SameAt.bind (.refl _ _ _) fun b₀ _ h₀ => SameAt.bind (.refl _ _ _) fun b₁ _ h₁ =>
        SameAt.bind (.refl _ _ _) fun b₂ _ h₂ => SameAt.bind (.refl _ _ _) fun _ _ h₃ =>
        SameAt.bind (.refl _ _ _) fun _ _ h₄ => SameAt.bind ?_ fun _ _ _ => .refl _ _ _
      obtain ⟨-, rfl⟩ := Prod.mk.inj (Option.some.inj h₀)
      obtain ⟨-, rfl⟩ := Prod.mk.inj (Option.some.inj h₁)
      obtain ⟨-, rfl⟩ := Prod.mk.inj (Option.some.inj h₂)
      obtain ⟨-, rfl⟩ := Prod.mk.inj (Option.some.inj h₃)
      obtain ⟨-, rfl⟩ := Prod.mk.inj (Option.some.inj h₄)
      exact ih (by omega) (by omega)

/-- It is not asked whether an entry ends in the buffer. -/
theorem SysHeader.read_safe_iff (buffer : List UInt8) : SysHeader.read.SafeAt buffer 0 ↔
    buffer.length < 6 ∨ 3 ∣ buffer.length ∧ buffer.length < 2 ^ 31 := by
  by_cases hsize : buffer.length < 6
  · refine ⟨fun _ => .inl hsize, fun _ => .need fun h => absurd h (by omega)⟩
  have hloop : AllOk ((readStreams buffer.length).uses buffer 6) ↔
      3 ∣ buffer.length ∧ buffer.length < 2 ^ 31 := by
    rw [uses_readStreams _ (by omega) (by omega)]
    omega
  constructor
  · intro h
    refine .inr (hloop.mp fun u hu => h.uses u ?_)
    rw [SysHeader.read, uses_bind, value_need, if_neg (by omega)]
    simp [uses_bind, hu]
  · intro h
    have hfull := h.resolve_left hsize
    have hrest : 3 ∣ buffer.length - 6 := by omega
    obtain ⟨streams, pos', hvalue, hle⟩ := value_readStreams buffer.length hrest (by omega)
    refine .need fun _ => ?_
    refine .byte (by omega) (.byte (by omega) (.byte (by omega) (.byte (by omega)
      (.byte (by omega) (.byte (by omega) (.skip ?_))))))
    exact .step allOk_nil rfl (.step (hloop.mpr hfull) hvalue (safeAt_pure _ hle))

/-! ### The round trip -/

/-- The loop reads entries to the end of the buffer. -/
theorem readStreams_value {n : ℕ} (streams : List SysStream) (hn : streams.length ≤ n)
    (before : List UInt8) :
    (readStreams n).value (before ++ streams.flatMap SysStream.serialize) before.length =
      some (streams, before.length + 3 * streams.length) := by
  induction streams generalizing n before with
  | nil =>
    cases n with
    | zero => rfl
    | succ n => simp [readStreams, value_bind]
  | cons stream streams ih =>
    obtain ⟨n, rfl⟩ : ∃ m, n = m + 1 := ⟨n - 1, by simp only [List.length_cons] at hn; omega⟩
    obtain ⟨b₀, b₁, b₂, hbytes, hof⟩ := stream.ofBytes_serialize
    have hrest := ih (Nat.le_of_succ_le_succ hn) (before ++ stream.serialize)
    rw [List.flatMap_cons, ← List.append_assoc]
    have hget (i : ℕ) (hi : i < 3) :
        (before ++ stream.serialize ++ streams.flatMap SysStream.serialize).getD
          (before.length + i) 0 = [b₀, b₁, b₂].getD i 0 := by
      rw [List.append_assoc, getD_append_add, hbytes, List.getD_eq_getElem?_getD,
        List.getElem?_append_left (by simpa using hi), List.getD_eq_getElem?_getD]
    have hlength : (before ++ stream.serialize).length = before.length + 3 := by
      rw [List.length_append, hbytes]
      rfl
    rw [hlength] at hrest
    have hmore : before.length <
        (before ++ stream.serialize ++ streams.flatMap SysStream.serialize).length := by
      rw [List.length_append, hlength]
      omega
    simp only [readStreams, value_bind, value_position, value_size, Option.bind_some, hmore,
      if_true, value_byte, value_skip, value_note, hrest, value_pure, hget 0 (by decide),
      hget 1 (by decide), hget 2 (by decide)]
    rw [List.length_cons, Nat.mul_add, Nat.mul_one, Nat.add_comm (3 * _), Nat.add_assoc]
    exact congrArg (fun s => some (s :: streams, _)) hof

/-- The header is read back, and what the reader uses of the bytes is in order. -/
def SysHeader.RoundTrips (hdr : SysHeader) : Prop :=
  SysHeader.read.SafeAt hdr.serialize 0 ∧ SysHeader.deserialize hdr.serialize = some hdr

theorem SysHeader.deserialize_serialize (hdr : SysHeader) :
    SysHeader.deserialize hdr.serialize = some hdr := by
  obtain ⟨b₀, b₁, b₂, b₃, b₄, b₅, hbytes, hof⟩ := hdr.ofBytes_serialize
  have hsize : hdr.streams.length ≤ hdr.serialize.length := by
    rw [hbytes, List.length_append]
    have hone (stream : SysStream) : 1 ≤ stream.serialize.length := Nat.le_add_left 1 2
    exact (length_le_length_flatMap hone hdr.streams).trans (Nat.le_add_left _ _)
  have hstreams := readStreams_value hdr.streams hsize [b₀, b₁, b₂, b₃, b₄, b₅]
  rw [hbytes] at hstreams
  have hfits : ¬ 0 + 6 > hdr.serialize.length := by
    rw [hbytes, List.length_append]
    simp only [List.length_cons, List.length_nil]
    omega
  rw [deserialize, read, value_bind, value_need, if_neg hfits, hbytes]
  simp only [value_bind, value_byte, value_skip, value_size, value_pure, Option.bind_some,
    Nat.zero_add, List.length_cons, List.length_nil] at hstreams ⊢
  rw [hstreams]
  exact congrArg some hof

theorem SysHeader.length_serialize (hdr : SysHeader) :
    hdr.serialize.length = 6 + 3 * hdr.streams.length := by
  obtain ⟨b₀, b₁, b₂, b₃, b₄, b₅, hbytes, -⟩ := hdr.ofBytes_serialize
  have hthree (stream : SysStream) : stream.serialize.length = 3 := rfl
  rw [hbytes, List.length_append, List.length_flatMap]
  simp only [hthree, List.map_const', List.sum_replicate_nat, List.length_cons,
    List.length_nil]
  omega

/-- The position of the reader is an `int`. -/
theorem SysHeader.roundTrips_iff (hdr : SysHeader) :
    hdr.RoundTrips ↔ 6 + 3 * hdr.streams.length < 2 ^ 31 := by
  rw [RoundTrips, and_iff_left hdr.deserialize_serialize, read_safe_iff, length_serialize]
  omega

end CxxDeps.Ps
