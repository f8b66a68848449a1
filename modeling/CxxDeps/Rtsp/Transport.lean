import CxxDeps.Sys.Decimal
import CxxDeps.Sys.Join

/-! `rtsp_transport`: the Transport header of RTSP. `parse` takes its parameters into an object
that keeps what it had for the others; it takes the first part behind `=` without asking whether
there is one. -/

namespace CxxDeps.Rtsp

open Sys

/-- `strtol` with base 0, which looks at the digits. -/
def strtolAny (s : Text) : ℤ :=
  let digits := s.dropWhile isSpace
  let digits :=
    if digits.head? == some 0x2D || digits.head? == some 0x2B then digits.drop 1 else digits
  strtol (if icasecompare (digits.take 2) (text "0x") then 16
    else if digits.head? == some 0x30 then 8 else 10) s

/-- `rtsp_transport`. -/
structure Transport where
  isRtp : Bool := true
  isAvp : Bool := true
  isUdp : Bool := true
  isTcp : Bool := false
  unicast : Bool := true
  rtpChannel : ℤ := 0
  rtcpChannel : ℤ := 1
  ssrc : UInt32 := 0
  mode : Text := []
  destination : Text := []
  source : Text := []
  rtpClientPort : ℤ := 0
  rtcpClientPort : ℤ := 0
  rtpServerPort : ℤ := 0
  rtcpServerPort : ℤ := 0
  deriving DecidableEq, Repr

namespace Transport

variable {t : Transport}

def parseProto (t : Transport) (proto : Text) : Transport :=
  if icasecompare proto (text "RTP") then { t with isRtp := true }
  else if icasecompare proto (text "AVP") then { t with isAvp := true }
  else if icasecompare proto (text "TCP") then { t with isTcp := true, isUdp := false }
  else t

def parseProtos (protos : Text) (t : Transport) : Transport :=
  (split protos (text "/") none true).foldl parseProto
    { t with isRtp := false, isAvp := false, isUdp := true, isTcp := false }

/-- Two numbers with a dash between them. -/
def readPair (value : Text) : Option (ℤ × ℤ) :=
  match split value (text "-") none true with
  | a :: b :: _ => some (toInt32 (strtolAny a), toInt32 (strtolAny b))
  | _ => none

/-- What a parameter sets. The value is `vec2[1]`: `none` if there is no such element. -/
def assign (t : Transport) (name : Text) (value : Option Text) : Option Transport :=
  if name = text "unicast" then some { t with unicast := true }
  else if name = text "mode" then value.map fun v => { t with mode := v }
  else if name = text "ssrc" then value.map fun v => { t with ssrc := UInt32.ofNat (strtoul 0 v) }
  else if name = text "destination" then value.map fun v => { t with destination := v }
  else if name = text "source" then value.map fun v => { t with source := v }
  else if name = text "client_port" then
    value.map fun v => (readPair v).elim t fun p =>
      { t with rtpClientPort := p.1, rtcpClientPort := p.2 }
  else if name = text "server_port" then
    value.map fun v => (readPair v).elim t fun p =>
      { t with rtpServerPort := p.1, rtcpServerPort := p.2 }
  else if name = text "interleaved" then
    value.map fun v => (readPair v).elim t fun p => { t with rtpChannel := p.1, rtcpChannel := p.2 }
  else some t

/-- A turn of the loop: `none` if `vec2` is empty. -/
def parseParam (t : Transport) (param : Text) : Option Transport :=
  match split param (text "=") (some 2) true with
  | [] => none
  | name :: values => t.assign name values.head?

/-- `parse`: what it returns and the object, or `none` where it is undefined. -/
def parse (s : Text) (t : Transport) : Option (Bool × Transport) :=
  match split s (text ";") none true with
  | [] => some (false, t)
  | protos :: params => (params.foldlM parseParam (t.parseProtos protos)).map (true, ·)

def makeProtos (t : Transport) : Text :=
  (if t.isRtp then text "RTP/" else []) ++ (if t.isAvp then text "AVP/" else []) ++
    (if t.isUdp then text "UDP" else []) ++ if t.isTcp then text "TCP" else []

/-- `to_string`. -/
def toText (t : Transport) : Text :=
  t.makeProtos ++ (if t.unicast then text ";unicast" else []) ++
    (if t.destination ≠ [] then text ";destination=" ++ t.destination else []) ++
    (if t.source ≠ [] then text ";source=" ++ t.source else []) ++
    (if t.isUdp then
      (if 0 < t.rtpClientPort ∧ 0 < t.rtcpClientPort then
        text ";client_port=" ++ decimal t.rtpClientPort ++ text "-" ++ decimal t.rtcpClientPort
        else []) ++
      if 0 < t.rtpServerPort ∧ 0 < t.rtcpServerPort then
        text ";server_port=" ++ decimal t.rtpServerPort ++ text "-" ++ decimal t.rtcpServerPort
      else []
    else text ";interleaved=" ++ decimal t.rtpChannel ++ text "-" ++ decimal t.rtcpChannel) ++
    (if 0 < t.ssrc then text ";ssrc=" ++ decimal t.ssrc.toNat else []) ++
    if t.mode ≠ [] then text ";mode=" ++ t.mode else []

/-! ### Numbers -/

theorem head_toDigits {n : ℕ} (h : 0 < n) : (Nat.toDigits 10 n).head? ≠ some '0' := by
  induction n using Nat.strong_induction_on with
  | _ n ih =>
    by_cases hn : n < 10
    · have hall : ∀ m < 10, 0 < m → (Nat.toDigits 10 m).head? ≠ some '0' := by decide
      exact hall n hn h
    · rw [Nat.toDigits_of_base_le (by decide) (by omega), List.head?_append]
      have hrest := ih (n / 10) (by omega) (by omega)
      cases hhead : (Nat.toDigits 10 (n / 10)).head? with
      | none => exact absurd (List.head?_eq_none_iff.mp hhead) Nat.toDigits_ne_nil
      | some c =>
        rw [hhead] at hrest
        exact hrest

/-- No number but zero begins with a zero. -/
theorem decimal_cons {n : ℕ} (h : 0 < n) :
    ∃ c s, decimal n = c :: s ∧ isDigit 10 c = true ∧ c ≠ 0x30 := by
  obtain ⟨hne, hdigits⟩ := decimal_digits n
  obtain ⟨c, s, hs⟩ := List.exists_cons_of_ne_nil hne
  refine ⟨c, s, hs, hdigits c (hs ▸ List.mem_cons_self), fun hzero => ?_⟩
  rw [decimal_natCast] at hs
  obtain ⟨d, ds, hds, hd, -⟩ := List.map_eq_cons_iff.mp hs
  have hdigit : d.isDigit = true :=
    Nat.isDigit_of_mem_toDigits (by decide) (by decide) (hds ▸ List.mem_cons_self)
  have hval : d.toNat = 48 := by
    rw [← asciiByte_toNat hdigit, hd, hzero]
    rfl
  have hhead := head_toDigits h
  rw [hds, List.head?_cons] at hhead
  exact hhead (congrArg some (Char.ext (UInt32.toNat_inj.mp hval)))

/-- A text that begins with such a digit is neither octal nor hexadecimal. -/
theorem decimal_prefix (c : UInt8) : isDigit 10 c = true ∧ c ≠ 0x30 →
    isSpace c = false ∧ c ≠ 0x2D ∧ c ≠ 0x2B ∧ toLower c ≠ 0x30 := by
  revert c; exact Library.forall_uint8 (by decide +kernel)

theorem not_hex {c : UInt8} (h : toLower c ≠ 0x30) (s : Text) :
    icasecompare (c :: s.take 1) (text "0x") = false := by
  have htext : (text "0x").map toLower = [0x30, 0x78] := by decide
  rw [icasecompare, htext, beq_eq_false_iff_ne]
  intro heq
  exact h (List.cons.inj heq).1

theorem strtolAny_decimal {n : ℕ} (h : n < 2 ^ 63) : strtolAny (decimal n) = n := by
  rcases Nat.eq_zero_or_pos n with rfl | hpos
  · decide
  · obtain ⟨c, s, hs, hdigit, hzero⟩ := decimal_cons hpos
    obtain ⟨hspace, hminus, hplus, hlower⟩ := decimal_prefix c ⟨hdigit, hzero⟩
    have hten : strtolAny (decimal n) = strtol 10 (decimal n) := by
      rw [strtolAny, hs]
      simp [hspace, hminus, hplus, hzero, not_hex hlower]
    rw [hten, strtol_decimal (by omega) (by omega)]

theorem strtoul_decimal {n : ℕ} (hpos : 0 < n) (h : n < 2 ^ 64) : strtoul 0 (decimal n) = n := by
  obtain ⟨c, s, hs, hdigit, hzero⟩ := decimal_cons hpos
  obtain ⟨hspace, hminus, hplus, hlower⟩ := decimal_prefix c ⟨hdigit, hzero⟩
  have hfold := foldl_decimal n
  rw [hs] at hfold
  rw [strtoul, hs]
  simp [hspace, hminus, hplus, hzero, not_hex hlower, hfold]
  omega

theorem readSsrc (ssrc : UInt32) (h : 0 < ssrc) :
    UInt32.ofNat (strtoul 0 (decimal ssrc.toNat)) = ssrc := by
  have hpos : 0 < ssrc.toNat := h
  rw [strtoul_decimal hpos (Nat.lt_trans ssrc.toNat_lt (by decide)), UInt32.ofNat_toNat]

theorem notMem_decimal_natCast (n : ℕ) {c : UInt8} (hc : isDigit 10 c = false) :
    c ∉ decimal n := by
  intro hmem
  have hdigit := (decimal_digits n).2 c hmem
  rw [hc] at hdigit
  cases hdigit

/-- The sign of a number is lost between the dashes. -/
theorem split_decimal (n : ℤ) : split (decimal n) (text "-") none true = [decimal n.natAbs] := by
  have hnat (k : ℕ) : split (decimal k) (text "-") none true = [decimal k] :=
    split_of_notMem (notMem_decimal_natCast k (by decide)) (decimal_digits k).1
  cases n with
  | ofNat k => exact hnat k
  | negSucc k =>
    rw [decimal_negSucc]
    exact (split_cons_sep _ _).trans (hnat (k + 1))

theorem readPair_decimal {a b : ℤ} (ha : a.natAbs < 2 ^ 63) (hb : b.natAbs < 2 ^ 63) :
    readPair (decimal a ++ 0x2D :: decimal b) =
      some (toInt32 a.natAbs, toInt32 b.natAbs) := by
  have hsplit : split (decimal a ++ 0x2D :: decimal b) (text "-") none true =
      [decimal a.natAbs, decimal b.natAbs] := by
    rw [show text "-" = [0x2D] from rfl, split_sep, ← show text "-" = [0x2D] from rfl,
      split_decimal, split_decimal]
    rfl
  rw [readPair, hsplit]
  show some (toInt32 (strtolAny _), toInt32 (strtolAny _)) = _
  rw [strtolAny_decimal ha, strtolAny_decimal hb]

/-! ### What is written -/

/-- The parameters of `to_string`. -/
def params (t : Transport) : List Text :=
  (if t.unicast then [text "unicast"] else []) ++
    ((if t.destination ≠ [] then [text "destination" ++ 0x3D :: t.destination] else []) ++
    ((if t.source ≠ [] then [text "source" ++ 0x3D :: t.source] else []) ++
    ((if t.isUdp ∧ 0 < t.rtpClientPort ∧ 0 < t.rtcpClientPort then
        [text "client_port" ++
          0x3D :: (decimal t.rtpClientPort ++ 0x2D :: decimal t.rtcpClientPort)]
      else []) ++
    ((if t.isUdp ∧ 0 < t.rtpServerPort ∧ 0 < t.rtcpServerPort then
        [text "server_port" ++
          0x3D :: (decimal t.rtpServerPort ++ 0x2D :: decimal t.rtcpServerPort)]
      else []) ++
    ((if t.isUdp = false then
        [text "interleaved" ++ 0x3D :: (decimal t.rtpChannel ++ 0x2D :: decimal t.rtcpChannel)]
      else []) ++
    ((if 0 < t.ssrc then [text "ssrc" ++ 0x3D :: decimal t.ssrc.toNat] else []) ++
    if t.mode ≠ [] then [text "mode" ++ 0x3D :: t.mode] else []))))))

theorem flatMap_written (p : Prop) [Decidable p] (part : Text) :
    (if p then [part] else []).flatMap (0x3B :: ·) = if p then 0x3B :: part else [] := by
  split_ifs <;> simp

theorem toText_eq (t : Transport) :
    t.toText = t.makeProtos ++ t.params.flatMap (0x3B :: ·) := by
  have hunicast : text ";unicast" = 0x3B :: text "unicast" := by decide
  have hdestination : text ";destination=" = 0x3B :: (text "destination" ++ [0x3D]) := by decide
  have hsource : text ";source=" = 0x3B :: (text "source" ++ [0x3D]) := by decide
  have hclient : text ";client_port=" = 0x3B :: (text "client_port" ++ [0x3D]) := by decide
  have hserver : text ";server_port=" = 0x3B :: (text "server_port" ++ [0x3D]) := by decide
  have hinterleaved : text ";interleaved=" = 0x3B :: (text "interleaved" ++ [0x3D]) := by decide
  have hssrc : text ";ssrc=" = 0x3B :: (text "ssrc" ++ [0x3D]) := by decide
  have hmode : text ";mode=" = 0x3B :: (text "mode" ++ [0x3D]) := by decide
  have hdash : text "-" = [0x2D] := by decide
  simp only [params, List.flatMap_append, flatMap_written, toText, List.append_assoc, hunicast,
    hdestination, hsource, hclient, hserver, hinterleaved, hssrc, hmode, hdash]
  cases t.isUdp <;> simp

theorem mem_written {p : Prop} [Decidable p] {part a : Text} :
    a ∈ (if p then [part] else []) ↔ p ∧ a = part := by
  split_ifs with h <;> simp [h]

/-- No parameter of `to_string` is cut but one with a text that has a semicolon. -/
def Whole (t : Transport) : Prop :=
  0x3B ∉ t.destination ∧ 0x3B ∉ t.source ∧ 0x3B ∉ t.mode

theorem notMem_semicolon (n : ℤ) : 0x3B ∉ decimal n := by
  cases n with
  | ofNat k => exact notMem_decimal_natCast k (by decide)
  | negSucc k =>
    rw [decimal_negSucc, List.mem_cons, not_or]
    exact ⟨by decide, notMem_decimal_natCast (k + 1) (by decide)⟩

theorem param_whole {name value : Text} (hname : 0x3B ∉ name) (hvalue : 0x3B ∉ value) :
    name ++ 0x3D :: value ≠ [] ∧ 0x3B ∉ name ++ 0x3D :: value := by
  refine ⟨by simp, ?_⟩
  rw [List.mem_append, List.mem_cons, not_or, not_or]
  exact ⟨hname, by decide, hvalue⟩

theorem pair_whole (a b : ℤ) : 0x3B ∉ decimal a ++ 0x2D :: decimal b := by
  rw [List.mem_append, List.mem_cons, not_or, not_or]
  exact ⟨notMem_semicolon a, by decide, notMem_semicolon b⟩

theorem params_whole (h : t.Whole) : ∀ part ∈ t.params, id part ≠ [] ∧ 0x3B ∉ id part := by
  obtain ⟨hdestination, hsource, hmode⟩ := h
  intro part hpart
  simp only [params, List.mem_append, mem_written] at hpart
  rcases hpart with ⟨-, rfl⟩ | ⟨-, rfl⟩ | ⟨-, rfl⟩ | ⟨-, rfl⟩ | ⟨-, rfl⟩ | ⟨-, rfl⟩ | ⟨-, rfl⟩ |
    ⟨-, rfl⟩
  · decide
  · exact param_whole (by decide) hdestination
  · exact param_whole (by decide) hsource
  · exact param_whole (by decide) (pair_whole _ _)
  · exact param_whole (by decide) (pair_whole _ _)
  · exact param_whole (by decide) (pair_whole _ _)
  · exact param_whole (by decide) (notMem_semicolon _)
  · exact param_whole (by decide) hmode

theorem makeProtos_whole (h : t.isUdp = !t.isTcp) :
    t.makeProtos ≠ [] ∧ 0x3B ∉ t.makeProtos := by
  rw [makeProtos, h]
  cases t.isRtp <;> cases t.isAvp <;> cases t.isTcp <;> decide

theorem split_toText (h : t.isUdp = !t.isTcp) (hwhole : t.Whole) :
    split t.toText (text ";") none true = t.makeProtos :: t.params := by
  rw [toText_eq]
  exact (split_append_flatMap (makeProtos_whole h) (params_whole hwhole)).trans (by simp)

/-! ### What is read -/

theorem parseProtos_makeProtos (h : t.isUdp = !t.isTcp) (s : Transport) :
    s.parseProtos t.makeProtos =
      { s with isRtp := t.isRtp, isAvp := t.isAvp, isUdp := t.isUdp, isTcp := t.isTcp } := by
  rw [makeProtos, h]
  cases t.isRtp <;> cases t.isAvp <;> cases t.isTcp <;> rfl

theorem parseParam_value {name value : Text} (hname : name ≠ [] ∧ 0x3D ∉ name)
    (hvalue : value ≠ []) (s : Transport) :
    parseParam s (name ++ 0x3D :: value) = s.assign name (some value) := by
  rw [parseParam, show text "=" = [0x3D] from rfl, split_two hname.2 hname.1 hvalue]
  rfl

/-- One optional parameter after the other. -/
theorem foldlM_written {p : Prop} [Decidable p] {part : Text} {s r : Transport}
    (h : p → parseParam s part = some r) (hnot : ¬ p → r = s) (rest : List Text) :
    ((if p then [part] else []) ++ rest).foldlM parseParam s = rest.foldlM parseParam r := by
  rw [List.foldlM_append]
  split_ifs with hp
  · rw [List.foldlM_cons, h hp]
    rfl
  · rw [hnot hp]
    rfl

/-- The `int` members. -/
def InRange (t : Transport) : Prop :=
  ∀ n ∈ [t.rtpChannel, t.rtcpChannel, t.rtpClientPort, t.rtcpClientPort, t.rtpServerPort,
    t.rtcpServerPort], -2 ^ 31 ≤ n ∧ n < 2 ^ 31

instance (t : Transport) : Decidable t.InRange :=
  inferInstanceAs (Decidable (∀ n ∈ _, _))

/-- A pair of ports as `to_string` writes it: both or none. -/
def portPair (isUdp : Bool) (rtp rtcp : ℤ) : ℤ × ℤ :=
  if isUdp ∧ 0 < rtp ∧ 0 < rtcp then (rtp, rtcp) else (0, 0)

/-- The channels without their signs. -/
def channelPair (isUdp : Bool) (rtp rtcp : ℤ) : ℤ × ℤ :=
  if isUdp = false then (toInt32 rtp.natAbs, toInt32 rtcp.natAbs) else (0, 1)

/-- What a new object reads out of the text of `t`. -/
def heard (t : Transport) : Transport :=
  let client := portPair t.isUdp t.rtpClientPort t.rtcpClientPort
  let server := portPair t.isUdp t.rtpServerPort t.rtcpServerPort
  let channels := channelPair t.isUdp t.rtpChannel t.rtcpChannel
  { t with
    unicast := true
    rtpChannel := channels.1
    rtcpChannel := channels.2
    rtpClientPort := client.1
    rtcpClientPort := client.2
    rtpServerPort := server.1
    rtcpServerPort := server.2 }

theorem readPair_ports {rtp rtcp : ℤ} (h : 0 < rtp ∧ 0 < rtcp) (hrtp : rtp < 2 ^ 31)
    (hrtcp : rtcp < 2 ^ 31) :
    readPair (decimal rtp ++ 0x2D :: decimal rtcp) = some (rtp, rtcp) := by
  have hread (n : ℤ) (hlow : 0 < n) (hhigh : n < 2 ^ 31) : toInt32 n.natAbs = n := by
    rw [Int.natAbs_of_nonneg hlow.le, toInt32, Int.bmod_def]
    omega
  rw [readPair_decimal (by omega) (by omega), hread rtp h.1 hrtp, hread rtcp h.2 hrtcp]

theorem foldlM_client {s : Transport} (hs : s.rtpClientPort = 0 ∧ s.rtcpClientPort = 0)
    (isUdp : Bool) {rtp rtcp : ℤ} (hrtp : rtp < 2 ^ 31) (hrtcp : rtcp < 2 ^ 31) (rest : List Text) :
    ((if isUdp ∧ 0 < rtp ∧ 0 < rtcp then
        [text "client_port" ++ 0x3D :: (decimal rtp ++ 0x2D :: decimal rtcp)]
      else []) ++ rest).foldlM parseParam s =
      rest.foldlM parseParam { s with
        rtpClientPort := (portPair isUdp rtp rtcp).1
        rtcpClientPort := (portPair isUdp rtp rtcp).2 } := by
  refine foldlM_written (fun hp => ?_) (fun hp => ?_) rest
  · rw [parseParam_value (by decide) (by simp), portPair, if_pos hp]
    show some ((readPair _).elim s _) = _
    rw [readPair_ports hp.2 hrtp hrtcp]
    rfl
  · rw [portPair, if_neg hp, ← hs.1]
    exact congrArg (Transport.mk _ _ _ _ _ _ _ _ _ _ _ _ · _ _) (hs.1.trans hs.2.symm)

theorem foldlM_server {s : Transport} (hs : s.rtpServerPort = 0 ∧ s.rtcpServerPort = 0)
    (isUdp : Bool) {rtp rtcp : ℤ} (hrtp : rtp < 2 ^ 31) (hrtcp : rtcp < 2 ^ 31) (rest : List Text) :
    ((if isUdp ∧ 0 < rtp ∧ 0 < rtcp then
        [text "server_port" ++ 0x3D :: (decimal rtp ++ 0x2D :: decimal rtcp)]
      else []) ++ rest).foldlM parseParam s =
      rest.foldlM parseParam { s with
        rtpServerPort := (portPair isUdp rtp rtcp).1
        rtcpServerPort := (portPair isUdp rtp rtcp).2 } := by
  refine foldlM_written (fun hp => ?_) (fun hp => ?_) rest
  · rw [parseParam_value (by decide) (by simp), portPair, if_pos hp]
    show some ((readPair _).elim s _) = _
    rw [readPair_ports hp.2 hrtp hrtcp]
    rfl
  · rw [portPair, if_neg hp, ← hs.1]
    exact congrArg (Transport.mk _ _ _ _ _ _ _ _ _ _ _ _ _ _ ·) (hs.1.trans hs.2.symm)

theorem foldlM_channels {s : Transport} (hs : s.rtpChannel = 0 ∧ s.rtcpChannel = 1)
    (isUdp : Bool) {rtp rtcp : ℤ} (hrtp : rtp.natAbs < 2 ^ 63) (hrtcp : rtcp.natAbs < 2 ^ 63)
    (rest : List Text) :
    ((if isUdp = false then
        [text "interleaved" ++ 0x3D :: (decimal rtp ++ 0x2D :: decimal rtcp)]
      else []) ++ rest).foldlM parseParam s =
      rest.foldlM parseParam { s with
        rtpChannel := (channelPair isUdp rtp rtcp).1
        rtcpChannel := (channelPair isUdp rtp rtcp).2 } := by
  refine foldlM_written (fun hp => ?_) (fun hp => ?_) rest
  · rw [parseParam_value (by decide) (by simp), channelPair, if_pos hp]
    show some ((readPair _).elim s _) = _
    rw [readPair_decimal hrtp hrtcp]
    rfl
  · rw [channelPair, if_neg hp, ← hs.1, ← hs.2]

theorem InRange.natAbs_lt {n : ℤ} (h : -2 ^ 31 ≤ n ∧ n < 2 ^ 31) : n.natAbs < 2 ^ 63 := by omega

theorem foldlM_params (hproto : t.isUdp = !t.isTcp) (hrange : t.InRange) :
    t.params.foldlM parseParam (({} : Transport).parseProtos t.makeProtos) = some t.heard := by
  simp only [InRange, List.forall_mem_cons] at hrange
  obtain ⟨hc₁, hc₂, hp₁, hp₂, hp₃, hp₄, -⟩ := hrange
  rw [parseProtos_makeProtos hproto, params]
  refine (foldlM_written (fun _ => rfl) (fun _ => rfl) _).trans ?_
  refine (foldlM_written (fun hp => parseParam_value (by decide) hp _)
    (fun hp => by rw [not_not.mp hp]) _).trans ?_
  dsimp only
  refine (foldlM_written (fun hp => parseParam_value (by decide) hp _)
    (fun hp => by rw [not_not.mp hp]) _).trans ?_
  dsimp only
  rw [foldlM_client ⟨rfl, rfl⟩ _ hp₁.2 hp₂.2]
  dsimp only
  rw [foldlM_server ⟨rfl, rfl⟩ _ hp₃.2 hp₄.2]
  dsimp only
  rw [foldlM_channels ⟨rfl, rfl⟩ _ (InRange.natAbs_lt hc₁) (InRange.natAbs_lt hc₂)]
  dsimp only
  have hssrc (s : Transport) (hpos : 0 < t.ssrc) :
      parseParam s (text "ssrc" ++ 0x3D :: decimal t.ssrc.toNat) =
        some { s with ssrc := t.ssrc } := by
    rw [parseParam_value (by decide) (decimal_digits _).1]
    show some { s with ssrc := UInt32.ofNat (strtoul 0 (decimal t.ssrc.toNat)) } = _
    rw [readSsrc _ hpos]
  have hzero (hnot : ¬ 0 < t.ssrc) : t.ssrc = 0 := by
    rw [UInt32.lt_iff_toNat_lt] at hnot
    exact UInt32.toNat_inj.mp (Nat.le_zero.mp (Nat.not_lt.mp hnot))
  rw [foldlM_written (hssrc _) (fun hnot => by rw [hzero hnot])]
  dsimp only
  rw [← List.append_nil (if t.mode ≠ [] then _ else _)]
  refine (foldlM_written (fun hp => parseParam_value (by decide) hp _)
    (fun hp => by rw [not_not.mp hp]) _).trans ?_
  rfl

theorem parse_toText (hproto : t.isUdp = !t.isTcp) (hwhole : t.Whole) (hrange : t.InRange) :
    parse t.toText {} = some (true, t.heard) := by
  rw [parse, split_toText hproto hwhole]
  show (t.params.foldlM parseParam (({} : Transport).parseProtos t.makeProtos)).map _ = _
  rw [foldlM_params hproto hrange]
  rfl

/-! ### What a new object can come to -/

/-- What `parse` leaves a new object with. -/
structure Read (t : Transport) : Prop where
  proto : t.isUdp = !t.isTcp
  unicast : t.unicast = true
  whole : t.Whole

theorem Read.parseProto (h : t.Read) (proto : Text) : (t.parseProto proto).Read := by
  unfold Transport.parseProto
  split_ifs
  · exact ⟨h.proto, h.unicast, h.whole⟩
  · exact ⟨h.proto, h.unicast, h.whole⟩
  · exact ⟨rfl, h.unicast, h.whole⟩
  · exact h

theorem Read.parseProtos (h : t.Read) (protos : Text) : (t.parseProtos protos).Read := by
  have hstart : Read { t with isRtp := false, isAvp := false, isUdp := true, isTcp := false } :=
    ⟨rfl, h.unicast, h.whole⟩
  exact List.foldlRecOn (motive := Read) _ _ hstart fun _ hs proto _ => hs.parseProto proto

theorem Read.assign {name : Text} {value : Option Text} (h : t.Read)
    (hvalue : ∀ v ∈ value, 0x3B ∉ v) {s : Transport} (hs : t.assign name value = some s) :
    s.Read := by
  obtain ⟨hproto, hunicast, hdestination, hsource, hmode⟩ := h
  have hkept : t.Read := ⟨hproto, hunicast, hdestination, hsource, hmode⟩
  have hcase {c : Prop} [Decidable c] {a b : Option Transport} (ha : ∀ s ∈ a, s.Read)
      (hb : ∀ s ∈ b, s.Read) : ∀ s ∈ if c then a else b, s.Read := by
    split
    · exact ha
    · exact hb
  have hset {f : Text → Transport} (hf : ∀ v ∈ value, (f v).Read) : ∀ s ∈ value.map f, s.Read := by
    intro s hs
    obtain ⟨v, hv, rfl⟩ := Option.map_eq_some_iff.mp hs
    exact hf v hv
  have hpair {f : ℤ × ℤ → Transport} (hf : ∀ p, (f p).Read) (v : Text) :
      ((readPair v).elim t f).Read := by
    cases readPair v with
    | none => exact hkept
    | some p => exact hf p
  have hports : ∀ p : ℤ × ℤ,
      Read { t with rtpClientPort := p.1, rtcpClientPort := p.2 } ∧
        Read { t with rtpServerPort := p.1, rtcpServerPort := p.2 } ∧
        Read { t with rtpChannel := p.1, rtcpChannel := p.2 } := fun _ =>
    ⟨⟨hproto, hunicast, hdestination, hsource, hmode⟩,
      ⟨hproto, hunicast, hdestination, hsource, hmode⟩,
      ⟨hproto, hunicast, hdestination, hsource, hmode⟩⟩
  refine hcase ?unicast (hcase ?mode (hcase ?ssrc (hcase ?destination (hcase ?source (hcase ?client
    (hcase ?server (hcase ?interleaved ?other))))))) s hs
  case unicast =>
    exact fun s hs => Option.some.inj hs ▸ ⟨hproto, rfl, hdestination, hsource, hmode⟩
  case mode => exact hset fun v hv => ⟨hproto, hunicast, hdestination, hsource, hvalue v hv⟩
  case ssrc => exact hset fun _ _ => ⟨hproto, hunicast, hdestination, hsource, hmode⟩
  case destination => exact hset fun v hv => ⟨hproto, hunicast, hvalue v hv, hsource, hmode⟩
  case source => exact hset fun v hv => ⟨hproto, hunicast, hdestination, hvalue v hv, hmode⟩
  case client => exact hset fun v _ => hpair (fun p => (hports p).1) v
  case server => exact hset fun v _ => hpair (fun p => (hports p).2.1) v
  case interleaved => exact hset fun v _ => hpair (fun p => (hports p).2.2) v
  case other => exact fun s hs => Option.some.inj hs ▸ hkept

theorem Read.parseParam {param : Text} (h : t.Read) (hparam : 0x3B ∉ param) {s : Transport}
    (hs : parseParam t param = some s) : s.Read := by
  unfold Transport.parseParam at hs
  split at hs
  case h_1 => cases hs
  case h_2 name values hsplit =>
    refine h.assign (fun v hv => ?_) hs
    have hmem : v ∈ split param (text "=") (some 2) true := by
      rw [hsplit]
      exact List.mem_cons_of_mem _ (List.mem_of_mem_head? hv)
    exact fun hsemicolon => hparam ((part_of_mem_split hmem).1.subset hsemicolon)

theorem Read.foldlM {params : List Text} (hparams : ∀ param ∈ params, 0x3B ∉ param) (h : t.Read)
    {s : Transport} (hs : params.foldlM Transport.parseParam t = some s) :
    s.Read := by
  induction params generalizing t with
  | nil => exact Option.some.inj hs ▸ h
  | cons param params ih =>
    obtain ⟨hparam, hparams⟩ := List.forall_mem_cons.mp hparams
    rw [List.foldlM_cons] at hs
    obtain ⟨t₁, hfirst, hrest⟩ := Option.bind_eq_some_iff.mp hs
    exact ih hparams (h.parseParam hparam hfirst) hrest

theorem Read.of_parse {s : Text} {ok : Bool} (h : parse s {} = some (ok, t)) : t.Read := by
  have hnew : Read {} := ⟨rfl, rfl, List.not_mem_nil, List.not_mem_nil, List.not_mem_nil⟩
  unfold parse at h
  split at h
  case h_1 => exact (Prod.mk.inj (Option.some.inj h)).2 ▸ hnew
  case h_2 protos params hsplit =>
    obtain ⟨t₁, hfold, heq⟩ := Option.map_eq_some_iff.mp h
    rw [← (Prod.mk.inj heq).2]
    refine (hnew.parseProtos protos).foldlM (fun param hparam => ?_) hfold
    have hmem : param ∈ split s (text ";") none true := by
      rw [hsplit]
      exact List.mem_cons_of_mem _ hparam
    exact (notMem_of_mem_split hmem).1

/-! ### The round trip -/

/-- A pair of ports that is written, or one that is not there. -/
def Ports (isUdp : Bool) (rtp rtcp : ℤ) : Prop :=
  isUdp ∧ 0 < rtp ∧ 0 < rtcp ∨ rtp = 0 ∧ rtcp = 0

/-- A channel that keeps its value without its sign: the least `int` is its own negative. -/
def Unsigned (n : ℤ) : Prop :=
  0 ≤ n ∨ n = -2 ^ 31

/-- The channels of an interleaved transport; any other has the first two. -/
def Channels (isUdp : Bool) (rtp rtcp : ℤ) : Prop :=
  isUdp ∧ rtp = 0 ∧ rtcp = 1 ∨ isUdp = false ∧ Unsigned rtp ∧ Unsigned rtcp

/-- The transports that a Transport header can say. -/
structure Expressible (t : Transport) : Prop extends Read t where
  channels : Channels t.isUdp t.rtpChannel t.rtcpChannel
  clientPorts : Ports t.isUdp t.rtpClientPort t.rtcpClientPort
  serverPorts : Ports t.isUdp t.rtpServerPort t.rtcpServerPort

theorem portPair_eq_iff {isUdp : Bool} {rtp rtcp : ℤ} :
    portPair isUdp rtp rtcp = (rtp, rtcp) ↔ Ports isUdp rtp rtcp := by
  rw [portPair, Ports]
  split_ifs with h
  · exact ⟨fun _ => .inl h, fun _ => rfl⟩
  · rw [Prod.mk.injEq]
    constructor
    · rintro ⟨hrtp, hrtcp⟩
      exact .inr ⟨hrtp.symm, hrtcp.symm⟩
    · rintro (hports | ⟨rfl, rfl⟩)
      · exact absurd hports h
      · exact ⟨rfl, rfl⟩

theorem unsigned_iff {n : ℤ} (h : -2 ^ 31 ≤ n ∧ n < 2 ^ 31) :
    toInt32 n.natAbs = n ↔ Unsigned n := by
  rw [Unsigned, toInt32, Int.bmod_def]
  omega

theorem channelPair_eq_iff {isUdp : Bool} {rtp rtcp : ℤ} (hrtp : -2 ^ 31 ≤ rtp ∧ rtp < 2 ^ 31)
    (hrtcp : -2 ^ 31 ≤ rtcp ∧ rtcp < 2 ^ 31) :
    channelPair isUdp rtp rtcp = (rtp, rtcp) ↔ Channels isUdp rtp rtcp := by
  rw [channelPair, Channels]
  cases isUdp with
  | false =>
    rw [if_pos rfl, Prod.mk.injEq, unsigned_iff hrtp, unsigned_iff hrtcp]
    simp
  | true =>
    rw [if_neg (by decide), Prod.mk.injEq]
    simp [eq_comm]

theorem heard_eq_iff : t.heard = t ↔ t.unicast = true ∧
    channelPair t.isUdp t.rtpChannel t.rtcpChannel = (t.rtpChannel, t.rtcpChannel) ∧
    portPair t.isUdp t.rtpClientPort t.rtcpClientPort = (t.rtpClientPort, t.rtcpClientPort) ∧
    portPair t.isUdp t.rtpServerPort t.rtcpServerPort = (t.rtpServerPort, t.rtcpServerPort) := by
  obtain ⟨isRtp, isAvp, isUdp, isTcp, unicast, rtpc, rtcpc, ssrc, mode, destination, source, p₁, p₂,
    p₃, p₄⟩ := t
  simp only [heard, Transport.mk.injEq, true_and, Prod.ext_iff]
  tauto

/-- A transport is read back from its text just when a header can say it. -/
theorem transport_round_trip_iff (h : t.InRange) :
    parse t.toText {} = some (true, t) ↔ t.Expressible := by
  have hrange := h
  simp only [InRange, List.forall_mem_cons] at hrange
  obtain ⟨hc₁, hc₂, -⟩ := hrange
  constructor
  · intro hparse
    have hread := Read.of_parse hparse
    rw [parse_toText hread.proto hread.whole h] at hparse
    have hheard := (Prod.mk.inj (Option.some.inj hparse)).2
    obtain ⟨-, hchannels, hclient, hserver⟩ := heard_eq_iff.mp hheard
    exact ⟨hread, (channelPair_eq_iff hc₁ hc₂).mp hchannels, portPair_eq_iff.mp hclient,
      portPair_eq_iff.mp hserver⟩
  · rintro ⟨hread, hchannels, hclient, hserver⟩
    rw [parse_toText hread.proto hread.whole h, heard_eq_iff.mpr ⟨hread.unicast,
      (channelPair_eq_iff hc₁ hc₂).mpr hchannels, portPair_eq_iff.mpr hclient,
      portPair_eq_iff.mpr hserver⟩]

/-- What a client asks for that plays over UDP from two ports, with a destination that has `=`. -/
private def played : Transport :=
  { rtpClientPort := 5000, rtcpClientPort := 5001, ssrc := 7, mode := text "play"
    destination := text "a=b" }

theorem transport_round_trip_iff_played : parse played.toText {} = some (true, played) := by
  have hrange : played.InRange := by decide
  exact (transport_round_trip_iff hrange).mpr ⟨⟨rfl, rfl, by decide, by decide, by decide⟩,
    .inl ⟨rfl, rfl, rfl⟩, .inl ⟨rfl, by decide, by decide⟩, .inr ⟨rfl, rfl⟩⟩

end Transport

end CxxDeps.Rtsp
