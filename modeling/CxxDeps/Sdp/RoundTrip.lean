import Mathlib.Data.List.Forall2
import CxxDeps.Sdp.Text
import CxxDeps.Sys.Split

/-! A description written and read back. Reading sets the group flag in any case, and
keeps the line of the group as an attribute beside the flag, so that it is written twice;
no description makes the round trip. -/

namespace CxxDeps.Sdp

open Sys

/-! ### The round trip -/

/-- What the text of a format says. -/
def Format.written (fmt : Format) : UInt8 × Text × ℤ × ℤ × Std.ExtTreeSet Text compare × Fmtp :=
  (fmt.pt, fmt.getCodec, fmt.frequency, fmt.channels, fmt.rtcpFb, fmt.fmtp)

/-- What is to be restored of a section. -/
structure MediaRestored (x y : Media) : Prop where
  mediaType : y.mediaType = x.mediaType
  protos : y.protos = x.protos
  appDataType : y.appDataType = x.appDataType
  rtpAddress : y.hasRtpAddress = x.hasRtpAddress ∧ y.rtpNetworkType = x.rtpNetworkType ∧
    y.rtpAddressType = x.rtpAddressType ∧ y.rtpAddress = x.rtpAddress
  rtpPort : y.rtpPort = x.rtpPort
  rtcpAddress : y.hasRtcp = x.hasRtcp ∧ y.rtcpNetworkType = x.rtcpNetworkType ∧
    y.rtcpAddressType = x.rtcpAddressType ∧ y.rtcpAddress = x.rtcpAddress
  rtcpPort : y.rtcpPort = x.rtcpPort
  rtcpMux : y.rtcpMux = x.rtcpMux
  rtcpRsize : y.rtcpRsize = x.rtcpRsize
  ice : y.iceUfrag = x.iceUfrag ∧ y.icePwd = x.icePwd ∧ y.iceOptions = x.iceOptions
  mid : y.mid = x.mid
  msid : y.msidSid = x.msidSid ∧ y.msidTid = x.msidTid
  transMode : y.transMode = x.transMode
  formats : ∀ pt : UInt8, y.rtpmap[pt]?.map Format.written = x.rtpmap[pt]?.map Format.written
  ssrcs : y.ssrcs = x.ssrcs
  candidates : y.candidates = x.candidates

/-- What is to be restored of a description. -/
structure Restored (x y : Sdp) : Prop where
  v : y.v = x.v
  o : y.o = x.o
  s : y.s = x.s
  t : y.t = x.t
  hasAddress : y.hasAddress = x.hasAddress
  address : x.hasAddress = true → y.networkType = x.networkType ∧
    y.addressType = x.addressType ∧ y.address = x.address
  bundle : y.bundle = x.bundle
  medias : List.Forall₂ MediaRestored x.medias y.medias

/-- A description is restored from its text, and so is the text. -/
def RoundTrips (x : Sdp) : Prop :=
  ∃ y, parse {} (toText x) = some y ∧ Restored x y ∧ toText y = toText x

/-- The fields that no description of this kind sets. -/
structure Plain (x : Sdp) : Prop where
  i : x.i = []
  u : x.u = []
  e : x.e = []
  p : x.p = []
  b : x.b = []
  z : x.z = []
  k : x.k = []
  r : x.r = []

/-- A description of the fields that are to be restored, on one line each. -/
structure Modelled (x : Sdp) : Prop extends Plain x where
  attrs : x.attrs = []
  candidates : x.candidates = []
  lines : ∀ s ∈ [x.v, x.o, x.s, x.t, x.networkType, x.addressType, x.address], 0x0A ∉ s
  mids : ∀ m ∈ x.medias, 0x0A ∉ m.mid

/-! ### One line -/

/-- What a line can do, whatever its key is. -/
theorem parseField_cases {P : Sdp → Prop} {x : Sdp} {val : Text} (hv : P { x with v := val })
    (ho : P { x with o := val }) (hs : P { x with s := val }) (ht : P { x with t := val })
    (hm : P { x with medias := x.medias ++ [({} : Media).parseHeader val] })
    (ha : ∀ y ∈ inLast x (fun m => m.parseA (Pair.parse val)) (parseAttr x (Pair.parse val)), P y)
    (hb : ∀ y ∈ inLast x (fun m => some { m with b := m.b ++ [val] })
      { x with b := x.b ++ [val] }, P y)
    (hc : ∀ y ∈ inLast x (fun m => some (m.parseC val)) (parseConnection x val), P y)
    (hy : ∀ y ∈ inLast x (fun m => some { m with y := UInt32.ofNat (strtoul 0 val) }) x, P y)
    (hx : P x) (key : Text) : ∀ y ∈ parseField x key val, P y := by
  have hite {c : Prop} [Decidable c] {o o' : Option Sdp} (h₁ : ∀ y ∈ o, P y)
      (h₂ : ∀ y ∈ o', P y) : ∀ y ∈ if c then o else o', P y := by
    split
    · exact h₁
    · exact h₂
  have hsome {y : Sdp} (h : P y) : ∀ z ∈ some y, P z := fun z hz => Option.some.inj hz ▸ h
  exact hite (hsome hv) (hite (hsome ho) (hite (hsome hs) (hite (hsome ht) (hite (hsome hm)
    (hite ha (hite hb (hite hc (hite hy (hsome hx)))))))))

theorem parseAttr_bundle {x : Sdp} (h : x.bundle = true) (attr : Pair) :
    (parseAttr x attr).bundle = true := by
  unfold parseAttr
  dsimp only
  split_ifs
  · split
    · split_ifs
      · rfl
      · exact h
    · exact h
  · split <;> exact h
  · exact h

theorem parseConnection_bundle {x : Sdp} (h : x.bundle = true) (s : Text) :
    (parseConnection x s).bundle = true := by
  unfold parseConnection
  split <;> exact h

theorem inLast_bundle {x session : Sdp} (h : x.bundle = true) (hs : session.bundle = true)
    (f : Media → Option Media) : ∀ y ∈ inLast x f session, y.bundle = true := by
  intro y hy
  unfold inLast at hy
  split at hy
  · obtain ⟨m, -, rfl⟩ := Option.map_eq_some_iff.mp hy
    exact h
  · exact Option.some.inj hy ▸ hs

theorem parseLine_bundle {x : Sdp} (h : x.bundle = true) (s : Text) :
    ∀ y ∈ parseLine x s, y.bundle = true := by
  unfold parseLine
  split
  · apply parseField_cases (P := fun y => y.bundle = true)
    · exact h
    · exact h
    · exact h
    · exact h
    · exact h
    · exact inLast_bundle h (parseAttr_bundle h _) _
    · apply inLast_bundle h
      exact h
    · exact inLast_bundle h (parseConnection_bundle h _) _
    · exact inLast_bundle h h _
    · exact h
  · exact fun y hy => Option.some.inj hy ▸ h

/-- What every line keeps, all lines keep. -/
theorem foldlM_parseLine {P : Sdp → Prop} (hline : ∀ x s, P x → ∀ y ∈ parseLine x s, P y)
    {lines : List Text} {x y : Sdp} (hx : P x) (hy : lines.foldlM parseLine x = some y) : P y := by
  induction lines generalizing x with
  | nil => exact Option.some.inj hy ▸ hx
  | cons l lines ih =>
    rw [List.foldlM_cons] at hy
    obtain ⟨x', hx', hy⟩ := Option.bind_eq_some_iff.mp hy
    exact ih (hline x l hx x' hx') hy

/-- Whatever is read, the group flag is set. -/
theorem parse_bundle {s : Text} {y : Sdp} (hy : parse {} s = some y) : y.bundle = true := by
  obtain ⟨x, hx, rfl⟩ := Option.map_eq_some_iff.mp hy
  have hbundle : x.bundle = true := foldlM_parseLine (P := fun x => x.bundle = true)
    (fun _ s h => parseLine_bundle h s) rfl hx
  exact hbundle

theorem parseLine_eq (x : Sdp) {k : UInt8} (hk : k ≠ 0x3D) {w : Text} (hw : w ≠ []) :
    parseLine x (k :: 0x3D :: w) = parseField x [k] (trim w) := by
  have hsplit : split (k :: 0x3D :: w) (text "=") (some 2) true = [[k], w] :=
    split_two (a := [k]) (by simpa using hk.symm) (by simp) hw
  rw [parseLine, hsplit]

/-- The session before its group is read. -/
structure Head (x : Sdp) : Prop extends Plain x where
  medias : x.medias = []

/-- The session behind its group. -/
structure Grouped (x : Sdp) : Prop extends Plain x where
  attrs : x.attrs ≠ []

/-- The keys of the lines that stand before the group. -/
def headKeys : List UInt8 := [0x76, 0x6F, 0x73, 0x74, 0x63]

theorem Head.inLast {x : Sdp} (h : Head x) (f : Media → Option Media) (session : Sdp) :
    inLast x f session = some session := by
  unfold Sdp.inLast
  rw [h.medias]
  rfl

theorem Head.parseField {x : Sdp} (h : Head x) {k : UInt8} (hk : k ∈ headKeys) (val : Text) :
    ∃ x', Sdp.parseField x [k] val = some x' ∧ Head x' := by
  simp only [headKeys, List.mem_cons, List.not_mem_nil, or_false] at hk
  rcases hk with rfl | rfl | rfl | rfl | rfl
  · exact ⟨_, rfl, { h with }⟩
  · exact ⟨_, rfl, { h with }⟩
  · exact ⟨_, rfl, { h with }⟩
  · exact ⟨_, rfl, { h with }⟩
  · refine ⟨parseConnection x val, h.inLast _ _, ?_⟩
    unfold parseConnection
    split
    · exact { h with }
    · exact h

theorem parseAttr_spec (x : Sdp) (attr : Pair) :
    (parseAttr x attr).attrs = x.attrs ++ [attr] ∧ (Plain x → Plain (parseAttr x attr)) := by
  unfold parseAttr
  dsimp only
  split_ifs
  · split
    · split_ifs
      · exact ⟨rfl, fun h => { h with }⟩
      · exact ⟨rfl, fun h => { h with }⟩
    · exact ⟨rfl, fun h => { h with }⟩
  · split
    · exact ⟨rfl, fun h => { h with }⟩
    · exact ⟨rfl, fun h => { h with }⟩
  · exact ⟨rfl, fun h => { h with }⟩

/-- The line of the group is kept. -/
theorem Head.grouped {x : Sdp} (h : Head x) (val : Text) :
    ∃ x', Sdp.parseField x [0x61] val = some x' ∧ Grouped x' := by
  obtain ⟨hattrs, hplain⟩ := parseAttr_spec x (Pair.parse val)
  refine ⟨parseAttr x (Pair.parse val), h.inLast _ _, ?_⟩
  exact { hplain h.toPlain with attrs := by simp [hattrs] }

theorem Grouped.inLast {x : Sdp} (h : Grouped x) (hm : x.medias ≠ []) (f : Media → Option Media)
    (session : Sdp) : ∀ y ∈ inLast x f session, Grouped y ∧ y.medias ≠ [] := by
  intro y hy
  unfold Sdp.inLast at hy
  rw [List.getLast?_eq_some_getLast hm] at hy
  obtain ⟨m, -, rfl⟩ := Option.map_eq_some_iff.mp hy
  exact ⟨{ h with }, by simp⟩

/-- Behind the first section no line changes what is kept of the session. -/
theorem Grouped.parseLine {x : Sdp} (h : Grouped x) (hm : x.medias ≠ []) (s : Text) :
    ∀ y ∈ parseLine x s, Grouped y ∧ y.medias ≠ [] := by
  unfold Sdp.parseLine
  split
  · apply parseField_cases (P := fun y => Grouped y ∧ y.medias ≠ [])
    · exact ⟨{ h with }, hm⟩
    · exact ⟨{ h with }, hm⟩
    · exact ⟨{ h with }, hm⟩
    · exact ⟨{ h with }, hm⟩
    · exact ⟨{ h with }, by simp⟩
    · exact h.inLast hm _ _
    · exact h.inLast hm _ _
    · exact h.inLast hm _ _
    · exact h.inLast hm _ _
    · exact ⟨h, hm⟩
  · exact fun y hy => Option.some.inj hy ▸ ⟨h, hm⟩

/-! ### The lines of a text -/

/-- The loop of `parse` over the lines of a text. -/
def readLines (x : Sdp) (s : Text) : Option Sdp :=
  (split s (text "\n") none true).foldlM parseLine x

theorem readLines_line (x : Sdp) {k : UInt8} (hk : k ≠ 0x3D) (hk' : k ≠ 0x0A) {w : Text}
    (hw : 0x0A ∉ w) (rest : Text) :
    readLines x (line (k :: 0x3D :: w) ++ rest) =
      (parseField x [k] (trim (w ++ [0x0D]))).bind (readLines · rest) := by
  have hmem : 0x0A ∉ k :: 0x3D :: (w ++ [0x0D]) := by
    simp [hk'.symm, hw]
  have hsplit := split_append hmem (by simp) rest
  have htext : line (k :: 0x3D :: w) ++ rest = (k :: 0x3D :: (w ++ [0x0D])) ++ 0x0A :: rest := by
    simp [line]
  show (split _ [0x0A] none true).foldlM parseLine x = _
  rw [htext, hsplit, List.foldlM_cons, parseLine_eq x hk (by simp)]
  rfl

/-- A line in front of the group. -/
theorem Head.readLines {x : Sdp} (h : Head x) {k : UInt8} (hk : k ∈ headKeys) {w : Text}
    (hw : 0x0A ∉ w) (rest : Text) :
    ∃ x', Head x' ∧ Sdp.readLines x (line (k :: 0x3D :: w) ++ rest) = Sdp.readLines x' rest := by
  have hne : k ≠ 0x3D ∧ k ≠ 0x0A := by
    simp only [headKeys, List.mem_cons, List.not_mem_nil, or_false] at hk
    rcases hk with rfl | rfl | rfl | rfl | rfl <;> exact ⟨by decide, by decide⟩
  obtain ⟨x', hfield, hx'⟩ := h.parseField hk (trim (w ++ [0x0D]))
  exact ⟨x', hx', by rw [readLines_line x hne.1 hne.2 hw, hfield, Option.bind_some]⟩

/-- The text of a section starts with its key and its type. -/
theorem toText_media (m : Media) :
    ∃ rest, m.toText = 0x6D :: 0x3D :: (m.mediaType.toText ++ rest) := by
  have hkey : text "m=" = [0x6D, 0x3D] := rfl
  unfold Media.toText Media.headerText line
  simp only [List.append_assoc, hkey, List.cons_append, List.nil_append]
  exact ⟨_, rfl⟩

theorem mediaType_toText (t : MediaType) : t.toText ≠ [] ∧ (0x0A : UInt8) ∉ t.toText := by
  cases t <;> decide

/-- The lines of the sections keep what the session has. -/
theorem Grouped.readLines {x : Sdp} (h : Grouped x) (medias : List Media) :
    ∀ y ∈ readLines x (medias.flatMap Media.toText), Grouped y := by
  cases medias with
  | nil => exact fun y hy => Option.some.inj hy ▸ h
  | cons m medias =>
    obtain ⟨rest, htext⟩ := toText_media m
    obtain ⟨hne, hmem⟩ := mediaType_toText m.mediaType
    obtain ⟨a, parts, hsplit⟩ := split_head (c := 0x0A) (p := 0x6D :: 0x3D :: m.mediaType.toText)
      (by simpa using hmem) (by simp) (rest ++ medias.flatMap Media.toText)
    have hlines : split ((m :: medias).flatMap Media.toText) (text "\n") none true =
        (0x6D :: 0x3D :: (m.mediaType.toText ++ a)) :: parts := by
      rw [List.flatMap_cons, htext]
      show split _ [0x0A] none true = _
      simpa using hsplit
    intro y hy
    rw [Sdp.readLines, hlines, List.foldlM_cons, parseLine_eq x (by decide) (by simp [hne])] at hy
    obtain ⟨x', hfield, hy⟩ := Option.bind_eq_some_iff.mp hy
    have hsection : x' = { x with
        medias := x.medias ++ [({} : Media).parseHeader (trim (m.mediaType.toText ++ a))] } :=
      (Option.some.inj hfield).symm
    have hstart : Grouped x' ∧ x'.medias ≠ [] := by
      rw [hsection]
      exact ⟨{ h with }, by simp⟩
    exact (foldlM_parseLine (P := fun x => Grouped x ∧ x.medias ≠ [])
      (fun _ s hx => hx.1.parseLine hx.2 s) hstart hy).1

theorem Modelled.headText_eq {x : Sdp} (h : Modelled x) :
    headText x = line (0x76 :: 0x3D :: x.v) ++ line (0x6F :: 0x3D :: x.o) ++
      line (0x73 :: 0x3D :: x.s) ++
      (if x.hasAddress then line (text "c=" ++ x.networkType ++ text " " ++
        x.addressType ++ text " " ++ x.address) else []) ++ optional "t=" x.t := by
  have hempty (key : String) : optional key [] = [] := if_pos rfl
  rw [headText, h.i, h.u, h.e, h.p, h.b, h.z, h.k, h.r]
  simp only [hempty, List.flatMap_nil, List.append_nil]
  rfl

/-- Behind the lines before the group the session is as it was. -/
theorem Modelled.head {x : Sdp} (h : Modelled x) (rest : Text) :
    ∃ x', Head x' ∧ readLines {} (headText x ++ rest) = readLines x' rest := by
  have hv : 0x0A ∉ x.v := h.lines _ (by simp)
  have ho : 0x0A ∉ x.o := h.lines _ (by simp)
  have hs : 0x0A ∉ x.s := h.lines _ (by simp)
  have ht : 0x0A ∉ x.t := h.lines _ (by simp)
  have hc : 0x0A ∉ x.networkType ++ text " " ++ x.addressType ++ text " " ++ x.address := by
    have h₁ : 0x0A ∉ x.networkType := h.lines _ (by simp)
    have h₂ : 0x0A ∉ x.addressType := h.lines _ (by simp)
    have h₃ : 0x0A ∉ x.address := h.lines _ (by simp)
    have hspace : 0x0A ∉ text " " := by decide
    simp only [List.mem_append, h₁, h₂, h₃, hspace, or_self, not_false_iff]
  have hconnection (x₁ : Sdp) (h₁ : Head x₁) (rest : Text) : ∃ x', Head x' ∧
      readLines x₁ ((if x.hasAddress then line (text "c=" ++ x.networkType ++ text " " ++
        x.addressType ++ text " " ++ x.address) else []) ++ rest) = readLines x' rest := by
    split
    · have hkey : text "c=" = [0x63, 0x3D] := rfl
      simpa [hkey] using h₁.readLines (k := 0x63) (by decide) hc rest
    · exact ⟨x₁, h₁, rfl⟩
  have htime (x₁ : Sdp) (h₁ : Head x₁) (rest : Text) : ∃ x', Head x' ∧
      readLines x₁ (optional "t=" x.t ++ rest) = readLines x' rest := by
    unfold optional
    split
    · exact ⟨x₁, h₁, rfl⟩
    · exact h₁.readLines (k := 0x74) (by decide) ht rest
  have hfresh : Head ({} : Sdp) := ⟨⟨rfl, rfl, rfl, rfl, rfl, rfl, rfl, rfl⟩, rfl⟩
  obtain ⟨x₁, h₁, hv⟩ := hfresh.readLines (k := 0x76) (by decide) hv _
  obtain ⟨x₂, h₂, ho⟩ := h₁.readLines (k := 0x6F) (by decide) ho _
  obtain ⟨x₃, h₃, hs⟩ := h₂.readLines (k := 0x73) (by decide) hs _
  obtain ⟨x₄, h₄, hc⟩ := hconnection x₃ h₃ _
  obtain ⟨x₅, h₅, ht⟩ := htime x₄ h₄ rest
  refine ⟨x₅, h₅, ?_⟩
  rw [h.headText_eq, List.append_assoc, List.append_assoc, List.append_assoc, List.append_assoc]
  exact hv.trans (ho.trans (hs.trans (hc.trans ht)))

theorem Grouped.withMedias {x : Sdp} (h : Grouped x) (medias : List Media) :
    Grouped { x with medias } := { h with }

/-- What is read back has the group twice. -/
theorem Modelled.grouped {x y : Sdp} (h : Modelled x) (hb : x.bundle = true)
    (hy : parse {} (toText x) = some y) : Grouped y := by
  have hmids : 0x0A ∉ text "group:BUNDLE" ++ x.medias.flatMap fun m => text " " ++ m.mid := by
    have hname : 0x0A ∉ text "group:BUNDLE" := by decide
    have hspace : 0x0A ∉ text " " := by decide
    simp only [List.mem_append, List.mem_flatMap, hname, hspace, false_or, not_exists, not_and]
    exact h.mids
  have htext : toText x =
      headText x ++ (line (0x61 :: 0x3D :: (text "group:BUNDLE" ++
        x.medias.flatMap fun m => text " " ++ m.mid)) ++ x.medias.flatMap Media.toText) := by
    have hkey : text "a=group:BUNDLE" = 0x61 :: 0x3D :: text "group:BUNDLE" := by decide
    rw [toText, groupText, h.attrs, h.candidates, hb, if_pos rfl, hkey]
    simp [candidatesText]
  obtain ⟨x₁, h₁, hhead⟩ := h.head (line (0x61 :: 0x3D :: (text "group:BUNDLE" ++
    x.medias.flatMap fun m => text " " ++ m.mid)) ++ x.medias.flatMap Media.toText)
  have hgroup := readLines_line x₁ (k := 0x61) (by decide) (by decide) hmids
    (x.medias.flatMap Media.toText)
  obtain ⟨x₂, hfield, h₂⟩ := h₁.grouped (trim (text "group:BUNDLE" ++
    (x.medias.flatMap fun m => text " " ++ m.mid) ++ [0x0D]))
  rw [hfield, Option.bind_some] at hgroup
  obtain ⟨x₃, hread, rfl⟩ := Option.map_eq_some_iff.mp hy
  refine Grouped.withMedias (h₂.readLines x.medias x₃ ?_) _
  rw [← hgroup, ← hhead, ← htext]
  exact hread

theorem Restored.groupText {x y : Sdp} (h : Restored x y) : groupText y = groupText x := by
  have hmids : (y.medias.flatMap fun m => text " " ++ m.mid) =
      x.medias.flatMap fun m => text " " ++ m.mid := by
    have hall := h.medias
    generalize x.medias = xs, y.medias = ys at hall
    induction hall with
    | nil => rfl
    | cons hm _ ih => rw [List.flatMap_cons, List.flatMap_cons, hm.mid, ih]
  rw [Sdp.groupText, Sdp.groupText, hmids]

theorem Restored.headText {x y : Sdp} (h : Restored x y) (hx : Plain x) (hy : Plain y) :
    headText y = headText x := by
  have hc : (if y.hasAddress then line (text "c=" ++ y.networkType ++ text " " ++ y.addressType ++
        text " " ++ y.address) else []) =
      if x.hasAddress then line (text "c=" ++ x.networkType ++ text " " ++ x.addressType ++
        text " " ++ x.address) else [] := by
    rw [h.hasAddress]
    split
    · next ha =>
      obtain ⟨h₁, h₂, h₃⟩ := h.address ha
      rw [h₁, h₂, h₃]
    · rfl
  rw [Sdp.headText, Sdp.headText, hc, h.v, h.o, h.s, h.t, hy.i, hy.u, hy.e, hy.p, hy.b, hy.z, hy.k,
    hy.r, hx.i, hx.u, hx.e, hx.p, hx.b, hx.z, hx.k, hx.r]

/-- No description makes the round trip. -/
theorem sdp_never_round_trips (x : Sdp) (h : Modelled x) : ¬ RoundTrips x := by
  rintro ⟨y, hparse, hrestored, htext⟩
  have hb : x.bundle = true := hrestored.bundle ▸ parse_bundle hparse
  have hy := h.grouped hb hparse
  obtain ⟨attr, attrs, hattrs⟩ := List.exists_cons_of_ne_nil hy.attrs
  have hyb : y.bundle = true := hrestored.bundle.trans hb
  rw [toText, toText, hrestored.headText h.toPlain hy.toPlain, hrestored.groupText, hb, hyb,
    if_pos rfl, h.attrs, h.candidates, hattrs] at htext
  simp only [List.append_assoc, List.append_cancel_left_eq] at htext
  -- one side goes on with the attribute, the other with a section or not at all
  cases hm : x.medias with
  | nil => simp [hm, line, candidatesText] at htext
  | cons m medias =>
    obtain ⟨rest, hrest⟩ := toText_media m
    rw [hm, List.flatMap_cons, List.flatMap_cons, hrest] at htext
    have hfirst := congrArg List.head? htext
    have hkey : text "a=" = [0x61, 0x3D] := rfl
    simp [line, candidatesText, hkey] at hfirst

/-- One audio section with one format. -/
private def onePcma : Sdp :=
  { medias :=
      [{ mediaType := .audio
         mid := text "0"
         hasRtpAddress := true
         hasRtcp := true
         rtpmap := .ofList [(8, { pt := 8, codec := .pcma, frequency := 8000 })] compare }] }

private theorem onePcma_modelled : Modelled onePcma where
  i := rfl
  u := rfl
  e := rfl
  p := rfl
  b := rfl
  z := rfl
  k := rfl
  r := rfl
  attrs := rfl
  candidates := rfl
  lines := by decide
  mids := by simp only [onePcma, List.forall_mem_singleton]; decide

theorem sdp_never_round_trips_pcma : ¬ RoundTrips onePcma :=
  sdp_never_round_trips onePcma onePcma_modelled

/-- The text of this description has another line once it is read and written again. -/
theorem pcma_text_changed : ¬ ∀ x : Sdp, Modelled x → RoundTrips x := by
  intro h
  obtain ⟨y, hparse, -, htext⟩ := h onePcma onePcma_modelled
  have hlengths : (parse {} (toText onePcma)).map (fun y => (toText y).length) =
      some ((toText onePcma).length + 18) := by
    decide +kernel
  rw [hparse, Option.map_some, htext] at hlengths
  exact absurd (Option.some.inj hlengths) (by omega)

end CxxDeps.Sdp
