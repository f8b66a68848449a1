import CxxDeps.Library.Run
import CxxDeps.Library.Sweep
import CxxDeps.Session.MediaStream

/-! Codec negotiation (rtpx/media_stream.cpp, rtpx/sdp/sdp_media.cpp, rtpx/sdp/fmtp.cpp). The
formats of earlier answers stay, and a format of the answer does not replace one of the same
payload type; a retransmission format is kept as long as its `apt` names any format. -/

namespace CxxDeps.Sdp

open Sys

/-- `strtoll` with base 0. -/
def strtoll (s : Text) : ℤ :=
  let t := s.dropWhile isSpace
  let t := if t.head? = some 0x2D ∨ t.head? = some 0x2B then t.drop 1 else t
  strtol (if icasecompare (t.take 2) (text "0x") then 16 else if t.head? = some 0x30 then 8 else 10)
    s

namespace Fmtp

/-- `get` of a signed number. -/
def getInt (fmtp : Fmtp) (key : Text) : ℤ := ((fmtp[key]?).map strtoll).getD 0

def getHex (fmtp : Fmtp) (key : Text) : ℕ := ((fmtp[key]?).map (strtoul 16)).getD 0

def profileLevelId (fmtp : Fmtp) : UInt32 := UInt32.ofNat (getHex fmtp (text "profile-level-id"))

def profileId (fmtp : Fmtp) : UInt8 :=
  match fmtp[text "profile-id"]? with
  | some v => UInt8.ofNat (strtoul 16 v)
  | none => ((profileLevelId fmtp &&& 0xFF0000) >>> 16).toUInt8

def levelId (fmtp : Fmtp) : UInt16 :=
  match fmtp[text "level-id"]? with
  | some v => UInt16.ofNat (strtoul 16 v)
  | none => (profileLevelId fmtp &&& 0xFFFF).toUInt16

def packetizationMode (fmtp : Fmtp) : ℤ := toInt32 (getInt fmtp (text "packetization-mode"))

def levelAsymmetryAllowed (fmtp : Fmtp) : ℤ :=
  toInt32 (getInt fmtp (text "level-asymmetry-allowed"))

def apt (fmtp : Fmtp) : UInt8 := UInt8.ofInt (getInt fmtp (text "apt"))

end Fmtp

/-- The tests of `sdp_media::negotiate` for a format of the remote party. -/
def Format.Accepts (remote fmt : Format) : Bool :=
  remote.codec = fmt.codec && remote.frequency = fmt.frequency &&
    Fmtp.packetizationMode fmt.fmtp = Fmtp.packetizationMode remote.fmtp &&
    Fmtp.profileId fmt.fmtp = Fmtp.profileId remote.fmtp &&
    (Fmtp.levelAsymmetryAllowed fmt.fmtp ≠ 0 || Fmtp.levelAsymmetryAllowed remote.fmtp ≠ 0 ||
      Fmtp.levelId fmt.fmtp = Fmtp.levelId remote.fmtp)

/-- The payload type a retransmission format is for. -/
def Format.link (fmt : Format) : Option UInt8 :=
  if fmt.codec = .rtx then some (Fmtp.apt fmt.fmtp) else none

abbrev Formats := Std.ExtTreeMap UInt8 Format compare

/-- `sdp_media::get_rtx_format`. -/
def Media.getRtxFormat (m : Media) (pt : UInt8) : Option Format :=
  (m.rtpmap.toList.find? (·.2.link = some pt)).map Prod.snd

/-- `sdp_media::negotiate`: the format that is accepted, and its retransmission format. -/
def Media.negotiate (m : Media) (fmt : Format) : Option (List Format) :=
  if fmt.codec = .rtx then none
  else
    match m.rtpmap.toList.find? (·.2.Accepts fmt) with
    | none => none
    | some e => some (e.2 :: (m.getRtxFormat e.1).toList)

end CxxDeps.Sdp

namespace CxxDeps.Session

open Sys Sdp Library

/-- Transport-wide feedback is not supported. -/
def stripFeedback (fmt : Format) : Format :=
  { fmt with rtcpFb := fmt.rtcpFb.erase (text "transport-cc") }

/-- The formats of the answer for the local ones, by their payload types. -/
def answered (locals : Formats) (m : Media) : List (UInt8 × List Format) :=
  locals.toList.filterMap fun e => (m.negotiate e.2).map (e.1, ·)

/-- The formats before the passes that remove retransmission formats. -/
def mergeRemote (locals remotes : Formats) (m : Media) : Formats :=
  ((answered locals m).flatMap Prod.snd).foldl (fun r fmt => r.insertIfNew fmt.pt fmt) remotes

def acceptedLocals (locals : Formats) (m : Media) : Formats :=
  locals.filter fun _ fmt => fmt.codec = .rtx || (m.negotiate fmt).isSome

def notSupportRtx (locals : Formats) (m : Media) : List UInt8 :=
  ((answered locals m).filter (·.2.length < 2)).map Prod.fst

/-- What `media_stream::negotiate` makes of the formats. -/
def negotiateFormats (locals remotes : Formats) (m : Media) : Formats × Formats :=
  (sweep Format.link (notSupportRtx locals m).contains
      ((acceptedLocals locals m).map fun _ => stripFeedback),
    sweep Format.link (fun _ => false) ((mergeRemote locals remotes m).map fun _ => stripFeedback))

/-- The checks of `media_stream::negotiate` that do not look at the formats. -/
def MediaStream.compatible (ms : MediaStream) (remote : Media) : Bool :=
  ms.mediaType = remote.mediaType &&
    (ms.mediaType ≠ .application || ms.appProto = remote.appDataType) &&
    remote.setup ≠ ms.localSetup &&
    (remote.transMode ≠ ms.transMode || ms.transMode = .sendrecv) &&
    (if remote.isSecurity then ms.security && remote.fingerprint ≠ [] else !ms.security)

/-- `media_stream::negotiate`; `none` is its `false`. -/
def MediaStream.negotiate (ms : MediaStream) (remote : Media) : Option MediaStream :=
  if ms.compatible remote then
    let (locals, remotes) := negotiateFormats ms.localFormats ms.remoteFormats remote
    if ms.mediaType ≠ .application ∧ (locals.isEmpty ∨ remotes.isEmpty) then none
    else some { ms with localFormats := locals, remoteFormats := remotes }
  else none

/-! ### Closure -/

/-- Every retransmission format is for a format of the map that is none itself. -/
def LinksKept (m : Formats) : Prop :=
  ∀ (k : UInt8) (fmt : Format) (pt : UInt8), m[k]? = some fmt → fmt.link = some pt →
    ∃ g : Format, m[pt]? = some g ∧ g.codec ≠ .rtx

/-- What is kept after an answer. -/
structure Closed (ms : MediaStream) (answer : Media) : Prop where
  locals : LinksKept ms.localFormats
  remotes : LinksKept ms.remoteFormats
  matched : ∀ (k : UInt8) (fmt : Format), ms.localFormats[k]? = some fmt → fmt.codec ≠ .rtx →
    ∃ (pt : UInt8) (g : Format), ms.remoteFormats[pt]? = some g ∧ g.codec = fmt.codec ∧
      g.frequency = fmt.frequency
  latest : ∀ (k : UInt8) (fmt : Format), ms.remoteFormats[k]? = some fmt →
    ∃ (pt : UInt8) (g : Format), answer.rtpmap[pt]? = some g ∧ fmt = stripFeedback g

/-- A payload type without a format, or with one for which the answer has no format or no
retransmission format. -/
def Unanswered (locals : Formats) (m : Media) (pt : UInt8) : Prop :=
  ∀ fmt : Format, locals[pt]? = some fmt →
    fmt.codec ≠ .rtx ∧ ((m.negotiate fmt).getD []).length < 2

/-- Where the `apt` of the retransmission formats lead. -/
def nextOf (m : Formats) (pt : UInt8) : Option UInt8 := m[pt]?.bind Format.link

/-- A local retransmission format that is for another one goes away: over ever smaller payload
types its `apt` lead to one that is unanswered. The remote formats are those of the answer. -/
structure Linkable (ms : MediaStream) (answer : Media) : Prop where
  chains : ∀ (k : UInt8) (fmt : Format) (pt : UInt8) (g : Format),
    ms.localFormats[k]? = some fmt → fmt.link = some pt → ms.localFormats[pt]? = some g →
    g.codec = .rtx →
      Swept compare (nextOf ms.localFormats) (Unanswered ms.localFormats answer) k
  latest : ∀ (k : UInt8) (fmt : Format), ms.remoteFormats[k]? = some fmt →
    ∃ (pt : UInt8) (g : Format), answer.rtpmap[pt]? = some g ∧ stripFeedback fmt = stripFeedback g

/-! ### One answer -/

/-- Formats are filed under their payload types, as the parser does it. -/
def Keyed (m : Formats) : Prop := ∀ (k : UInt8) (fmt : Format), m[k]? = some fmt → fmt.pt = k

variable {locals remotes : Formats} {m : Media}

theorem link_eq_some {fmt : Format} {pt : UInt8} (h : fmt.link = some pt) : fmt.codec = .rtx := by
  unfold Format.link at h
  split_ifs at h with hrtx
  exact hrtx

theorem link_eq_none {fmt : Format} (h : fmt.codec ≠ .rtx) : fmt.link = none := if_neg h

@[simp] theorem link_stripFeedback (fmt : Format) : (stripFeedback fmt).link = fmt.link := rfl

theorem mem_toList {f : Formats} {e : UInt8 × Format} : e ∈ f.toList ↔ f[e.1]? = some e.2 :=
  Std.ExtTreeMap.mem_toList_iff_getElem?_eq_some

/-- The answer's formats for a local one: one that accepts it, and one to retransmit that. -/
theorem negotiate_eq_some {fmt : Format} {fs : List Format} (h : m.negotiate fmt = some fs) :
    fmt.codec ≠ .rtx ∧ ∃ (pt : UInt8) (g : Format), m.rtpmap[pt]? = some g ∧
      g.Accepts fmt = true ∧ fs = g :: (m.getRtxFormat pt).toList := by
  unfold Media.negotiate at h
  split_ifs at h with hrtx
  split at h
  · cases h
  · next e he =>
    exact ⟨hrtx, e.1, e.2, mem_toList.mp (List.mem_of_find?_eq_some he),
      by simpa using List.find?_some he, (Option.some.inj h).symm⟩

theorem getRtxFormat_eq_some {pt : UInt8} {fmt : Format} (h : m.getRtxFormat pt = some fmt) :
    (∃ k : UInt8, m.rtpmap[k]? = some fmt) ∧ fmt.link = some pt := by
  obtain ⟨e, he, rfl⟩ := Option.map_eq_some_iff.mp h
  exact ⟨⟨e.1, mem_toList.mp (List.mem_of_find?_eq_some he)⟩, by simpa using List.find?_some he⟩

theorem mem_answered {e : UInt8 × List Format} :
    e ∈ answered locals m ↔
      ∃ fmt : Format, locals[e.1]? = some fmt ∧ m.negotiate fmt = some e.2 := by
  unfold answered
  rw [List.mem_filterMap]
  constructor
  · rintro ⟨l, hl, he⟩
    obtain ⟨fs, hfs, rfl⟩ := Option.map_eq_some_iff.mp he
    exact ⟨l.2, mem_toList.mp hl, hfs⟩
  · rintro ⟨fmt, hfmt, hfs⟩
    exact ⟨(e.1, fmt), mem_toList.mpr hfmt, by rw [hfs]; rfl⟩

/-- What the answer offers for the local formats is part of it, and each retransmission format
comes with its format. -/
theorem mem_offers {fmt : Format} (h : fmt ∈ (answered locals m).flatMap Prod.snd) :
    (∃ k : UInt8, m.rtpmap[k]? = some fmt) ∧ ∀ pt, fmt.link = some pt →
      ∃ g ∈ (answered locals m).flatMap Prod.snd, m.rtpmap[pt]? = some g ∧ g.codec ≠ .rtx := by
  obtain ⟨e, he, hfmt⟩ := List.mem_flatMap.mp h
  obtain ⟨l, hl, hfs⟩ := mem_answered.mp he
  obtain ⟨hrtx, pt, g, hg, haccepts, heq⟩ := negotiate_eq_some hfs
  have hcodec : g.codec ≠ .rtx := by
    simp only [Format.Accepts, Bool.and_eq_true, decide_eq_true_eq] at haccepts
    rw [haccepts.1.1.1.1]
    exact hrtx
  have hmem : g ∈ (answered locals m).flatMap Prod.snd :=
    List.mem_flatMap.mpr ⟨e, he, by rw [heq]; exact List.mem_cons_self⟩
  rw [heq, List.mem_cons, Option.mem_toList] at hfmt
  rcases hfmt with rfl | hfmt
  · exact ⟨⟨pt, hg⟩, fun a ha => absurd (link_eq_some ha) hcodec⟩
  · obtain ⟨hk, hlink⟩ := getRtxFormat_eq_some hfmt
    exact ⟨hk, fun a ha => ⟨g, hmem, by rw [hlink] at ha; exact Option.some.inj ha ▸ hg, hcodec⟩⟩

theorem getElem?_foldl_insertIfNew (fs : List Format) (r : Formats) (k : UInt8) :
    (fs.foldl (fun r fmt => r.insertIfNew fmt.pt fmt) r)[k]? =
      r[k]?.or (fs.find? (·.pt = k)) := by
  induction fs generalizing r with
  | nil => exact (Option.or_none).symm
  | cons fmt fs ih =>
    rw [List.foldl_cons, ih, Std.ExtTreeMap.getElem?_insertIfNew, List.find?_cons]
    by_cases hk : fmt.pt = k
    · subst hk
      rw [decide_eq_true rfl]
      by_cases hin : fmt.pt ∈ r
      · rw [if_neg (fun hc => hc.2 hin)]
        obtain ⟨v, hv⟩ := Option.isSome_iff_exists.mp
          (Std.ExtTreeMap.mem_iff_isSome_getElem?.mp hin)
        rw [hv]
        rfl
      · rw [if_pos ⟨Std.ReflCmp.compare_self, hin⟩, Std.ExtTreeMap.getElem?_eq_none hin]
        rfl
    · rw [if_neg (fun hc => hk (Std.LawfulEqCmp.compare_eq_iff_eq.mp hc.1)), decide_eq_false hk]

theorem mergeRemote_of_some {k : UInt8} {fmt : Format} (h : remotes[k]? = some fmt) :
    (mergeRemote locals remotes m)[k]? = some fmt := by
  rw [mergeRemote, getElem?_foldl_insertIfNew, h]
  rfl

theorem mergeRemote_cases {k : UInt8} {fmt : Format}
    (h : (mergeRemote locals remotes m)[k]? = some fmt) :
    remotes[k]? = some fmt ∨ (fmt ∈ (answered locals m).flatMap Prod.snd ∧ fmt.pt = k) := by
  rw [mergeRemote, getElem?_foldl_insertIfNew, Option.or_eq_some_iff] at h
  rcases h with h | ⟨-, h⟩
  · exact .inl h
  · exact .inr ⟨List.mem_of_find?_eq_some h, by simpa using List.find?_some h⟩

theorem mergeRemote_of_offer (remotes : Formats) {fmt : Format}
    (h : fmt ∈ (answered locals m).flatMap Prod.snd) :
    ∃ g : Format, (mergeRemote locals remotes m)[fmt.pt]? = some g := by
  rw [mergeRemote, getElem?_foldl_insertIfNew]
  rcases hr : remotes[fmt.pt]? with _ | g
  · obtain ⟨g, hg⟩ := Option.isSome_iff_exists.mp (List.find?_isSome (p := (·.pt = fmt.pt)) |>.mpr
      ⟨fmt, h, by simp⟩)
    exact ⟨g, by rw [hg]; rfl⟩
  · exact ⟨g, rfl⟩

theorem getElem?_acceptedLocals (k : UInt8) :
    (acceptedLocals locals m)[k]? =
      locals[k]?.filter fun fmt => fmt.codec = .rtx || (m.negotiate fmt).isSome := by
  rw [acceptedLocals, Std.ExtTreeMap.getElem?_filter']

theorem mem_notSupportRtx {pt : UInt8} :
    pt ∈ notSupportRtx locals m ↔ ∃ (fmt : Format) (fs : List Format), locals[pt]? = some fmt ∧
      m.negotiate fmt = some fs ∧ fs.length < 2 := by
  rw [notSupportRtx, List.mem_map]
  constructor
  · rintro ⟨e, he, rfl⟩
    obtain ⟨hmem, hlen⟩ := List.mem_filter.mp he
    obtain ⟨fmt, hfmt, hfs⟩ := mem_answered.mp hmem
    exact ⟨fmt, e.2, hfmt, hfs, by simpa using hlen⟩
  · rintro ⟨fmt, fs, hfmt, hfs, hlen⟩
    exact ⟨(pt, fs), List.mem_filter.mpr ⟨mem_answered.mpr ⟨fmt, hfmt, hfs⟩, by simpa using hlen⟩,
      rfl⟩

/-- What is left of the local formats. -/
theorem getElem?_locals (k : UInt8) :
    (Swept compare (nextOf locals) (Unanswered locals m) k →
        (negotiateFormats locals remotes m).1[k]? = none) ∧
      (¬Swept compare (nextOf locals) (Unanswered locals m) k →
        (negotiateFormats locals remotes m).1[k]? =
          (locals[k]?.filter fun fmt => fmt.codec = .rtx || (m.negotiate fmt).isSome).map
            stripFeedback) := by
  obtain ⟨kept, hkept⟩ : ∃ kept, kept = (acceptedLocals locals m).map fun _ => stripFeedback :=
    ⟨_, rfl⟩
  have hget : ∀ pt : UInt8, kept[pt]? =
      (locals[pt]?.filter fun fmt => fmt.codec = .rtx || (m.negotiate fmt).isSome).map
        stripFeedback := fun pt => by
    rw [hkept, Std.ExtTreeMap.getElem?_map, getElem?_acceptedLocals]
  have hnext : (fun pt => kept[pt]?.bind Format.link) = nextOf locals := by
    funext pt
    rw [hget, nextOf]
    rcases locals[pt]? with _ | fmt
    · rfl
    · by_cases hrtx : fmt.codec = .rtx
      · rw [Option.filter_some, if_pos (by simp [hrtx])]
        rfl
      · rw [Option.filter_some, Option.bind_some, link_eq_none hrtx]
        split_ifs
        · exact link_eq_none hrtx
        · rfl
  have hgone : (fun pt => (notSupportRtx locals m).contains pt = true ∨ kept[pt]? = none) =
      Unanswered locals m := by
    funext pt
    rw [eq_iff_iff, hget, List.contains_iff_mem, mem_notSupportRtx, Unanswered]
    rcases hpt : locals[pt]? with _ | fmt
    · exact iff_of_true (.inr rfl) (by rintro _ ⟨⟩)
    · rw [Option.filter_some]
      constructor
      · rintro (⟨g, fs, hg, hfs, hlen⟩ | hnone) g' hg'
        · obtain rfl := Option.some.inj hg
          obtain rfl := Option.some.inj hg'
          exact ⟨(negotiate_eq_some hfs).1, by rw [hfs]; exact hlen⟩
        · obtain rfl := Option.some.inj hg'
          split_ifs at hnone with hkeep
          · cases hnone
          · rw [Bool.or_eq_true, not_or, decide_eq_true_eq, Option.not_isSome_iff_eq_none] at hkeep
            exact ⟨hkeep.1, by rw [hkeep.2]; exact Nat.zero_lt_two⟩
      · intro h
        obtain ⟨hrtx, hlen⟩ := h fmt rfl
        rcases hfs : m.negotiate fmt with _ | fs
        · exact .inr (by rw [if_neg (by simp [hrtx])]; rfl)
        · rw [hfs] at hlen
          exact .inl ⟨fmt, fs, rfl, hfs, hlen⟩
  have hfst : (negotiateFormats locals remotes m).1 =
      sweep Format.link (notSupportRtx locals m).contains kept := by rw [hkept]; rfl
  rw [hfst, ← hget, ← hnext, ← hgone]
  exact ⟨getElem?_sweep_of_swept, getElem?_sweep_of_not_swept⟩

theorem getElem?_remotes (k : UInt8) :
    (Swept compare (nextOf (mergeRemote locals remotes m))
        (fun pt => (mergeRemote locals remotes m)[pt]? = none) k →
        (negotiateFormats locals remotes m).2[k]? = none) ∧
      (¬Swept compare (nextOf (mergeRemote locals remotes m))
        (fun pt => (mergeRemote locals remotes m)[pt]? = none) k →
        (negotiateFormats locals remotes m).2[k]? =
          (mergeRemote locals remotes m)[k]?.map stripFeedback) := by
  obtain ⟨kept, hkept⟩ : ∃ kept, kept = (mergeRemote locals remotes m).map fun _ => stripFeedback :=
    ⟨_, rfl⟩
  have hget : ∀ pt : UInt8, kept[pt]? = (mergeRemote locals remotes m)[pt]?.map stripFeedback :=
    fun pt => by rw [hkept, Std.ExtTreeMap.getElem?_map]
  have hnext : (fun pt => kept[pt]?.bind Format.link) = nextOf (mergeRemote locals remotes m) := by
    funext pt
    rw [hget, nextOf, Option.bind_map]
    rfl
  have hgone : (fun pt => (fun _ : UInt8 => false) pt = true ∨ kept[pt]? = none) =
      fun pt => (mergeRemote locals remotes m)[pt]? = none := by
    funext pt
    rw [eq_iff_iff, hget, Option.map_eq_none_iff]
    exact or_iff_right Bool.false_ne_true
  have hsnd : (negotiateFormats locals remotes m).2 = sweep Format.link (fun _ => false) kept := by
    rw [hkept]
    rfl
  rw [hsnd, ← hget, ← hnext, ← hgone]
  exact ⟨getElem?_sweep_of_swept, getElem?_sweep_of_not_swept⟩

/-- The remote formats from before: filed under their payload types, and closed. -/
structure Earlier (remotes : Formats) : Prop where
  keyed : Keyed remotes
  closed : LinksKept remotes

theorem mem_offers_keyed (hm : Keyed m.rtpmap) {fmt : Format}
    (h : fmt ∈ (answered locals m).flatMap Prod.snd) : m.rtpmap[fmt.pt]? = some fmt := by
  obtain ⟨k, hk⟩ := (mem_offers h).1
  rw [hm k fmt hk]
  exact hk

theorem mergeRemote_keyed (hr : Keyed remotes) : Keyed (mergeRemote locals remotes m) :=
  fun k fmt h => (mergeRemote_cases h).elim (hr k fmt) And.right

/-- Where the remote formats from before are the answer's, an offer finds itself filed, up to
feedback. -/
theorem mergeRemote_offer (hm : Keyed m.rtpmap) (hr : Keyed remotes)
    (hlatest : ∀ (k : UInt8) (fmt : Format), remotes[k]? = some fmt →
      ∃ (pt : UInt8) (g : Format), m.rtpmap[pt]? = some g ∧ stripFeedback fmt = stripFeedback g)
    {fmt : Format} (h : fmt ∈ (answered locals m).flatMap Prod.snd) :
    ∃ g : Format, (mergeRemote locals remotes m)[fmt.pt]? = some g ∧
      stripFeedback g = stripFeedback fmt := by
  have hfmt := mem_offers_keyed hm h
  obtain ⟨g, hg⟩ := mergeRemote_of_offer remotes h
  refine ⟨g, hg, ?_⟩
  rcases mergeRemote_cases hg with hold | ⟨hnew, hpt⟩
  · obtain ⟨pt, g', hg', hstrip⟩ := hlatest _ g hold
    have hpt : fmt.pt = pt := by
      have hsame := congrArg Format.pt hstrip
      rw [← hr _ g hold, ← hm pt g' hg']
      exact hsame
    rw [← hpt, hfmt] at hg'
    rw [hstrip, Option.some.inj hg']
  · have hg' := mem_offers_keyed hm hnew
    rw [hpt, hfmt] at hg'
    rw [Option.some.inj hg']

/-- No closed map loses a retransmission format. -/
theorem not_swept_of_target {k : UInt8} {fmt : Format} {next : UInt8 → Option UInt8}
    {gone : UInt8 → Prop} {map : Formats} (hnext : next = nextOf map) (hfmt : map[k]? = some fmt)
    (h : ∀ pt, fmt.link = some pt → ¬gone pt ∧ ∃ g : Format, map[pt]? = some g ∧ g.codec ≠ .rtx) :
    ¬Swept compare next gone k := by
  have hlink : next k = fmt.link := by rw [hnext, nextOf, hfmt]; rfl
  rw [swept_iff, hlink]
  rintro ⟨pt, hpt, hgone | ⟨-, hs⟩⟩
  · exact (h pt hpt).1 hgone
  · obtain ⟨g, hg, hrtx⟩ := (h pt hpt).2
    obtain ⟨a, ha, -⟩ := swept_iff.mp hs
    rw [hnext, nextOf, hg, Option.bind_some, link_eq_none hrtx] at ha
    cases ha

variable {ms t : MediaStream}

theorem negotiate_formats (h : ms.negotiate m = some t) :
    t.localFormats = (negotiateFormats ms.localFormats ms.remoteFormats m).1 ∧
      t.remoteFormats = (negotiateFormats ms.localFormats ms.remoteFormats m).2 := by
  unfold MediaStream.negotiate at h
  dsimp only at h
  split_ifs at h
  cases h
  exact ⟨rfl, rfl⟩

/-- A local format that is kept, and what it was before. -/
theorem getElem?_locals_eq_some {k : UInt8} {fmt : Format}
    (h : (negotiateFormats locals remotes m).1[k]? = some fmt) :
    ¬Swept compare (nextOf locals) (Unanswered locals m) k ∧ ∃ g : Format, locals[k]? = some g ∧
      fmt = stripFeedback g ∧ (g.codec = .rtx ∨ (m.negotiate g).isSome = true) := by
  obtain ⟨hswept, hkept⟩ := @getElem?_locals locals remotes m k
  have hs : ¬Swept compare (nextOf locals) (Unanswered locals m) k := fun hs => by
    rw [hswept hs] at h
    cases h
  rw [hkept hs] at h
  obtain ⟨g, hg, rfl⟩ := Option.map_eq_some_iff.mp h
  rw [Option.filter_eq_some_iff, Bool.or_eq_true, decide_eq_true_eq] at hg
  exact ⟨hs, g, hg.1, rfl, hg.2⟩

theorem getElem?_locals_of_kept (remotes : Formats) {k : UInt8} {g : Format}
    (hg : locals[k]? = some g)
    (hs : ¬Swept compare (nextOf locals) (Unanswered locals m) k)
    (hkeep : g.codec = .rtx ∨ (m.negotiate g).isSome = true) :
    (negotiateFormats locals remotes m).1[k]? = some (stripFeedback g) := by
  rw [(getElem?_locals k).2 hs, hg, Option.filter_some, if_pos]
  · rfl
  · rw [Bool.or_eq_true, decide_eq_true_eq]
    exact hkeep

theorem getElem?_remotes_eq_some {k : UInt8} {fmt : Format}
    (h : (negotiateFormats locals remotes m).2[k]? = some fmt) :
    ¬Swept compare (nextOf (mergeRemote locals remotes m))
        (fun pt => (mergeRemote locals remotes m)[pt]? = none) k ∧
      ∃ g : Format, (mergeRemote locals remotes m)[k]? = some g ∧ fmt = stripFeedback g := by
  obtain ⟨hswept, hkept⟩ := @getElem?_remotes locals remotes m k
  by_cases hs : Swept compare (nextOf (mergeRemote locals remotes m))
    (fun pt => (mergeRemote locals remotes m)[pt]? = none) k
  · rw [hswept hs] at h
    cases h
  rw [hkept hs] at h
  obtain ⟨g, hg, rfl⟩ := Option.map_eq_some_iff.mp h
  exact ⟨hs, g, hg, rfl⟩

theorem negotiate_keyed (hr : Keyed ms.remoteFormats) (h : ms.negotiate m = some t) :
    Keyed t.remoteFormats := by
  intro k fmt hfmt
  rw [(negotiate_formats h).2] at hfmt
  obtain ⟨-, g, hg, rfl⟩ := getElem?_remotes_eq_some hfmt
  exact mergeRemote_keyed hr k g hg

theorem getElem?_remotes_of_target {k : UInt8} {g : Format}
    (hg : (mergeRemote locals remotes m)[k]? = some g)
    (h : ∀ pt, g.link = some pt → ∃ f : Format, (mergeRemote locals remotes m)[pt]? = some f ∧
      f.codec ≠ .rtx) :
    (negotiateFormats locals remotes m).2[k]? = some (stripFeedback g) := by
  rw [(getElem?_remotes k).2 (not_swept_of_target rfl hg fun pt hpt => ?_), hg, Option.map_some]
  obtain ⟨f, hf, hrtx⟩ := h pt hpt
  exact ⟨by rw [hf]; exact Option.some_ne_none _, f, hf, hrtx⟩

theorem getElem?_remotes_of_plain {k : UInt8} {g : Format}
    (hg : (mergeRemote locals remotes m)[k]? = some g) (hrtx : g.codec ≠ .rtx) :
    (negotiateFormats locals remotes m).2[k]? = some (stripFeedback g) :=
  getElem?_remotes_of_target hg fun _ hpt => absurd (link_eq_some hpt) hrtx

/-- After an answer the formats are closed exactly if local retransmission formats that are for
others go away, and the remote formats from before are the answer's. -/
theorem closed_iff (hm : Keyed m.rtpmap) (hr : Earlier ms.remoteFormats)
    (h : ms.negotiate m = some t) : Closed t m ↔ Linkable ms m := by
  obtain ⟨hlocals, hremotes⟩ := negotiate_formats h
  constructor
  · intro hc
    refine ⟨fun k fmt pt g hfmt hlink hg hrtx => by_contra fun hs => ?_, fun k fmt hfmt => ?_⟩
    · have hkept := getElem?_locals_of_kept ms.remoteFormats hfmt hs
        (.inl (link_eq_some hlink))
      rw [← hlocals] at hkept
      obtain ⟨f, hf, hcodec⟩ := hc.locals k _ pt hkept hlink
      rw [hlocals] at hf
      obtain ⟨-, g', hg', rfl, -⟩ := getElem?_locals_eq_some hf
      rw [hg] at hg'
      exact hcodec (Option.some.inj hg' ▸ hrtx)
    · have hkept := getElem?_remotes_of_target
        (@mergeRemote_of_some ms.localFormats ms.remoteFormats m k fmt hfmt) fun pt hpt => by
          obtain ⟨f, hf, hrtx⟩ := hr.closed k fmt pt hfmt hpt
          exact ⟨f, mergeRemote_of_some hf, hrtx⟩
      rw [← hremotes] at hkept
      exact hc.latest k _ hkept
  · rintro ⟨hchains, hlatest⟩
    refine ⟨fun k fmt pt hfmt hlink => ?_, fun k fmt pt hfmt hlink => ?_,
      fun k fmt hfmt hrtx => ?_, fun k fmt hfmt => ?_⟩
    · rw [hlocals] at hfmt
      obtain ⟨hs, g, hg, rfl, -⟩ := getElem?_locals_eq_some hfmt
      have hnext : nextOf ms.localFormats k = some pt := by
        rw [nextOf, hg]
        exact hlink
      have hanswered : ¬Unanswered ms.localFormats m pt := fun hun => hs (.lost hnext hun)
      obtain ⟨f, hf, hkeep⟩ : ∃ f : Format, ms.localFormats[pt]? = some f ∧
          ¬(f.codec ≠ .rtx ∧ ((m.negotiate f).getD []).length < 2) := by
        by_contra hno
        exact hanswered fun f hf => by_contra fun hkeep => hno ⟨f, hf, hkeep⟩
      have hrtx : f.codec ≠ .rtx := fun hrtx => hs (hchains k g pt f hg hlink hf hrtx)
      have hsome : (m.negotiate f).isSome = true := by
        rcases hfs : m.negotiate f with _ | fs
        · exact absurd ⟨hrtx, by rw [hfs]; exact Nat.zero_lt_two⟩ hkeep
        · rfl
      refine ⟨stripFeedback f, ?_, hrtx⟩
      rw [hlocals]
      exact getElem?_locals_of_kept ms.remoteFormats hf (not_swept_of_target rfl hf fun a ha =>
        absurd (link_eq_some ha) hrtx) (.inr hsome)
    · rw [hremotes] at hfmt
      obtain ⟨-, g, hg, rfl⟩ := getElem?_remotes_eq_some hfmt
      obtain ⟨f, hf, hrtx⟩ : ∃ f : Format,
          (mergeRemote ms.localFormats ms.remoteFormats m)[pt]? = some f ∧ f.codec ≠ .rtx := by
        rcases mergeRemote_cases hg with hold | ⟨hnew, -⟩
        · obtain ⟨f, hf, hrtx⟩ := hr.closed k g pt hold hlink
          exact ⟨f, mergeRemote_of_some hf, hrtx⟩
        · obtain ⟨x, hx, hpt, hrtx⟩ := (mem_offers hnew).2 pt hlink
          obtain ⟨f, hf, hstrip⟩ := mergeRemote_offer hm hr.keyed hlatest hx
          have hcodec := congrArg Format.codec hstrip
          rw [hm pt x hpt] at hf
          exact ⟨f, hf, fun hc => hrtx (hcodec ▸ hc)⟩
      exact ⟨stripFeedback f, hremotes ▸ getElem?_remotes_of_plain hf hrtx, hrtx⟩
    · rw [hlocals] at hfmt
      obtain ⟨-, g, hg, rfl, hkeep⟩ := getElem?_locals_eq_some hfmt
      obtain ⟨fs, hfs⟩ := Option.isSome_iff_exists.mp (hkeep.resolve_left hrtx)
      obtain ⟨-, pt, x, -, haccepts, heq⟩ := negotiate_eq_some hfs
      have hx : x ∈ (answered ms.localFormats m).flatMap Prod.snd :=
        List.mem_flatMap.mpr ⟨(k, fs), mem_answered.mpr ⟨g, hg, hfs⟩, by
          rw [heq]; exact List.mem_cons_self⟩
      simp only [Format.Accepts, Bool.and_eq_true, decide_eq_true_eq] at haccepts
      obtain ⟨⟨⟨⟨hcodec, hfrequency⟩, -⟩, -⟩, -⟩ := haccepts
      obtain ⟨f, hf, hstrip⟩ := mergeRemote_offer hm hr.keyed hlatest hx
      have hcodec' := (congrArg Format.codec hstrip).trans hcodec
      refine ⟨x.pt, stripFeedback f, ?_, hcodec', (congrArg Format.frequency hstrip).trans
        hfrequency⟩
      rw [hremotes]
      exact getElem?_remotes_of_plain hf fun hc => hrtx (hcodec' ▸ hc)
    · rw [hremotes] at hfmt
      obtain ⟨-, g, hg, rfl⟩ := getElem?_remotes_eq_some hfmt
      rcases mergeRemote_cases hg with hold | ⟨hnew, -⟩
      · exact hlatest k g hold
      · exact ⟨g.pt, g, mem_offers_keyed hm hnew, rfl⟩

/-! ### Any answers -/

/-- One answer; what is shown is the stream and the answer behind each success. -/
def negotiateStep (ms : MediaStream) (answer : Media) :
    Option (MediaStream × List (MediaStream × Media)) :=
  (ms.negotiate answer).map fun t => (t, [(t, answer)])

theorem negotiateStep_eq_some {o : List (MediaStream × Media)}
    (h : negotiateStep ms m = some (t, o)) : ms.negotiate m = some t ∧ o = [(t, m)] := by
  obtain ⟨t', ht, heq⟩ := Option.map_eq_some_iff.mp h
  obtain ⟨rfl, rfl⟩ := Prod.mk.inj heq
  exact ⟨ht, rfl⟩

theorem keyed_filed (fs : List Format) :
    Keyed (fs.foldl (fun r fmt => r.insertIfNew fmt.pt fmt) ∅) := by
  intro k fmt h
  rw [getElem?_foldl_insertIfNew, Std.ExtTreeMap.getElem?_empty, Option.none_or] at h
  simpa using List.find?_some h

/-- Of any answers that all succeed, from a stream without remote formats on: the formats are
closed after each of them exactly if each of them is linkable in the state it comes to. -/
theorem negotiation_closed_iff {ms t : MediaStream} (hr : ms.remoteFormats = ∅)
    {answers : List Media} (hkeyed : ∀ m ∈ answers, Keyed m.rtpmap)
    {shown : List (MediaStream × Media)} (hrun : run negotiateStep ms answers = some (t, shown)) :
    (∀ x ∈ shown, Closed x.1 x.2) ↔ RunOk negotiateStep Linkable ms answers := by
  have htrue : RunOk negotiateStep (fun _ _ => True) ms answers :=
    RunOk.of_forall (fun _ _ => trivial) ms answers
  have hpre : RunOk negotiateStep (fun _ m => Keyed m.rtpmap) ms answers :=
    (htrue.restrict hkeyed).mono fun _ _ h => h.1
  have hruns : RunOk negotiateStep Linkable ms answers ↔ ∀ x ∈ [] ++ shown, Closed x.1 x.2 :=
    RunOk.iff_outputs
    (fun (s : MediaStream) (out : List (MediaStream × Media)) => Keyed s.remoteFormats ∧
      ((∀ x ∈ out, Closed x.1 x.2) → LinksKept s.remoteFormats))
    (fun out : List (MediaStream × Media) => ∀ x ∈ out, Closed x.1 x.2)
    (fun os os' h x hx => h x (List.mem_append_left os' hx))
    (fun s out m s' o hinv _ hs => by
      obtain ⟨hneg, rfl⟩ := negotiateStep_eq_some hs
      refine ⟨negotiate_keyed hinv.1 hneg, fun hclosed => ?_⟩
      exact (hclosed (s', m) (List.mem_append_right _ (List.mem_singleton.mpr rfl))).remotes)
    (fun s out m s' o hinv hm hclosed hs => by
      obtain ⟨hneg, rfl⟩ := negotiateStep_eq_some hs
      rw [← closed_iff hm ⟨hinv.1, hinv.2 hclosed⟩ hneg, List.forall_mem_append,
        and_iff_right hclosed, List.forall_mem_singleton])
    [] hpre ⟨by rw [hr]; intro k fmt h; simp at h, fun _ => by
      rw [hr]; intro k fmt pt h; simp at h⟩ (List.forall_mem_nil _) hrun
  rw [List.nil_append] at hruns
  exact hruns.symm

private def offerer (formats : List Format) : MediaStream :=
  { mediaType := .video, transMode := .sendrecv, rtpTransport := 5000, rtcpTransport := 5000
    isRtcpMux := true, localRtpSsrc := 1, localSetup := .actpass
    localFormats := formats.foldl (fun r fmt => r.insertIfNew fmt.pt fmt) ∅ }

private def videoAnswer (formats : List Format) : Media :=
  { mediaType := .video, setup := .active
    rtpmap := formats.foldl (fun r fmt => r.insertIfNew fmt.pt fmt) ∅ }

private def vp8Format (pt : UInt8) : Format := { pt, codec := .vp8, frequency := 90000 }

private def rtxFormat (pt : UInt8) (apt : String) : Format :=
  { pt, codec := .rtx, frequency := 90000, fmtp := .ofList [(text "apt", text apt)] compare }

private theorem vp8_answered : (run negotiateStep (offerer [vp8Format 96, rtxFormat 97 "96"])
    [videoAnswer [vp8Format 96, rtxFormat 97 "96"]]).isSome = true := by
  decide +kernel

theorem negotiation_closed_vp8 :
    (∀ x ∈ ((run negotiateStep (offerer [vp8Format 96, rtxFormat 97 "96"])
        [videoAnswer [vp8Format 96, rtxFormat 97 "96"]]).get vp8_answered).2, Closed x.1 x.2) ↔
      RunOk negotiateStep Linkable (offerer [vp8Format 96, rtxFormat 97 "96"])
        [videoAnswer [vp8Format 96, rtxFormat 97 "96"]] :=
  negotiation_closed_iff rfl (List.forall_mem_singleton.mpr (keyed_filed _))
    (Option.some_get vp8_answered).symm

/-- A retransmission format stays although the one that it is for is removed, and a second
answer leaves the format of the first one. -/
theorem stale_formats_kept :
    (∃ t shown, run negotiateStep (offerer [vp8Format 96, rtxFormat 97 "98", rtxFormat 98 "99"])
        [videoAnswer [vp8Format 96]] = some (t, shown) ∧ ¬∀ x ∈ shown, Closed x.1 x.2) ∧
      ∃ t shown, run negotiateStep (offerer [vp8Format 96])
        [videoAnswer [vp8Format 96], videoAnswer [vp8Format 100]] = some (t, shown) ∧
          ¬∀ x ∈ shown, Closed x.1 x.2 := by
  constructor
  · have h : (run negotiateStep (offerer [vp8Format 96, rtxFormat 97 "98", rtxFormat 98 "99"])
        [videoAnswer [vp8Format 96]]).map (fun x =>
          (x.1.localFormats[(97 : UInt8)]?.map Format.link,
            x.1.localFormats[(98 : UInt8)]?.isSome)) = some (some (some 98), false) := by
      decide +kernel
    obtain ⟨⟨t, shown⟩, hrun, ht⟩ := Option.map_eq_some_iff.mp h
    obtain ⟨hlink, hnone⟩ := Prod.mk.inj ht
    refine ⟨t, shown, hrun, fun hclosed => ?_⟩
    obtain ⟨s, o, o', hs, hnil, rfl⟩ := run_cons_eq_some.mp hrun
    obtain ⟨rfl, rfl⟩ := Prod.mk.inj (Option.some.inj hnil)
    obtain ⟨-, rfl⟩ := negotiateStep_eq_some hs
    obtain ⟨fmt, hfmt, hl⟩ := Option.map_eq_some_iff.mp hlink
    obtain ⟨g, hg, -⟩ := (hclosed _ List.mem_cons_self).locals 97 fmt 98 hfmt hl
    rw [hg] at hnone
    cases hnone
  · have h : (run negotiateStep (offerer [vp8Format 96])
        [videoAnswer [vp8Format 96], videoAnswer [vp8Format 100]]).map (fun x =>
          x.1.remoteFormats[(96 : UInt8)]?.map Format.pt) = some (some 96) := by
      decide +kernel
    obtain ⟨⟨t, shown⟩, hrun, ht⟩ := Option.map_eq_some_iff.mp h
    refine ⟨t, shown, hrun, fun hclosed => ?_⟩
    obtain ⟨s₁, o₁, o, h₁, hrun₁, rfl⟩ := run_cons_eq_some.mp hrun
    obtain ⟨s₂, o₂, o', h₂, hnil, rfl⟩ := run_cons_eq_some.mp hrun₁
    obtain ⟨rfl, rfl⟩ := Prod.mk.inj (Option.some.inj hnil)
    obtain ⟨-, rfl⟩ := negotiateStep_eq_some h₂
    obtain ⟨fmt, hfmt, hpt⟩ := Option.map_eq_some_iff.mp ht
    obtain ⟨pt, g, hg, rfl⟩ := (hclosed _ (List.mem_append_right _ List.mem_cons_self)).latest
      96 fmt hfmt
    have hg' : g.pt = 100 := by
      dsimp only [videoAnswer] at hg
      rw [getElem?_foldl_insertIfNew, Std.ExtTreeMap.getElem?_empty, Option.none_or] at hg
      rw [List.mem_singleton.mp (List.mem_of_find?_eq_some hg)]
      rfl
    exact absurd (hpt.symm.trans hg') (by decide)

end CxxDeps.Session
