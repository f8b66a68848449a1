import CxxDeps.Sdp.Text

/-! The sections of a session description as its lines have them, and what its parser makes of
the places named there: the last `c=` line and the last `a=rtcp` line that are long enough
count, those of a section before those of the session. The parser is defined where each line
of a source names one. -/

namespace CxxDeps.Sdp

open Sys

/-! ### Lines and sections -/

/-- The key and the value of a line. -/
def fieldOf (s : Text) : Option (Text × Text) :=
  match split s (text "=") (some 2) true with
  | key :: val :: _ => some (key, trim val)
  | _ => none

def fieldsOf (s : Text) : List (Text × Text) :=
  (split s (text "\n") none true).filterMap fieldOf

structure Section where
  header : Text
  fields : List (Text × Text)
  deriving DecidableEq

/-- Everything up to the next `m=` line. -/
def upToMedia (fields : List (Text × Text)) : List (Text × Text) :=
  fields.takeWhile (·.1 ≠ text "m")

def sections : List (Text × Text) → List Section
  | [] => []
  | f :: fields =>
    if f.1 = text "m" then ⟨f.2, upToMedia fields⟩ :: sections fields else sections fields

/-- A line of a section. -/
def Media.parseField (m : Media) (f : Text × Text) : Option Media :=
  if f.1 = text "a" then m.parseA (Pair.parse f.2)
  else if f.1 = text "b" then some { m with b := m.b ++ [f.2] }
  else if f.1 = text "c" then some (m.parseC f.2)
  else if f.1 = text "y" then some { m with y := UInt32.ofNat (strtoul 0 f.2) }
  else some m

/-! ### The places in the lines -/

/-- The address of a `c=` line. -/
def connectionOf (f : Text × Text) : Option Text :=
  if f.1 = text "c" then
    match split f.2 (text " ") none true with
    | _ :: _ :: address :: _ => some address
    | _ => none
  else none

/-- The port and the address of an `a=rtcp` attribute. -/
def rtcpOfAttr (attr : Pair) : Option (ℤ × Text) :=
  if attr.key = text "rtcp" then
    match split attr.val (text " ") none true with
    | port :: _ :: _ :: address :: _ => some (toInt32 (strtol 10 port), address)
    | _ => none
  else none

def rtcpOf (f : Text × Text) : Option (ℤ × Text) :=
  if f.1 = text "a" then rtcpOfAttr (Pair.parse f.2) else none

def muxOf (f : Text × Text) : Bool := f.1 = text "a" && (Pair.parse f.2).key = text "rtcp-mux"

/-- The port of an `m=` line. -/
def headerPort (header : Text) : ℤ :=
  match split header (text " ") none true with
  | _ :: port :: _ :: _ => toInt32 (strtol 10 port)
  | _ => 9

def connection (fields : List (Text × Text)) : Option Text :=
  (fields.filterMap connectionOf).getLast?

def rtcpLine (fields : List (Text × Text)) : Option (ℤ × Text) :=
  (fields.filterMap rtcpOf).getLast?

def muxed (fields : List (Text × Text)) : Bool := fields.any muxOf

/-- A source, or a group of sources, has a first part. -/
def Pair.Sourced (attr : Pair) : Prop :=
  (attr.key = text "ssrc-group" → split attr.val (text " ") none true ≠ []) ∧
    (attr.key = text "ssrc" → split attr.val (text " ") (some 2) true ≠ [])

/-- A line that is no attribute, or one of an attribute that can be read. -/
def LineSourced (f : Text × Text) : Prop := f.1 = text "a" → (Pair.parse f.2).Sourced

/-- The lines of the sections name the sources that they are about. -/
def Sourced (s : Text) : Prop :=
  ∀ sec ∈ sections (fieldsOf s), ∀ f ∈ sec.fields, LineSourced f

instance (attr : Pair) : Decidable attr.Sourced := inferInstanceAs (Decidable (_ ∧ _))

instance (f : Text × Text) : Decidable (LineSourced f) := inferInstanceAs (Decidable (_ → _))

instance (s : Text) : Decidable (Sourced s) :=
  inferInstanceAs (Decidable (∀ sec ∈ _, ∀ f ∈ _, LineSourced f))

/-! ### What is read of them -/

/-- The places in a section that has been read. -/
structure Place where
  port : ℤ
  address : Option Text
  rtcp : Option (ℤ × Text)
  mux : Bool

/-- The places behind one more line. -/
def Place.read (p : Place) (f : Text × Text) : Place :=
  { p with
    address := (connectionOf f).or p.address
    rtcp := (rtcpOf f).or p.rtcp
    mux := p.mux || muxOf f }

def Section.place (sec : Section) : Place :=
  sec.fields.foldl Place.read ⟨headerPort sec.header, none, none, false⟩

def Media.place (m : Media) : Place where
  port := m.rtpPort
  address := if m.hasRtpAddress then some m.rtpAddress else none
  rtcp := if m.hasRtcp then some (m.rtcpPort, m.rtcpAddress) else none
  mux := m.rtcpMux

theorem updateSsrc_place (m : Media) (ssrc : Text) (f : Ssrc → Ssrc) :
    (m.updateSsrc ssrc f).place = m.place := by
  unfold Media.updateSsrc
  dsimp only
  split <;> rfl

theorem foldl_updateSsrc_place (l : List Text) (m : Media) :
    (l.foldl (fun m s => m.updateSsrc s id) m).place = m.place := by
  induction l generalizing m with
  | nil => rfl
  | cons s l ih => rw [List.foldl_cons, ih, updateSsrc_place]

/-- Two attributes name places; all others leave them alone. -/
theorem setAttribute_place (m : Media) (attr : Pair) :
    (m.setAttribute attr).place = { m.place with
      rtcp := (rtcpOfAttr attr).or m.place.rtcp
      mux := m.place.mux || attr.key = text "rtcp-mux" } := by
  have hite {c : Prop} [Decidable c] {y z : Media} {p : Place} (h₁ : y.place = p)
      (h₂ : z.place = p) : (if c then y else z).place = p := by
    split
    · exact h₁
    · exact h₂
  have hneg {c : Prop} [Decidable c] {y z : Media} {p : Place} (hc : ¬c) (h : z.place = p) :
      (if c then y else z).place = p := by rw [if_neg hc]; exact h
  by_cases hrtcp : attr.key = text "rtcp"
  · have hmux : ¬text "rtcp" = text "rtcp-mux" := by decide
    rw [rtcpOfAttr, hrtcp, if_pos rfl, decide_eq_false hmux, Bool.or_false]
    unfold Media.setAttribute
    dsimp only
    rw [if_pos hrtcp]
    rcases split attr.val (text " ") none true with
      _ | ⟨port, _ | ⟨network, _ | ⟨type, _ | ⟨address, rest⟩⟩⟩⟩ <;> rfl
  rw [rtcpOfAttr, if_neg hrtcp, Option.none_or]
  by_cases hmux : attr.key = text "rtcp-mux"
  · rw [decide_eq_true hmux, Bool.or_true]
    have hno (name : Text) (h : ¬text "rtcp-mux" = name) : ¬attr.key = name := hmux ▸ h
    unfold Media.setAttribute
    refine hneg hrtcp (hneg (hno _ (by decide)) (hneg (hno _ (by decide)) (hneg (hno _ (by decide))
      (hneg (hno _ (by decide)) (hneg (hno _ (by decide)) (hneg (hno _ (by decide))
      (hneg (hno _ (by decide)) (hneg (hno _ (by decide)) (hneg (hno _ (by decide))
      (hneg (hno _ (by decide)) (hneg (hno _ (by decide)) ?_)))))))))))
    rw [if_pos hmux]
    rfl
  · rw [decide_eq_false hmux, Bool.or_false]
    unfold Media.setAttribute
    refine hneg hrtcp (hite rfl (hite rfl (hite rfl (hite ?fingerprint (hite ?setup (hite rfl
      (hite ?msid (hite ?extmap (hite rfl (hite rfl (hite rfl (hneg hmux (hite rfl (hite ?candidate
      (hite ?rtpmap (hite ?feedback (hite ?fmtp (hite rfl rfl))))))))))))))))))
    case setup => exact hite rfl (hite rfl (hite rfl rfl))
    case feedback =>
      split
      · exact hite rfl rfl
      · rfl
    all_goals split <;> rfl

theorem parseA_place {m m' : Media} {attr : Pair} (h : m.parseA attr = some m') :
    m'.place = { m.place with
      rtcp := (rtcpOfAttr attr).or m.place.rtcp
      mux := m.place.mux || attr.key = text "rtcp-mux" } := by
  have hsource (hrtcp : attr.key ≠ text "rtcp") (hmux : attr.key ≠ text "rtcp-mux")
      (hkept : m'.place = m.place) : m'.place = { m.place with
        rtcp := (rtcpOfAttr attr).or m.place.rtcp
        mux := m.place.mux || attr.key = text "rtcp-mux" } := by
    rw [rtcpOfAttr, if_neg hrtcp, Option.none_or, decide_eq_false hmux, Bool.or_false]
    exact hkept
  unfold Media.parseA at h
  dsimp only at h
  split_ifs at h with hgroup hssrc
  · obtain ⟨ssrcGroup, -, rfl⟩ := Option.map_eq_some_iff.mp h
    exact hsource (hgroup ▸ by decide) (hgroup ▸ by decide) (foldl_updateSsrc_place _ _)
  · obtain ⟨ssrc, -, rfl⟩ := Option.map_eq_some_iff.mp h
    exact hsource (hssrc ▸ by decide) (hssrc ▸ by decide) (updateSsrc_place _ _ _)
  · exact Option.some.inj h ▸ setAttribute_place m attr

theorem parseA_isSome (m : Media) (attr : Pair) : (m.parseA attr).isSome ↔ attr.Sourced := by
  unfold Media.parseA Pair.Sourced
  dsimp only
  split_ifs with hgroup hssrc
  · have hssrc : ¬attr.key = text "ssrc" := hgroup ▸ by decide
    simp only [Option.isSome_map, List.isSome_head?, forall_prop_of_true hgroup,
      forall_prop_of_false hssrc, and_true]
  · simp only [Option.isSome_map, List.isSome_head?, forall_prop_of_true hssrc,
      forall_prop_of_false hgroup, true_and]
  · simp [hgroup, hssrc]

theorem parseC_place (m : Media) (s : Text) :
    (m.parseC s).place = { m.place with
      address := (connectionOf (text "c", s)).or m.place.address } := by
  unfold Media.parseC connectionOf
  rw [if_pos rfl]
  dsimp only
  rcases split s (text " ") none true with _ | ⟨network, _ | ⟨type, _ | ⟨address, rest⟩⟩⟩ <;> rfl

/-- What a line says about the places. -/
theorem Media.parseField_place {m m' : Media} {f : Text × Text} (h : m.parseField f = some m') :
    m'.place = m.place.read f := by
  obtain ⟨key, val⟩ := f
  unfold Media.parseField at h
  by_cases ha : key = text "a"
  · subst ha
    rw [if_pos rfl] at h
    rw [parseA_place h, Place.read, connectionOf, if_neg (show ¬text "a" = text "c" by decide),
      rtcpOf, if_pos rfl, muxOf, decide_eq_true rfl, Bool.true_and, Option.none_or]
  have hmux : muxOf (key, val) = false := by rw [muxOf, decide_eq_false ha, Bool.false_and]
  rw [Place.read, rtcpOf, if_neg ha, hmux, Bool.or_false, Option.none_or]
  rw [if_neg ha] at h
  by_cases hc : key = text "c"
  · subst hc
    rw [if_neg (show ¬text "c" = text "b" by decide), if_pos rfl] at h
    exact Option.some.inj h ▸ parseC_place m val
  · rw [connectionOf, if_neg hc, Option.none_or]
    rw [if_neg hc] at h
    split_ifs at h <;> exact Option.some.inj h ▸ rfl

theorem Media.parseField_isSome (m : Media) (f : Text × Text) :
    (m.parseField f).isSome ↔ LineSourced f := by
  unfold Media.parseField LineSourced
  split_ifs with ha
  · rw [parseA_isSome, forall_prop_of_true ha]
  all_goals exact iff_of_true rfl fun h => absurd h ha

theorem or_getLast?_cons {α : Type*} (f : α) (l : List α) (d : Option α) :
    (l.getLast?).or ((some f).or d) = ((f :: l).getLast?).or d := by
  rcases l with _ | ⟨g, l⟩
  · rfl
  · rw [List.getLast?_cons_cons, List.getLast?_eq_some_getLast (List.cons_ne_nil g l)]
    rfl

theorem foldl_read (fields : List (Text × Text)) (p : Place) :
    fields.foldl Place.read p = { p with
      address := (connection fields).or p.address
      rtcp := (rtcpLine fields).or p.rtcp
      mux := p.mux || muxed fields } := by
  have hlast {α : Type} (g : Text × Text → Option α) (f : Text × Text)
      (fields : List (Text × Text)) (d : Option α) :
      ((fields.filterMap g).getLast?).or ((g f).or d) =
        (((f :: fields).filterMap g).getLast?).or d := by
    rcases hg : g f with _ | a
    · rw [List.filterMap_cons_none hg, Option.none_or]
    · rw [List.filterMap_cons_some hg, or_getLast?_cons]
  induction fields generalizing p with
  | nil => rw [muxed, List.any_nil, Bool.or_false]; rfl
  | cons f fields ih =>
    rw [List.foldl_cons, ih, Place.read]
    simp only [connection, rtcpLine, muxed, List.any_cons, hlast, Bool.or_assoc]

theorem parseHeader_place (header : Text) :
    (({} : Media).parseHeader header).place = ⟨headerPort header, none, none, false⟩ := by
  unfold Media.parseHeader headerPort
  rcases split header (text " ") none true with _ | ⟨type, _ | ⟨port, _ | ⟨protos, rest⟩⟩⟩
  · rfl
  · rfl
  · rfl
  · dsimp only
    rw [apply_ite Media.place]
    exact ite_self (⟨toInt32 (strtol 10 port), none, none, false⟩ : Place)

theorem Section.place_eq (sec : Section) :
    sec.place = ⟨headerPort sec.header, connection sec.fields, rtcpLine sec.fields,
      muxed sec.fields⟩ := by
  rw [place, foldl_read, Option.or_none, Option.or_none, Bool.false_or]

/-! ### A whole description -/

/-- What the lines of the session make of its address. -/
theorem parseConnection_address (x : Sdp) (s : Text) :
    (parseConnection x s).address = (connectionOf (text "c", s)).getD x.address := by
  unfold parseConnection connectionOf
  rw [if_pos rfl]
  rcases split s (text " ") none true with _ | ⟨network, _ | ⟨type, _ | ⟨address, rest⟩⟩⟩ <;> rfl

theorem parseConnection_medias (x : Sdp) (s : Text) :
    (parseConnection x s).medias = x.medias := by
  unfold parseConnection
  split <;> rfl

/-- An attribute is about no address and no section. -/
theorem parseAttr_frame (x : Sdp) (attr : Pair) :
    (parseAttr x attr).address = x.address ∧ (parseAttr x attr).medias = x.medias := by
  unfold parseAttr
  dsimp only
  split
  · split
    · split <;> exact ⟨rfl, rfl⟩
    · exact ⟨rfl, rfl⟩
  · split
    · split <;> exact ⟨rfl, rfl⟩
    · exact ⟨rfl, rfl⟩

/-- The places with the last one changed. -/
def inLastPlace (ps : List Place) (g : Place → Place) : List Place :=
  match ps.getLast? with
  | none => []
  | some p => ps.dropLast ++ [g p]

theorem inLastPlace_append (ps : List Place) (p : Place) (g : Place → Place) :
    inLastPlace (ps ++ [p]) g = ps ++ [g p] := by
  rw [inLastPlace, List.getLast?_concat, List.dropLast_concat]

theorem inLastPlace_self {ps : List Place} {g : Place → Place} (hg : ∀ p, g p = p) :
    inLastPlace ps g = ps := by
  rcases List.eq_nil_or_concat ps with rfl | ⟨ps, p, rfl⟩
  · rfl
  · rw [List.concat_eq_append, inLastPlace_append, hg]

theorem inLastPlace_inLastPlace (ps : List Place) (g h : Place → Place) :
    inLastPlace (inLastPlace ps g) h = inLastPlace ps (h ∘ g) := by
  rcases List.eq_nil_or_concat ps with rfl | ⟨ps, p, rfl⟩
  · rfl
  · rw [List.concat_eq_append, inLastPlace_append, inLastPlace_append, inLastPlace_append]
    rfl

theorem inLastPlace_eq_nil {ps : List Place} {g : Place → Place} :
    inLastPlace ps g = [] ↔ ps = [] := by
  rcases List.eq_nil_or_concat ps with rfl | ⟨ps, p, rfl⟩
  · exact iff_of_true rfl rfl
  · rw [List.concat_eq_append, inLastPlace_append]
    simp

section Lines

variable {x y session : Sdp} {f : Text × Text} {fields : List (Text × Text)}

theorem inLast_places (hs : session.medias = x.medias) {g : Media → Option Media}
    {h : Place → Place} (hg : ∀ m m', g m = some m' → m'.place = h m.place)
    (hy : inLast x g session = some y) :
    y.medias.map Media.place = inLastPlace (x.medias.map Media.place) h := by
  unfold inLast at hy
  rcases hlast : x.medias.getLast? with _ | m
  · rw [hlast] at hy
    rw [← Option.some.inj hy, hs, List.getLast?_eq_none_iff.mp hlast]
    rfl
  · rw [hlast] at hy
    obtain ⟨m', hm', rfl⟩ := Option.map_eq_some_iff.mp hy
    conv_rhs => rw [← List.dropLast_append_getLast? m hlast]
    rw [List.map_append, List.map_append, List.map_singleton, List.map_singleton,
      inLastPlace_append, hg m m' hm']

theorem inLast_isSome {g : Media → Option Media} {p : Prop} (hg : ∀ m, (g m).isSome ↔ p) :
    (inLast x g session).isSome ↔ (x.medias ≠ [] → p) := by
  unfold inLast
  rcases hlast : x.medias.getLast? with _ | m
  · exact iff_of_true rfl fun h => absurd (List.getLast?_eq_none_iff.mp hlast) h
  · have hne : x.medias ≠ [] := fun h => by rw [h] at hlast; cases hlast
    rw [forall_prop_of_true hne, ← hg m]
    exact Bool.eq_iff_iff.mp Option.isSome_map

theorem inLast_address {g : Media → Option Media} (hy : inLast x g session = some y) :
    y.address = if x.medias = [] then session.address else x.address := by
  unfold inLast at hy
  rcases hlast : x.medias.getLast? with _ | m
  · rw [hlast] at hy
    rw [if_pos (List.getLast?_eq_none_iff.mp hlast), Option.some.inj hy]
  · rw [hlast] at hy
    obtain ⟨m', -, rfl⟩ := Option.map_eq_some_iff.mp hy
    rw [if_neg fun h => by rw [h] at hlast; cases hlast]

/-- A line that starts no section goes to the last one, or to the session; or it says nothing of
the places. -/
theorem parseField_line (x : Sdp) (hm : f.1 ≠ text "m") :
    (∃ session : Sdp, session.medias = x.medias ∧
      session.address = (connectionOf f).getD x.address ∧
      parseField x f.1 f.2 = inLast x (·.parseField f) session) ∨
    ∃ y, parseField x f.1 f.2 = some y ∧ y.medias = x.medias ∧ y.address = x.address ∧
      LineSourced f ∧ connectionOf f = none ∧ ∀ p : Place, p.read f = p := by
  obtain ⟨key, val⟩ := f
  by_cases ha : key = text "a"
  · subst ha
    obtain ⟨haddress, hmedias⟩ := parseAttr_frame x (Pair.parse val)
    refine .inl ⟨parseAttr x (Pair.parse val), hmedias, ?_, ?_⟩
    · rw [haddress, connectionOf, if_neg (show ¬text "a" = text "c" by decide), Option.getD_none]
    · rfl
  by_cases hb : key = text "b"
  · subst hb
    exact .inl ⟨{ x with b := x.b ++ [val] }, rfl, rfl, rfl⟩
  by_cases hc : key = text "c"
  · subst hc
    exact .inl ⟨parseConnection x val, parseConnection_medias x val,
      parseConnection_address x val, rfl⟩
  by_cases hy : key = text "y"
  · subst hy
    exact .inl ⟨x, rfl, rfl, rfl⟩
  right
  have hconnection : connectionOf (key, val) = none := if_neg hc
  have hread (p : Place) : p.read (key, val) = p := by
    rw [Place.read, hconnection, rtcpOf, if_neg ha, muxOf, decide_eq_false ha, Bool.false_and,
      Bool.or_false, Option.none_or, Option.none_or]
  obtain ⟨y, hy, hmedias, haddress⟩ : ∃ y, parseField x key val = some y ∧ y.medias = x.medias ∧
      y.address = x.address := by
    dsimp only at hm
    unfold parseField
    split_ifs <;> exact ⟨_, rfl, rfl, rfl⟩
  exact ⟨y, hy, hmedias, haddress, fun h => absurd h ha, hconnection, hread⟩

theorem parseField_places (hm : f.1 ≠ text "m") (hy : parseField x f.1 f.2 = some y) :
    y.medias.map Media.place = inLastPlace (x.medias.map Media.place) (·.read f) := by
  rcases parseField_line x hm with ⟨session, hs, -, hline⟩ | ⟨y', hline, hmedias, -, -, -, hread⟩
  · exact inLast_places hs (fun _ _ => Media.parseField_place) (hline ▸ hy)
  · rw [hline] at hy
    rw [← Option.some.inj hy, hmedias, inLastPlace_self hread]

/-- A line before the first section counts for the address of the session. -/
theorem parseField_address (hm : f.1 ≠ text "m") (hy : parseField x f.1 f.2 = some y) :
    y.address = if x.medias = [] then (connectionOf f).getD x.address else x.address := by
  rcases parseField_line x hm with ⟨session, -, hs, hline⟩ | ⟨y', hline, -, haddress, -, hc, -⟩
  · rw [inLast_address (hline ▸ hy), hs]
  · rw [hline] at hy
    rw [← Option.some.inj hy, haddress, hc, Option.getD_none, ite_self]

theorem parseField_isSome (x : Sdp) (hm : f.1 ≠ text "m") :
    (parseField x f.1 f.2).isSome ↔ (x.medias ≠ [] → LineSourced f) := by
  rcases parseField_line x hm with ⟨session, -, -, hline⟩ | ⟨y', hline, -, -, hsourced, -, -⟩
  · rw [hline]
    exact inLast_isSome fun m => m.parseField_isSome f
  · rw [hline]
    exact iff_of_true rfl fun _ => hsourced

theorem parseField_media (x : Sdp) (hm : f.1 = text "m") :
    parseField x f.1 f.2 =
      some { x with medias := x.medias ++ [({} : Media).parseHeader f.2] } := by
  rw [hm]
  rfl

end Lines

/-- The description behind some lines. -/
def readFields (x : Sdp) (fields : List (Text × Text)) : Option Sdp :=
  fields.foldlM (fun x f => parseField x f.1 f.2) x

theorem parseLine_fieldOf (x : Sdp) (s : Text) :
    parseLine x s = (fieldOf s).elim (some x) fun f => parseField x f.1 f.2 := by
  unfold parseLine fieldOf
  rcases split s (text "=") (some 2) true with _ | ⟨key, _ | ⟨val, rest⟩⟩ <;> rfl

theorem foldlM_parseLine_eq (x : Sdp) (ls : List Text) :
    ls.foldlM parseLine x = readFields x (ls.filterMap fieldOf) := by
  induction ls generalizing x with
  | nil => rfl
  | cons l ls ih =>
    rw [List.foldlM_cons, parseLine_fieldOf]
    rcases hf : fieldOf l with _ | f
    · rw [List.filterMap_cons_none hf]
      exact ih x
    · rw [List.filterMap_cons_some hf, readFields, List.foldlM_cons]
      exact bind_congr fun x' => ih x'

theorem readFields_cons (x : Sdp) (f : Text × Text) (fields : List (Text × Text)) :
    readFields x (f :: fields) = (parseField x f.1 f.2).bind (readFields · fields) := rfl

theorem upToMedia_cons_of_eq {f : Text × Text} (hm : f.1 = text "m")
    (fields : List (Text × Text)) : upToMedia (f :: fields) = [] := by
  rw [upToMedia, List.takeWhile_cons_of_neg]
  simp [hm]

theorem upToMedia_cons_of_ne {f : Text × Text} (hm : f.1 ≠ text "m")
    (fields : List (Text × Text)) : upToMedia (f :: fields) = f :: upToMedia fields := by
  rw [upToMedia, List.takeWhile_cons_of_pos]
  · rfl
  · simpa using hm

/-- The sections of what has been read: the last one there was with the lines up to the next
one, and the new ones. -/
theorem readFields_places {x y : Sdp} {fields : List (Text × Text)}
    (hy : readFields x fields = some y) : y.medias.map Media.place =
      inLastPlace (x.medias.map Media.place) (fun p => (upToMedia fields).foldl Place.read p) ++
        (sections fields).map Section.place := by
  induction fields generalizing x with
  | nil =>
    rw [← Option.some.inj hy]
    exact ((List.append_nil _).trans (inLastPlace_self fun _ => rfl)).symm
  | cons f fields ih =>
    rw [readFields_cons] at hy
    obtain ⟨x', hx', hy⟩ := Option.bind_eq_some_iff.mp hy
    rw [ih hy]
    by_cases hm : f.1 = text "m"
    · have hself : inLastPlace (x.medias.map Media.place) (fun p => [].foldl Place.read p) =
          x.medias.map Media.place := inLastPlace_self fun _ => rfl
      rw [parseField_media x hm] at hx'
      rw [← Option.some.inj hx', List.map_append, List.map_singleton, inLastPlace_append,
        upToMedia_cons_of_eq hm, hself, sections, if_pos hm, List.append_assoc, parseHeader_place]
      rfl
    · rw [parseField_places hm hx', inLastPlace_inLastPlace, upToMedia_cons_of_ne hm, sections,
        if_neg hm]
      rfl

theorem medias_eq_nil_of_places {x y : Sdp} {g : Place → Place}
    (h : y.medias.map Media.place = inLastPlace (x.medias.map Media.place) g) :
    y.medias = [] ↔ x.medias = [] := by
  rw [← List.map_eq_nil_iff (f := Media.place), h, inLastPlace_eq_nil, List.map_eq_nil_iff]

theorem readFields_address {x y : Sdp} {fields : List (Text × Text)}
    (hy : readFields x fields = some y) :
    y.address =
      if x.medias = [] then (connection (upToMedia fields)).getD x.address else x.address := by
  induction fields generalizing x with
  | nil =>
    rw [← Option.some.inj hy]
    exact (ite_self _).symm
  | cons f fields ih =>
    rw [readFields_cons] at hy
    obtain ⟨x', hx', hy⟩ := Option.bind_eq_some_iff.mp hy
    rw [ih hy]
    by_cases hm : f.1 = text "m"
    · rw [parseField_media x hm] at hx'
      rw [← Option.some.inj hx', if_neg (by simp), upToMedia_cons_of_eq hm]
      exact (ite_self _).symm
    · rw [parseField_address hm hx', upToMedia_cons_of_ne hm]
      simp only [medias_eq_nil_of_places (parseField_places hm hx')]
      split_ifs with hnil
      · rw [connection, connection]
        rcases hf : connectionOf f with _ | address
        · rw [List.filterMap_cons_none hf]
          rfl
        · rw [List.filterMap_cons_some hf, Option.getD_some]
          rcases (upToMedia fields).filterMap connectionOf with _ | ⟨b, l⟩
          · rfl
          · rw [List.getLast?_cons_cons, List.getLast?_eq_some_getLast (List.cons_ne_nil b l)]
            rfl
      · rfl

/-- The lines are read where those of a section name the sources that they are about. -/
theorem readFields_isSome (x : Sdp) (fields : List (Text × Text)) :
    (readFields x fields).isSome ↔
      (x.medias ≠ [] → ∀ f ∈ upToMedia fields, LineSourced f) ∧
        ∀ sec ∈ sections fields, ∀ f ∈ sec.fields, LineSourced f := by
  induction fields generalizing x with
  | nil => exact iff_of_true rfl ⟨fun _ => List.forall_mem_nil _, List.forall_mem_nil _⟩
  | cons f fields ih =>
    rw [readFields_cons]
    by_cases hm : f.1 = text "m"
    · rw [parseField_media x hm, Option.bind_some, ih, upToMedia_cons_of_eq hm, sections,
        if_pos hm, List.forall_mem_cons]
      simp
    · rw [upToMedia_cons_of_ne hm, sections, if_neg hm, List.forall_mem_cons]
      have hsome := parseField_isSome x hm
      rcases hline : parseField x f.1 f.2 with _ | x'
      · rw [hline] at hsome
        have hnot : ¬ (x.medias ≠ [] → LineSourced f) := fun h => absurd (hsome.mpr h) (by simp)
        exact iff_of_false (by simp) fun h => hnot fun hne => (h.1 hne).1
      · rw [hline] at hsome
        have hthis := hsome.mp rfl
        rw [Option.bind_some, ih, Ne, medias_eq_nil_of_places (parseField_places hm hline)]
        exact and_congr_left' ⟨fun h hne => ⟨hthis hne, h hne⟩, fun h hne => (h hne).2⟩

/-- What the end of the parser adds. -/
theorem complete_place (m : Media) (x : Sdp) :
    (m.complete x).rtpPort = m.place.port ∧
      (m.complete x).rtpAddress = m.place.address.getD x.address ∧
      (m.complete x).rtcpAddress = (m.place.rtcp.map Prod.snd).getD x.address ∧
      (m.complete x).rtcpMux = m.place.mux := by
  obtain ⟨P, hP⟩ : ∃ P : Media → Prop, P = fun m' : Media => m'.rtpPort = m.place.port ∧
      m'.rtpAddress = m.place.address.getD x.address ∧
      m'.rtcpAddress = (m.place.rtcp.map Prod.snd).getD x.address ∧
      m'.rtcpMux = m.place.mux := ⟨_, rfl⟩
  suffices h : P (m.complete x) by
    rw [hP] at h
    exact h
  unfold Media.complete
  extract_lets m₁ m₂ m₃
  -- the fingerprint of the session names no place
  have h₁ : m₁.place = m.place := by
    rcases hfind : x.attrs.find? (fun a => a.key = text "fingerprint") with _ | attr
    · simp only [m₁, hfind]
    · have hkey : attr.key = text "fingerprint" := by simpa using List.find?_some hfind
      simp only [m₁, hfind]
      split_ifs
      · rw [setAttribute_place, rtcpOfAttr, hkey, if_neg (by decide), Option.none_or,
          decide_eq_false (by decide), Bool.or_false]
      · rfl
  have h₂ : m₂.rtpPort = m₁.rtpPort ∧ m₂.rtpAddress = m₁.place.address.getD x.address ∧
      m₂.hasRtcp = m₁.hasRtcp ∧ m₂.rtcpAddress = m₁.rtcpAddress ∧ m₂.rtcpMux = m₁.rtcpMux := by
    by_cases hhas : m₁.hasRtpAddress = true
    · simp [m₂, hhas, Media.place]
    · simp [m₂, hhas, Media.place]
  have h₃ : m₃.rtpPort = m₂.rtpPort ∧ m₃.rtpAddress = m₂.rtpAddress ∧
      m₃.rtcpAddress = (if m₂.hasRtcp then m₂.rtcpAddress else x.address) ∧
      m₃.rtcpMux = m₂.rtcpMux := by
    by_cases hhas : m₂.hasRtcp = true
    · simp [m₃, hhas]
    · simp [m₃, hhas]
  have hend : P m₃ := by
    rw [hP, ← h₁]
    refine ⟨h₃.1.trans h₂.1, h₃.2.1.trans h₂.2.1, ?_, h₃.2.2.2.trans h₂.2.2.2.2⟩
    rw [h₃.2.2.1, h₂.2.2.1, h₂.2.2.2.1, Media.place]
    dsimp only
    split_ifs <;> rfl
  split_ifs
  · rw [hP] at hend ⊢
    exact hend
  · rw [hP] at hend ⊢
    exact hend
  · exact hend

/-- The parser is defined where the lines of the sections name the sources that they are about. -/
theorem parse_isSome (x : Sdp) (s : Text) : (parse x s).isSome ↔ Sourced s := by
  rw [parse, Option.isSome_map, foldlM_parseLine_eq, readFields_isSome]
  exact and_iff_right fun h => absurd rfl h

/-- Each section of a parsed description has the places of its lines, and else the address of
the session. -/
theorem parse_medias {x y : Sdp} {s : Text} (hy : parse x s = some y) :
    y.medias.length = (sections (fieldsOf s)).length ∧
      ∀ (i : ℕ) (sec : Section) (m : Media), (sections (fieldsOf s))[i]? = some sec →
        y.medias[i]? = some m →
        m.rtpPort = headerPort sec.header ∧
        m.rtpAddress = (connection sec.fields).getD
          ((connection (upToMedia (fieldsOf s))).getD x.address) ∧
        m.rtcpAddress = ((rtcpLine sec.fields).map Prod.snd).getD
          ((connection (upToMedia (fieldsOf s))).getD x.address) ∧
        m.rtcpMux = muxed sec.fields := by
  obtain ⟨z, hz, rfl⟩ := Option.map_eq_some_iff.mp hy
  rw [foldlM_parseLine_eq, ← fieldsOf] at hz
  have hplaces : z.medias.map Media.place = (sections (fieldsOf s)).map Section.place :=
    readFields_places hz
  have haddress : z.address = (connection (upToMedia (fieldsOf s))).getD x.address :=
    readFields_address hz
  have hlength := congrArg List.length hplaces
  rw [List.length_map, List.length_map] at hlength
  refine ⟨(List.length_map _).trans hlength, fun i sec m hsec hm => ?_⟩
  obtain ⟨n, hn, rfl⟩ : ∃ n, z.medias[i]? = some n ∧ n.complete z = m := by
    rw [List.getElem?_map] at hm
    exact Option.map_eq_some_iff.mp hm
  have hplace : n.place = sec.place := by
    have hi := congrArg (·[i]?) hplaces
    simp only [List.getElem?_map, hn, hsec, Option.map_some] at hi
    exact Option.some.inj hi
  have hcomplete := complete_place n z
  rw [hplace, sec.place_eq, haddress] at hcomplete
  exact hcomplete

end CxxDeps.Sdp
