import CxxDeps.Hypertext.Uri

/-! What the text of an address is read as: the address without a slash in front of the path,
and with a zero behind the value of the last argument. -/

namespace CxxDeps.Hypertext

open Sys

namespace Uri

/-! ### What an address is read as -/

/-- The scheme and the host are not empty and without the characters that end them, the port
is one, the path is without a question mark, and the keys are not cut. -/
structure Delimited (u : Uri) : Prop where
  protocal_ne : u.protocal ≠ []
  protocal_plain : ∀ c ∈ u.protocal, c ∉ text "/:?"
  host_ne : u.host ≠ []
  host_plain : ∀ c ∈ u.host, c ∉ text "/:?"
  port_low : -2 ^ 31 ≤ u.port
  port_high : u.port < 2 ^ 31
  path_plain : 0x3F ∉ u.path
  keys : ∀ a ∈ u.args, PlainKey a.1

/-- The same path, up to one slash in front. -/
def SamePath (p q : Text) : Prop := p = q ∨ p = 0x2F :: q ∨ q = 0x2F :: p

/-- The same address, up to a slash in front of the path and the number of a port that is
not given. -/
structure Same (u v : Uri) : Prop where
  protocal : v.protocal = u.protocal
  host : v.host = u.host
  isDefaultPort : v.isDefaultPort = u.isDefaultPort
  port : u.isDefaultPort = false → v.port = u.port
  path : SamePath u.path v.path
  args : v.args = u.args

/-- The text of the address is read as the address. -/
def RoundTrips (y : UInt8) (u : Uri) : Prop := ∃ v, parse y u.toText = some v ∧ Same u v

/-- The path without a slash in front. -/
def barePath (path : Text) : Text := if path.head? = some 0x2F then path.tail else path

theorem samePath_barePath (path : Text) : SamePath path (barePath path) := by
  unfold barePath
  split_ifs with hhead
  · obtain ⟨rest, rfl⟩ := List.head?_eq_some_iff.mp hhead
    exact .inr (.inl rfl)
  · exact .inl rfl

/-- The host, and the port if it is given. -/
def hostPort (u : Uri) : Text :=
  u.host ++ if u.isDefaultPort then [] else 0x3A :: decimal u.port

/-- The host, the port and the path. -/
def hostPath (u : Uri) : Text :=
  u.hostPort ++ if u.path = [] then [] else 0x2F :: barePath u.path

theorem toText_eq (u : Uri) :
    u.toText = u.protocal ++ (0x3A :: [0x2F, 0x2F] ++
      (u.hostPath ++ if u.args ≠ [] then 0x3F :: u.toQueryString else [])) := by
  have hpath : (if u.path ≠ [] then (if u.path.head? ≠ some 0x2F then text "/" else []) ++ u.path
      else []) = if u.path = [] then [] else 0x2F :: barePath u.path := by
    unfold barePath
    cases u.path with
    | nil => rfl
    | cons c path =>
      by_cases hc : c = 0x2F
      · simp [hc]
      · simp [hc]
        rfl
  rw [toText, hpath]
  simp only [hostPath, hostPort, List.append_assoc]
  rfl

theorem decimal_plain (n : ℤ) : ∀ c ∈ decimal n, c ∉ text "/:?" := by
  have hdigit (c : UInt8) : isDigit 10 c = true ∨ c = 0x2D → c ∉ text "/:?" := by
    revert c
    exact Library.forall_uint8 (by decide +kernel)
  intro c hc
  apply hdigit c
  cases n with
  | ofNat k => exact .inl ((decimal_digits k).2 c hc)
  | negSucc k =>
    rw [decimal_negSucc, List.mem_cons] at hc
    rcases hc with rfl | hc
    · exact .inr rfl
    · exact .inl ((decimal_digits (k + 1)).2 c hc)

theorem notMem_of_plain {s : Text} (h : ∀ c ∈ s, c ∉ text "/:?") :
    0x2F ∉ s ∧ 0x3A ∉ s ∧ 0x3F ∉ s :=
  ⟨fun hc => h _ hc (by decide), fun hc => h _ hc (by decide), fun hc => h _ hc (by decide)⟩

theorem Delimited.hostPort_plain {u : Uri} (h : u.Delimited) :
    u.hostPort ≠ [] ∧ 0x2F ∉ u.hostPort ∧ 0x3F ∉ u.hostPort := by
  obtain ⟨hslash, -, hquestion⟩ := notMem_of_plain h.host_plain
  obtain ⟨hslash', -, hquestion'⟩ := notMem_of_plain (decimal_plain u.port)
  refine ⟨by simp [hostPort, h.host_ne], ?_⟩
  unfold hostPort
  split_ifs <;> simp [hslash, hquestion, hslash', hquestion']

theorem headD_keepPart (s : Text) : (keepPart true [] s).headD [] = s := by
  cases s <;> rfl

theorem Delimited.split_hostPath {u : Uri} (h : u.Delimited) :
    ∃ rest, split u.hostPath (text "/") (some 2) true = u.hostPort :: rest ∧
      rest.headD [] = barePath u.path := by
  obtain ⟨hne, hslash, -⟩ := h.hostPort_plain
  unfold hostPath
  split_ifs with hpath
  · rw [hpath, List.append_nil]
    exact ⟨[], split_two_of_notMem hslash hne, rfl⟩
  · exact ⟨_, split_two_pattern (p := []) hslash hne _, headD_keepPart _⟩

theorem Delimited.split_hostPort {u : Uri} (h : u.Delimited) :
    ∃ rest, split u.hostPort (text ":") (some 2) true = u.host :: rest ∧
      rest.head?.elim 0 (fun p => toInt32 (strtol 10 p)) =
        (if u.isDefaultPort then 0 else u.port) ∧
      rest.isEmpty = u.isDefaultPort := by
  have hcolon := (notMem_of_plain h.host_plain).2.1
  unfold hostPort
  split_ifs with hdefault
  · rw [List.append_nil, hdefault]
    exact ⟨[], split_two_of_notMem hcolon h.host_ne, rfl, rfl⟩
  · have hdecimal : decimal u.port ≠ [] := by
      cases hport : u.port with
      | ofNat k => exact (decimal_digits k).1
      | negSucc k => rw [decimal_negSucc]; exact List.cons_ne_nil _ _
    have hread : strtol 10 (decimal u.port) = u.port :=
      strtol_decimal (by have := h.port_low; omega) (by have := h.port_high; omega)
    refine ⟨[decimal u.port], split_two hcolon h.host_ne hdecimal, ?_, by simpa using hdefault⟩
    have hlow := h.port_low
    have hhigh := h.port_high
    show toInt32 (strtol 10 (decimal u.port)) = u.port
    rw [hread, toInt32, Int.bmod_eq_of_le]
    · omega
    · omega

/-- The host, the port and the path are read from their text. -/
theorem Delimited.parseHostPath {u : Uri} (h : u.Delimited) (v : Uri) :
    v.parseHostPath u.hostPath = some { v with
      path := barePath u.path
      host := u.host
      port := if u.isDefaultPort then 0 else u.port
      isDefaultPort := u.isDefaultPort } := by
  obtain ⟨hne, hslash, -⟩ := h.hostPort_plain
  obtain ⟨c, s, hcons⟩ := List.exists_cons_of_ne_nil hne
  have hhead : u.hostPath.head? ≠ some 0x2F := by
    rw [hcons] at hslash
    rw [hostPath, hcons, List.cons_append, List.head?_cons]
    exact fun heq => hslash (Option.some.inj heq ▸ List.mem_cons_self)
  obtain ⟨path, hpath, hbare⟩ := h.split_hostPath
  obtain ⟨port, hport, hnumber, hdefault⟩ := h.split_hostPort
  rw [Uri.parseHostPath, if_neg hhead, hpath]
  dsimp only
  rw [hport]
  dsimp only
  rw [hbare, hnumber, hdefault]

/-- The arguments that are read from a query: those in front of the last one that have a
value, and the last one with a zero behind its value. -/
def readArgs (args : List (Text × Text)) : List (Text × Text) :=
  match args.getLast? with
  | none => []
  | some (key, v) => args.dropLast.filter (fun a => a.2 ≠ []) ++ [(key, v ++ [0])]

theorem readArgs_concat (args : List (Text × Text)) (key v : Text) :
    readArgs (args ++ [(key, v)]) = args.filter (fun a => a.2 ≠ []) ++ [(key, v ++ [0])] := by
  rw [readArgs, List.getLast?_concat, List.dropLast_concat]

/-- What is behind the scheme, with the arguments or without them. -/
theorem Delimited.parsePathQuery {u : Uri} (h : u.Delimited) (y : UInt8) (v : Uri) :
    parsePathQuery y v (u.hostPath ++ if u.args ≠ [] then 0x3F :: u.toQueryString else []) =
      some { v with
        path := barePath u.path
        host := u.host
        port := if u.isDefaultPort then 0 else u.port
        isDefaultPort := u.isDefaultPort
        args := readArgs u.args } := by
  have hne : u.hostPath ≠ [] := by
    rw [hostPath]
    simp [h.hostPort_plain.1]
  have hquestion : 0x3F ∉ u.hostPath := by
    have hbare : 0x3F ∉ barePath u.path := by
      unfold barePath
      split_ifs
      · exact fun hc => h.path_plain (List.mem_of_mem_tail hc)
      · exact h.path_plain
    unfold hostPath
    split_ifs <;> simp [h.hostPort_plain.2.2, hbare]
  by_cases hargs : u.args = []
  · rw [if_neg (not_not.mpr hargs), List.append_nil, Uri.parsePathQuery,
      show split u.hostPath (text "?") (some 2) true = _ from split_two_of_notMem hquestion hne]
    show ({ v with args := [] } : Uri).parseHostPath u.hostPath = _
    rw [h.parseHostPath, hargs]
    rfl
  · obtain ⟨args, ⟨key, value⟩, hlast⟩ : ∃ args last, u.args = args ++ [last] :=
      ⟨_, _, (List.dropLast_append_getLast hargs).symm⟩
    have hquery : u.toQueryString ≠ [] := by
      rw [toQueryString_concat hlast]
      simp
    rw [if_pos hargs, Uri.parsePathQuery,
      show split (u.hostPath ++ 0x3F :: u.toQueryString) (text "?") (some 2) true = _ from
        split_two hquestion hne hquery]
    show ((parseQueryString y u.toQueryString).bind fun args =>
      ({ v with args } : Uri).parseHostPath u.hostPath) = _
    rw [parseQueryString_toQueryString y hlast h.keys, Option.bind_some, h.parseHostPath, hlast,
      readArgs_concat]

/-- What the text of an address is read as. -/
theorem Delimited.parse_toText {u : Uri} (h : u.Delimited) (y : UInt8) :
    parse y u.toText = some { u with
      path := barePath u.path
      port := if u.isDefaultPort then 0 else u.port
      args := readArgs u.args
      raw := u.toText } := by
  have hcolon := (notMem_of_plain h.protocal_plain).2.1
  have hne : u.hostPath ++ (if u.args ≠ [] then 0x3F :: u.toQueryString else []) ≠ [] := by
    rw [hostPath]
    simp [h.hostPort_plain.1]
  have hsplit : split u.toText (text "://") (some 2) true =
      u.protocal :: [u.hostPath ++ if u.args ≠ [] then 0x3F :: u.toQueryString else []] := by
    have hkeep : keepPart true [] (u.hostPath ++
        if u.args ≠ [] then 0x3F :: u.toQueryString else []) = [_] :=
      if_neg (by rwa [Bool.true_and, List.isEmpty_iff])
    rw [toText_eq, ← hkeep]
    exact split_two_pattern hcolon h.protocal_ne _
  rw [parse, hsplit]
  dsimp only
  rw [h.parsePathQuery]
  rfl

/-- The last argument comes back with a zero behind its value. -/
theorem readArgs_eq_self_iff (args : List (Text × Text)) : readArgs args = args ↔ args = [] := by
  constructor
  · intro h
    by_contra hne
    obtain ⟨init, ⟨key, value⟩, rfl⟩ : ∃ init last, args = init ++ [last] :=
      ⟨_, _, (List.dropLast_append_getLast hne).symm⟩
    rw [readArgs_concat] at h
    have hlast := (List.append_inj_right' h rfl)
    simp at hlast
  · rintro rfl
    rfl

theorem Delimited.roundTrips_iff {u : Uri} (h : u.Delimited) (y : UInt8) :
    u.RoundTrips y ↔ u.args = [] := by
  rw [← readArgs_eq_self_iff]
  constructor
  · rintro ⟨v, hparse, hsame⟩
    rw [h.parse_toText] at hparse
    cases hparse
    exact hsame.args
  · intro hargs
    refine ⟨_, h.parse_toText y, rfl, rfl, rfl, fun hport => ?_, samePath_barePath u.path, hargs⟩
    simp [hport]

/-- An address comes back from its text where it has no arguments. What is escaped comes back,
and decoding stays inside a text where the escapes have a character behind the percent
sign. -/
theorem uri_codec_iff (y : UInt8) {u : Uri} (h : u.Delimited) (s : Text) :
    (u.RoundTrips y ∧ urlDecode y (urlEncode s) = some s ∧ (urlDecode y s).isSome = true) ↔
      u.args = [] ∧ escapesEnd s = true := by
  rw [h.roundTrips_iff, isSome_urlDecode]
  constructor
  · rintro ⟨hargs, -, hends⟩
    exact ⟨hargs, hends⟩
  · rintro ⟨hargs, hends⟩
    exact ⟨hargs, urlDecode_urlEncode y s, hends⟩

theorem plain_of_all {s : Text} (h : (s.all fun c => !(text "/:?").contains c) = true) :
    ∀ c ∈ s, c ∉ text "/:?" := by
  simpa using h

/-- A camera, with its port. -/
def camera (args : List (Text × Text)) : Uri where
  protocal := text "rtsp"
  host := text "192.168.1.64"
  port := 554
  isDefaultPort := false
  path := text "/live/main"
  args

theorem camera_delimited {args : List (Text × Text)} (hkeys : ∀ a ∈ args, PlainKey a.1) :
    (camera args).Delimited where
  protocal_ne := show text "rtsp" ≠ [] by decide
  protocal_plain := plain_of_all (s := text "rtsp") (by decide)
  host_ne := show text "192.168.1.64" ≠ [] by decide
  host_plain := plain_of_all (s := text "192.168.1.64") (by decide)
  port_low := show -2 ^ 31 ≤ (554 : ℤ) by decide
  port_high := show (554 : ℤ) < 2 ^ 31 by decide
  path_plain := show 0x3F ∉ text "/live/main" by decide
  keys := hkeys

theorem uri_codec_camera :
    ((camera []).RoundTrips 0 ∧ urlDecode 0 (urlEncode (text "a b%")) = some (text "a b%") ∧
        (urlDecode 0 (text "a b%")).isSome = true) ↔
      (camera []).args = [] ∧ escapesEnd (text "a b%") = true :=
  uri_codec_iff 0 (camera_delimited (List.forall_mem_nil _)) _

/-- With a channel in the query the value comes back longer. -/
theorem uri_codec_fails :
    ¬ ∀ (y : UInt8) (u : Uri), u.Delimited → ∀ s : Text,
      u.RoundTrips y ∧ urlDecode y (urlEncode s) = some s ∧ (urlDecode y s).isSome = true := by
  intro h
  have hkeys : ∀ a ∈ [(text "channel", text "1")], PlainKey a.1 := by
    intro a ha
    rw [List.mem_singleton.mp ha]
    exact ⟨by decide, by decide, by decide⟩
  have htrip := (h 0 _ (camera_delimited hkeys) []).1
  rw [(camera_delimited hkeys).roundTrips_iff] at htrip
  cases htrip

end Uri

end CxxDeps.Hypertext
