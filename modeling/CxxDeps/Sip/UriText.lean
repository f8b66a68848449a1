import CxxDeps.Sip.Address
import CxxDeps.Sip.Via

/-! The text of a URI, and when `parse` gives the same value back. A host is read up to its
first colon, and a host without a user name and without a port is read as a user name. -/

namespace CxxDeps.Sip

open Sys Hypertext

/-- A parameter as it is written, with the semicolon in front. -/
def itemText (item : Item) : Text := text ";" ++ item.name ++ text "=" ++ item.value

/-- `voip_uri::to_string`. -/
def VoipUri.toText (uri : VoipUri) : Text :=
  (if uri.scheme ≠ [] then uri.scheme ++ text ":" else []) ++
  (if uri.username.length > 0 then uri.username else []) ++
  (if uri.username.length > 0 ∧ uri.host.length > 0 then text "@" else []) ++
  (if uri.host.length > 0 then uri.host else []) ++
  (if uri.port > 0 then text ":" ++ decimal uri.port else []) ++
  uri.queries.flatMap itemText

/-! ### Parameters -/

/-- A parameter that is read again: a value has a name, and neither has a separator. -/
structure PlainItem (item : Item) : Prop where
  name_equals : 0x3D ∉ item.name
  name_semicolon : 0x3B ∉ item.name
  value_semicolon : 0x3B ∉ item.value
  named : item.name = [] → item.value = []

def itemPart (item : Item) : Text := item.name ++ 0x3D :: item.value

theorem itemText_eq (item : Item) : itemText item = 0x3B :: itemPart item := by
  have hsemicolon : text ";" = [0x3B] := by decide
  have hequals : text "=" = [0x3D] := by decide
  rw [itemText, itemPart, hsemicolon, hequals]
  simp

theorem PlainItem.part {item : Item} (h : PlainItem item) :
    itemPart item ≠ [] ∧ 0x3B ∉ itemPart item := by
  have := h.name_semicolon
  have := h.value_semicolon
  unfold itemPart
  simp_all

/-- One part of a list, cut at its first `=`. -/
def parseItemPart (q : Text) : Item :=
  let nv := split q (text "=") (some 2) true
  ⟨nv.getD 0 [], nv.getD 1 []⟩

theorem parseQueries_eq (s : Text) :
    parseQueries s = (split s (text ";") none true).map parseItemPart := rfl

theorem PlainItem.parseItemPart_eq {item : Item} (h : PlainItem item) :
    parseItemPart (itemPart item) = item := by
  obtain ⟨name, value⟩ := item
  by_cases hname : name = []
  · obtain rfl : name = [] := hname
    obtain rfl : value = [] := h.named rfl
    decide
  · have hsplit : split (itemPart ⟨name, value⟩) (text "=") (some 2) true =
        name :: keepPart true [] value := split_two_pattern (p := []) h.name_equals hname value
    rw [parseItemPart, hsplit]
    cases value <;> rfl

/-- What is read from a part is plain. -/
theorem plainItem_parseItemPart {q : Text} (h : 0x3B ∉ q) : PlainItem (parseItemPart q) := by
  have hwithin : ∀ part ∈ split q (text "=") (some 2) true, part ≠ [] ∧ 0x3B ∉ part := by
    intro part hpart
    obtain ⟨hsub, hne⟩ := part_of_mem_split hpart
    exact ⟨hne rfl, fun hmem => h (hsub.subset hmem)⟩
  unfold parseItemPart
  cases hsplit : split q (text "=") (some 2) true with
  | nil => exact ⟨List.not_mem_nil, List.not_mem_nil, List.not_mem_nil, fun _ => rfl⟩
  | cons name rest =>
    rw [hsplit] at hwithin
    obtain ⟨hname, hrest⟩ := List.forall_mem_cons.mp hwithin
    have hequals : 0x3D ∉ name := notMem_of_split_two hsplit
    cases rest with
    | nil => exact ⟨hequals, hname.2, List.not_mem_nil, fun _ => rfl⟩
    | cons value rest =>
      have hvalue := (List.forall_mem_cons.mp hrest).1
      exact ⟨hequals, hname.2, hvalue.2, fun h => absurd h hname.1⟩

theorem plainItem_parseQueries (s : Text) : ∀ item ∈ parseQueries s, PlainItem item := by
  intro item hitem
  rw [parseQueries_eq] at hitem
  obtain ⟨q, hq, rfl⟩ := List.mem_map.mp hitem
  exact plainItem_parseItemPart (notMem_of_mem_split hq).1

/-- A first part and a list of parameters. -/
theorem split_itemText {head : Text} (hhead : head ≠ [] ∧ 0x3B ∉ head) {items : List Item}
    (h : ∀ item ∈ items, PlainItem item) :
    split (head ++ items.flatMap itemText) (text ";") none true = head :: items.map itemPart := by
  rw [funext itemText_eq]
  exact split_append_flatMap hhead fun item hitem => (h item hitem).part

/-- A list of parameters, with the first semicolon or without it. -/
theorem parseQueries_itemText {items : List Item} (h : ∀ item ∈ items, PlainItem item) :
    parseQueries (items.flatMap itemText) = items ∧
      parseQueries (items.flatMap itemText).tail = items := by
  cases items with
  | nil => exact ⟨rfl, rfl⟩
  | cons item items =>
    obtain ⟨hitem, hitems⟩ := List.forall_mem_cons.mp h
    have htail : parseQueries (itemPart item ++ items.flatMap itemText) = item :: items := by
      rw [parseQueries_eq, split_itemText hitem.part hitems, List.map_cons, List.map_map,
        hitem.parseItemPart_eq]
      congr 1
      conv_rhs => rw [← List.map_id items]
      exact List.map_congr_left fun i hi => (hitems i hi).parseItemPart_eq
    have hcut : split (0x3B :: (itemPart item ++ items.flatMap itemText)) (text ";") none true =
        split (itemPart item ++ items.flatMap itemText) (text ";") none true := split_cons_sep _ _
    rw [List.flatMap_cons, itemText_eq, List.cons_append, List.tail_cons, htail, parseQueries_eq,
      hcut, ← parseQueries_eq]
    exact ⟨htail, rfl⟩

/-! ### The user, the host and the port -/

namespace VoipUri

/-- What is behind the scheme. -/
def parseUser (nameHostPort : Text) (uri : VoipUri) : VoipUri :=
  match split nameHostPort (text "@") (some 2) false with
  | username :: hostPort :: _ =>
    let uri := { uri with username }
    match split hostPort (text ":") (some 2) true with
    | host :: port :: _ => { uri with host, port := toInt32 (strtol 10 port) }
    | [host] => { uri with host }
    | [] => uri
  | _ =>
    match split nameHostPort (text ":") (some 2) false with
    | host :: port :: _ => { uri with host, port := toInt32 (strtol 10 port) }
    | [username] => { uri with username }
    | [] => uri

theorem parseHost_eq (host : Text) (uri : VoipUri) :
    parseHost host uri =
      if icasecompare (host.take 4) (text "sip:") then
        parseUser (host.drop 4) { uri with scheme := text "sip" }
      else if icasecompare (host.take 5) (text "h323:") then
        parseUser (host.drop 5) { uri with scheme := text "h323" }
      else parseUser host uri := by
  unfold parseHost parseUser
  split_ifs <;> rfl

/-- With a user name everything up to the `@` is the user name. -/
theorem parseUser_at {username : Text} (h : 0x40 ∉ username) (hostPort : Text) (uri : VoipUri) :
    parseUser (username ++ 0x40 :: hostPort) uri =
      match split hostPort (text ":") (some 2) true with
      | host :: port :: _ => { uri with username, host, port := toInt32 (strtol 10 port) }
      | [host] => { uri with username, host }
      | [] => { uri with username } := by
  have hsplit : split (username ++ 0x40 :: hostPort) (text "@") (some 2) false =
      [username, hostPort] := split_two_keep h hostPort
  rw [parseUser, hsplit]

/-- Without one, what is in front of the first colon is the host. -/
theorem parseUser_colon {host : Text} (hhost : 0x40 ∉ host) (hcolon : 0x3A ∉ host) {port : Text}
    (hport : 0x40 ∉ port) (uri : VoipUri) :
    parseUser (host ++ 0x3A :: port) uri =
      { uri with host, port := toInt32 (strtol 10 port) } := by
  have hat : 0x40 ∉ host ++ 0x3A :: port := by simp [hhost, hport]
  have hsplit : split (host ++ 0x3A :: port) (text "@") (some 2) false = [host ++ 0x3A :: port] :=
    split_two_keep_of_notMem hat (by simp)
  have hsplit' : split (host ++ 0x3A :: port) (text ":") (some 2) false = [host, port] :=
    split_two_keep hcolon port
  rw [parseUser, hsplit]
  dsimp only
  rw [hsplit']

/-- With neither, all of it is the user name. -/
theorem parseUser_name {name : Text} (hname : name ≠ []) (hat : 0x40 ∉ name)
    (hcolon : 0x3A ∉ name) (uri : VoipUri) :
    parseUser name uri = { uri with username := name } := by
  have hsplit : split name (text "@") (some 2) false = [name] :=
    split_two_keep_of_notMem hat hname
  have hsplit' : split name (text ":") (some 2) false = [name] :=
    split_two_keep_of_notMem hcolon hname
  rw [parseUser, hsplit]
  dsimp only
  rw [hsplit']

theorem parseUser_nil (uri : VoipUri) : parseUser [] uri = uri := by
  rw [parseUser, split_nil]
  dsimp only
  rw [split_nil]

/-- The user name has no `@`, the host has no colon, and both stand in the text. -/
theorem parseUser_spec (s : Text) (uri : VoipUri) (husername : uri.username = [])
    (hhost : uri.host = []) :
    0x40 ∉ (parseUser s uri).username ∧ 0x3A ∉ (parseUser s uri).host ∧
      (∀ c, c ∉ s → c ∉ (parseUser s uri).username ∧ c ∉ (parseUser s uri).host) ∧
      (parseUser s uri).scheme = uri.scheme ∧ (parseUser s uri).queries = uri.queries := by
  by_cases hat : 0x40 ∈ s
  · obtain ⟨username, hostPort, rfl, husername'⟩ := List.eq_append_cons_of_mem hat
    rw [parseUser_at husername']
    have hwithin : ∀ part ∈ split hostPort (text ":") (some 2) true, ∀ c, c ∈ part →
        c ∈ hostPort := fun part hpart c hc => (part_of_mem_split hpart).1.subset hc
    cases hsplit : split hostPort (text ":") (some 2) true with
    | nil =>
      refine ⟨husername', by simp [hhost], ?_, rfl, rfl⟩
      intro c hc
      simp_all
    | cons host rest =>
      rw [hsplit] at hwithin
      have hcolon : 0x3A ∉ host := notMem_of_split_two hsplit
      have hchars (c : UInt8) (hc : c ∉ username ++ 0x40 :: hostPort) :
          c ∉ username ∧ c ∉ host := by
        rw [List.mem_append, List.mem_cons, not_or, not_or] at hc
        exact ⟨hc.1, fun hmem => hc.2.2 (hwithin host List.mem_cons_self c hmem)⟩
      cases rest <;> exact ⟨husername', hcolon, hchars, rfl, rfl⟩
  · by_cases hempty : s = []
    · subst hempty
      rw [parseUser_nil, husername, hhost]
      simp
    by_cases hcolon : 0x3A ∈ s
    · obtain ⟨host, port, rfl, hhost'⟩ := List.eq_append_cons_of_mem hcolon
      rw [List.mem_append, List.mem_cons, not_or, not_or] at hat
      rw [parseUser_colon hat.1 hhost' hat.2.2]
      refine ⟨by simp [husername], hhost', ?_, rfl, rfl⟩
      intro c hc
      simp_all
    · rw [parseUser_name hempty hat hcolon]
      refine ⟨hat, by simp [hhost], ?_, rfl, rfl⟩
      intro c hc
      simp_all

/-! ### What was read -/

/-- The schemes that are read. -/
def IsScheme (scheme : Text) : Prop := scheme = text "sip" ∨ scheme = text "h323"

/-- A character that is in no text of the URI. -/
def Lacks (uri : VoipUri) (c : UInt8) : Prop :=
  c ∉ uri.username ∧ c ∉ uri.host ∧ ∀ item ∈ uri.queries, c ∉ item.name ∧ c ∉ item.value

theorem parseHost_spec (host : Text) :
    IsScheme (parseHost host {}).scheme ∧ 0x40 ∉ (parseHost host {}).username ∧
      0x3A ∉ (parseHost host {}).host ∧ (parseHost host {}).queries = [] ∧
      ∀ c, c ∉ host → c ∉ (parseHost host {}).username ∧ c ∉ (parseHost host {}).host := by
  have hdrop (n : ℕ) (c : UInt8) (hc : c ∉ host) : c ∉ host.drop n := fun hmem =>
    hc (List.mem_of_mem_drop hmem)
  rw [parseHost_eq]
  split_ifs
  · obtain ⟨hat, hcolon, hchars, hscheme, hqueries⟩ :=
      parseUser_spec (host.drop 4) { scheme := text "sip" } rfl rfl
    exact ⟨.inl hscheme, hat, hcolon, hqueries, fun c hc => hchars c (hdrop 4 c hc)⟩
  · obtain ⟨hat, hcolon, hchars, hscheme, hqueries⟩ :=
      parseUser_spec (host.drop 5) { scheme := text "h323" } rfl rfl
    exact ⟨.inr hscheme, hat, hcolon, hqueries, fun c hc => hchars c (hdrop 5 c hc)⟩
  · obtain ⟨hat, hcolon, hchars, hscheme, hqueries⟩ := parseUser_spec host {} rfl rfl
    exact ⟨.inl hscheme, hat, hcolon, hqueries, hchars⟩

theorem lacks_parseQueries {s : Text} {c : UInt8} (hc : c ∉ s) :
    ∀ item ∈ parseQueries s, c ∉ item.name ∧ c ∉ item.value := by
  intro item hitem
  rw [parseQueries_eq] at hitem
  obtain ⟨q, hq, rfl⟩ := List.mem_map.mp hitem
  have hpart : ∀ part ∈ split q (text "=") (some 2) true, c ∉ part := fun part hpart hmem =>
    hc ((part_of_mem_split hq).1.subset ((part_of_mem_split hpart).1.subset hmem))
  have hget (n : ℕ) : c ∉ (split q (text "=") (some 2) true).getD n [] := by
    rw [List.getD_eq_getElem?_getD]
    cases hn : (split q (text "=") (some 2) true)[n]? with
    | none => exact List.not_mem_nil
    | some part => exact hpart part (List.mem_of_getElem? hn)
  exact ⟨hget 0, hget 1⟩

/-- What `parse` can give. -/
theorem parse_spec (s : Text) :
    IsScheme (parse s {}).scheme ∧ (0x40 ∉ (parse s {}).username ∧ 0x3B ∉ (parse s {}).username) ∧
      (0x3A ∉ (parse s {}).host ∧ 0x3B ∉ (parse s {}).host) ∧
      (∀ item ∈ (parse s {}).queries, PlainItem item) ∧ ∀ c, c ∉ s → (parse s {}).Lacks c := by
  have hwithin : ∀ part ∈ split s (text ";") (some 2) true, ∀ c, c ∉ s → c ∉ part :=
    fun part hpart c hc hmem => hc ((part_of_mem_split hpart).1.subset hmem)
  unfold parse
  cases hsplit : split s (text ";") (some 2) true with
  | nil => exact ⟨.inl rfl, by simp, by simp, by simp, by simp [Lacks]⟩
  | cons host rest =>
    rw [hsplit] at hwithin
    obtain ⟨hhost, hrest⟩ := List.forall_mem_cons.mp hwithin
    have hsemicolon : 0x3B ∉ host := notMem_of_split_two hsplit
    obtain ⟨hscheme, hat, hcolon, hqueries, hchars⟩ := parseHost_spec host
    obtain ⟨husername, hhost'⟩ := hchars 0x3B hsemicolon
    cases rest with
    | nil =>
      refine ⟨hscheme, ⟨hat, husername⟩, ⟨hcolon, hhost'⟩, ?_, ?_⟩
      · simp [hqueries]
      · intro c hc
        obtain ⟨husername, hhost'⟩ := hchars c (hhost c hc)
        exact ⟨husername, hhost', by simp [hqueries]⟩
    | cons query rest =>
      refine ⟨hscheme, ⟨hat, husername⟩, ⟨hcolon, hhost'⟩, plainItem_parseQueries query, ?_⟩
      intro c hc
      obtain ⟨husername, hhost'⟩ := hchars c (hhost c hc)
      exact ⟨husername, hhost', lacks_parseQueries (hrest query List.mem_cons_self c hc)⟩

/-! ### What was written -/

/-- The text between the scheme and the parameters. -/
def userText (uri : VoipUri) : Text :=
  uri.username ++ (if uri.username ≠ [] ∧ uri.host ≠ [] then [0x40] else []) ++ uri.host ++
    if uri.port > 0 then 0x3A :: decimal uri.port else []

theorem toText_eq {uri : VoipUri} (h : IsScheme uri.scheme) :
    uri.toText = uri.scheme ++ 0x3A :: uri.userText ++ uri.queries.flatMap itemText := by
  have hcolon : text ":" = [0x3A] := by decide
  have hat : text "@" = [0x40] := by decide
  have hscheme : uri.scheme ≠ [] := by rcases h with h | h <;> rw [h] <;> decide
  by_cases h₁ : uri.username = [] <;> by_cases h₂ : uri.host = [] <;>
    by_cases h₃ : 0 < uri.port <;>
    simp [toText, userText, hscheme, hcolon, hat, h₁, h₂, h₃, List.length_pos_iff]

theorem parseHost_scheme {scheme : Text} (h : IsScheme scheme) (s : Text) :
    parseHost (scheme ++ 0x3A :: s) {} = parseUser s { scheme } := by
  rw [parseHost_eq]
  rcases h with rfl | rfl
  · have hcut : text "sip" ++ 0x3A :: s = text "sip:" ++ s := rfl
    have hlen : (text "sip:").length = 4 := by decide
    rw [hcut, List.take_left' hlen, List.drop_left' hlen, if_pos (by decide)]
  · have hcut : text "h323" ++ 0x3A :: s = text "h323:" ++ s := rfl
    have hlen : (text "h323:").length = 5 := by decide
    have htake : (text "h323" ++ 0x3A :: s).take 4 = text "h323" := List.take_left' (by decide)
    rw [htake, hcut, List.take_left' hlen, List.drop_left' hlen, if_neg (by decide),
      if_pos (by decide)]

/-- A URI with a scheme that is read, and then the user, the host and the port. -/
theorem parse_written {scheme s : Text} (hscheme : IsScheme scheme) (hs : 0x3B ∉ s)
    {items : List Item} (hitems : ∀ item ∈ items, PlainItem item) :
    parse (scheme ++ 0x3A :: s ++ items.flatMap itemText) {} =
      { parseUser s { scheme } with queries := items } := by
  have hsemicolon : 0x3B ∉ scheme := by rcases hscheme with h | h <;> rw [h] <;> decide
  have hhost : 0x3B ∉ scheme ++ 0x3A :: s := by simp [hsemicolon, hs]
  have hne : scheme ++ 0x3A :: s ≠ [] := by simp
  have hqueries : (parseUser s { scheme }).queries = [] :=
    (parseUser_spec s { scheme } rfl rfl).2.2.2.2
  cases items with
  | nil =>
    have hsplit : split (scheme ++ 0x3A :: s) (text ";") (some 2) true = [scheme ++ 0x3A :: s] :=
      split_two_of_notMem (p := []) hhost hne
    rw [List.flatMap_nil, List.append_nil, parse, hsplit]
    dsimp only
    rw [parseHost_scheme hscheme]
    generalize parseUser s { scheme } = uri at hqueries ⊢
    cases uri
    cases hqueries
    rfl
  | cons item items =>
    have htail := (parseQueries_itemText hitems).2
    rw [List.flatMap_cons, itemText_eq, List.cons_append] at htail ⊢
    obtain ⟨hpart, -⟩ := (hitems item List.mem_cons_self).part
    have hsplit : split (scheme ++ 0x3A :: s ++ 0x3B :: (itemPart item ++ items.flatMap itemText))
        (text ";") (some 2) true =
        [scheme ++ 0x3A :: s, itemPart item ++ items.flatMap itemText] :=
      split_two hhost hne (by simp [hpart])
    rw [parse, hsplit]
    dsimp only
    rw [parseHost_scheme hscheme, ← htail]
    rfl

/-! ### Which URIs come back -/

/-- A URI that is read again. Without a user name it needs a port, and without a host it may
not have one. -/
structure Plain (uri : VoipUri) : Prop where
  scheme : IsScheme uri.scheme
  username : 0x40 ∉ uri.username ∧ 0x3B ∉ uri.username
  host : 0x3A ∉ uri.host ∧ 0x3B ∉ uri.host
  without_username : uri.username = [] → uri.host ≠ [] → 0x40 ∉ uri.host ∧ 0 < uri.port
  without_host : uri.host = [] → uri.username ≠ [] → 0x3A ∉ uri.username ∧ uri.port = 0
  port : 0 ≤ uri.port ∧ uri.port < 2 ^ 31
  queries : ∀ item ∈ uri.queries, PlainItem item

/-- The port as it is read again. -/
def portBack (uri : VoipUri) : ℤ := if 0 < uri.port then readDecimal uri.port else 0

theorem portBack_eq {uri : VoipUri} (h : 0 ≤ uri.port ∧ uri.port < 2 ^ 31) :
    uri.portBack = uri.port := by
  unfold portBack
  split_ifs with hpos
  · exact readDecimal_eq hpos h.2
  · omega

theorem port_of_portBack {uri : VoipUri} (h : uri.portBack = uri.port) :
    0 ≤ uri.port ∧ uri.port < 2 ^ 31 := by
  have hlt := readDecimal_lt uri.port
  unfold portBack at h
  split_ifs at h <;> omega

/-- The port behind the host. -/
def portText (uri : VoipUri) : Text := if 0 < uri.port then 0x3A :: decimal uri.port else []

theorem notMem_portText (uri : VoipUri) {c : UInt8} (hc : c ≠ 0x3A)
    (hdigit : isDigit 10 c = false) :
    c ∉ uri.portText := by
  unfold portText
  split_ifs with h
  · rw [List.mem_cons, not_or]
    exact ⟨hc, notMem_decimal h hdigit⟩
  · exact List.not_mem_nil

theorem userText_eq (uri : VoipUri) :
    uri.userText =
      if uri.username ≠ [] ∧ uri.host ≠ [] then uri.username ++ 0x40 :: (uri.host ++ uri.portText)
      else uri.username ++ uri.host ++ uri.portText := by
  unfold userText portText
  split_ifs <;> simp

/-- Under these conditions the parts are told apart. -/
theorem parseUser_userText {uri : VoipUri} (hat : 0x40 ∉ uri.username) (hcolon : 0x3A ∉ uri.host)
    (hhost : uri.username = [] → uri.host ≠ [] → 0x40 ∉ uri.host ∧ 0 < uri.port)
    (husername : uri.host = [] → uri.username ≠ [] → 0x3A ∉ uri.username ∧ ¬ 0 < uri.port) :
    parseUser uri.userText { scheme := uri.scheme } =
      { scheme := uri.scheme
        username := uri.username
        host := uri.host
        port := uri.portBack } := by
  have hdigits (h : 0 < uri.port) : 0x40 ∉ decimal uri.port := notMem_decimal h (by decide)
  obtain ⟨scheme, username, host, port, queries⟩ := uri
  simp only at hat hcolon hhost husername hdigits ⊢
  rw [userText_eq]
  by_cases hu : username = []
  · subst hu
    by_cases hh : host = []
    · -- a port alone
      subst hh
      simp only [portText, portBack, ne_eq, not_true_eq_false, false_and, if_false,
        List.nil_append]
      split_ifs with hpos
      · show parseUser ([] ++ 0x3A :: decimal port) _ = _
        exact parseUser_colon List.not_mem_nil List.not_mem_nil (hdigits hpos) _
      · exact parseUser_nil _
    · obtain ⟨hat', hpos⟩ := hhost rfl hh
      simp only [portText, portBack, ne_eq, not_true_eq_false, false_and, if_false,
        List.nil_append, if_pos hpos]
      exact parseUser_colon hat' hcolon (hdigits hpos) _
  · by_cases hh : host = []
    · subst hh
      obtain ⟨hcolon', hpos⟩ := husername rfl hu
      simp only [portText, portBack, ne_eq, not_true_eq_false, and_false, if_false,
        List.append_nil, if_neg hpos]
      exact parseUser_name hu hat hcolon' _
    · simp only [portText, portBack, ne_eq, hu, hh, not_false_eq_true, and_self, if_true]
      rw [parseUser_at hat]
      by_cases hpos : 0 < port
      · have hsplit : split (host ++ 0x3A :: decimal port) (text ":") (some 2) true =
            [host, decimal port] := split_two hcolon hh (decimal_ne_nil hpos)
        rw [if_pos hpos, if_pos hpos, hsplit]
        rfl
      · have hsplit : split host (text ":") (some 2) true = [host] :=
          split_two_of_notMem (p := []) hcolon hh
        rw [if_neg hpos, if_neg hpos, List.append_nil, hsplit]

/-- A host that stands alone is read up to its `@`, and so is shorter, or it is a user name. -/
theorem host_of_parseUser {uri : VoipUri} (hcolon : 0x3A ∉ uri.host) (hu : uri.username = [])
    (hh : uri.host ≠ [])
    (husername : (parseUser uri.userText { scheme := uri.scheme }).username = uri.username)
    (hhost : (parseUser uri.userText { scheme := uri.scheme }).host = uri.host) :
    0x40 ∉ uri.host ∧ 0 < uri.port := by
  have htext : uri.userText = uri.host ++ uri.portText := by
    rw [userText_eq, if_neg (fun h => h.1 hu), hu, List.nil_append]
  rw [htext] at husername hhost
  have hat : 0x40 ∉ uri.host := by
    intro hmem
    obtain ⟨a, b, hcut, ha⟩ := List.eq_append_cons_of_mem hmem
    have hcut' : uri.host ++ uri.portText = a ++ 0x40 :: (b ++ uri.portText) := by
      rw [hcut, List.append_assoc, List.cons_append]
    have hnone : (uri.portText).count 0x40 = 0 :=
      List.count_eq_zero.mpr (notMem_portText uri (by decide) (by decide))
    rw [hcut', parseUser_at ha] at hhost
    cases hsplit : split (b ++ uri.portText) (text ":") (some 2) true with
    | nil =>
      rw [hsplit] at hhost
      exact hh hhost.symm
    | cons x rest =>
      have hx : x = uri.host := by
        rw [hsplit] at hhost
        cases rest <;> exact hhost
      have hsub : x <:+: b ++ uri.portText :=
        (part_of_mem_split (hsplit ▸ List.mem_cons_self)).1
      have hcount := hsub.sublist.count_le (0x40 : UInt8)
      rw [hx, hcut, List.count_append, List.count_append, List.count_cons_self, hnone] at hcount
      omega
  refine ⟨hat, ?_⟩
  by_contra hpos
  rw [portText, if_neg hpos, List.append_nil, parseUser_name hh hat hcolon, hu] at husername
  exact hh husername

theorem username_of_parseUser {uri : VoipUri} (hat : 0x40 ∉ uri.username) (hh : uri.host = [])
    (hu : uri.username ≠ [])
    (husername : (parseUser uri.userText { scheme := uri.scheme }).username = uri.username) :
    0x3A ∉ uri.username ∧ ¬ 0 < uri.port := by
  have htext : uri.userText = uri.username ++ uri.portText := by
    rw [userText_eq, if_neg (fun h => h.2 hh), hh, List.append_nil]
  have hcolon : 0x3A ∉ uri.username ++ uri.portText := by
    intro hmem
    obtain ⟨a, b, hcut, ha⟩ := List.eq_append_cons_of_mem hmem
    have hat' : 0x40 ∉ a ++ 0x3A :: b := by
      rw [← hcut, List.mem_append, not_or]
      exact ⟨hat, notMem_portText uri (by decide) (by decide)⟩
    rw [List.mem_append, List.mem_cons, not_or, not_or] at hat'
    rw [htext, hcut, parseUser_colon hat'.1 ha hat'.2.2] at husername
    exact hu husername.symm
  rw [List.mem_append, not_or] at hcolon
  refine ⟨hcolon.1, ?_⟩
  intro hpos
  apply hcolon.2
  rw [portText, if_pos hpos]
  exact List.mem_cons_self

theorem notMem_userText {uri : VoipUri} {c : UInt8} (husername : c ∉ uri.username)
    (hhost : c ∉ uri.host) (hat : c ≠ 0x40) (hcolon : c ≠ 0x3A) (hdigit : isDigit 10 c = false) :
    c ∉ uri.userText := by
  have hport := notMem_portText uri hcolon hdigit
  rw [userText_eq]
  split_ifs
  · simp [husername, hhost, hport, hat]
  · simp [husername, hhost, hport]

/-- A URI is read again from its text just when it is plain. -/
theorem parse_toText_iff (uri : VoipUri) : parse uri.toText {} = uri ↔ uri.Plain := by
  constructor
  · intro h
    have hspec := parse_spec uri.toText
    rw [h] at hspec
    obtain ⟨hscheme, husername, hhost, hitems, -⟩ := hspec
    have hs : 0x3B ∉ uri.userText :=
      notMem_userText husername.2 hhost.2 (by decide) (by decide) (by decide)
    rw [toText_eq hscheme, parse_written hscheme hs hitems] at h
    have husername' : (parseUser uri.userText { scheme := uri.scheme }).username = uri.username :=
      (congrArg VoipUri.username h :)
    have hhost' : (parseUser uri.userText { scheme := uri.scheme }).host = uri.host :=
      (congrArg VoipUri.host h :)
    have hport' : (parseUser uri.userText { scheme := uri.scheme }).port = uri.port :=
      (congrArg VoipUri.port h :)
    have hno_user (hu : uri.username = []) (hh : uri.host ≠ []) :=
      host_of_parseUser hhost.1 hu hh husername' hhost'
    have hno_host (hh : uri.host = []) (hu : uri.username ≠ []) :=
      username_of_parseUser husername.1 hh hu husername'
    rw [parseUser_userText husername.1 hhost.1 hno_user hno_host] at hport'
    have hport := port_of_portBack hport'
    refine ⟨hscheme, husername, hhost, hno_user, ?_, hport, hitems⟩
    intro hh hu
    have := hno_host hh hu
    exact ⟨this.1, by omega⟩
  · intro h
    have hs : 0x3B ∉ uri.userText :=
      notMem_userText h.username.2 h.host.2 (by decide) (by decide) (by decide)
    have hno_host (hh : uri.host = []) (hu : uri.username ≠ []) :
        0x3A ∉ uri.username ∧ ¬ 0 < uri.port := by
      obtain ⟨hcolon, hport⟩ := h.without_host hh hu
      exact ⟨hcolon, by omega⟩
    rw [toText_eq h.scheme, parse_written h.scheme hs h.queries,
      parseUser_userText h.username.1 h.host.1 h.without_username hno_host, portBack_eq h.port]

end VoipUri

end CxxDeps.Sip
