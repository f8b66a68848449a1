import CxxDeps.Hypertext.RoundTrip
import CxxDeps.Sip.UriText

/-! The text of an address, and when `parse` gives the same value back. The display name is
read up to the first blank, quotes or not. A response copies the addresses of a request by
reading and writing them. -/

namespace CxxDeps.Sip

open Sys Hypertext

/-- `sip_address::to_string`. -/
def SipAddress.toText (addr : SipAddress) : Text :=
  (if addr.display.length > 0 then text "\"" ++ addr.display ++ text "\" " else []) ++
  text "<" ++ addr.url.toText ++ text ">" ++ addr.queries.flatMap itemText

/-! ### Addresses -/

namespace SipAddress

theorem notMem_filter {p : UInt8 → Bool} {s : Text} {c : UInt8} (h : p c = false) :
    c ∉ s.filter p := by
  intro hmem
  have := (List.mem_filter.mp hmem).2
  rw [h] at this
  cases this

/-- The text that is read as the URI, and where the parameters come from. -/
theorem parse_cases (s : Text) :
    (0x20 ∉ (parse s {}).display ∧ 0x3C ∉ (parse s {}).display ∧ 0x22 ∉ (parse s {}).display) ∧
    ∃ t, 0x20 ∉ t ∧ 0x3C ∉ t ∧ (0x3C ∈ s → 0x3E ∉ t) ∧
      ((parse s {}).url = VoipUri.parse t {} ∧ 0x3E ∉ t ∧
          (∀ item ∈ (parse s {}).queries, PlainItem item) ∨
        (parse s {}).url = { VoipUri.parse t {} with queries := [] } ∧
          (parse s {}).queries = (VoipUri.parse t {}).queries) := by
  have hdisplay (c : UInt8) (hc : isBlank c = true) :
      c ∉ (s.takeWhile (!isBlank ·)).filter (· != 0x22) := by
    intro hmem
    have := List.mem_takeWhile_imp (List.mem_filter.mp hmem).1
    rw [hc] at this
    cases this
  have hquote : 0x22 ∉ (s.takeWhile (!isBlank ·)).filter (· != 0x22) := notMem_filter rfl
  unfold parse
  cases hrest : s.dropWhile (!isBlank ·) with
  | nil =>
    have hall : ∀ c ∈ s, isBlank c = false := by
      intro c hc
      simpa using List.dropWhile_eq_nil_iff.mp hrest c hc
    have hblank (c : UInt8) (hc : isBlank c = true) : c ∉ s := by
      intro hmem
      rw [hall c hmem] at hc
      cases hc
    refine ⟨by simp [takeQueries], s, hblank 0x20 rfl, hblank 0x3C rfl, ?_, .inr ⟨rfl, rfl⟩⟩
    intro hmem
    exact absurd hmem (hblank 0x3C rfl)
  | cons b rest =>
    obtain ⟨suri, hsuri⟩ : ∃ suri, suri = (b :: rest).takeWhile (· != 0x3E) := ⟨_, rfl⟩
    dsimp only
    rw [← hsuri]
    have hclose : 0x3E ∉ suri := by
      rw [hsuri]
      intro hmem
      simpa using List.mem_takeWhile_imp hmem
    have hblank (c : UInt8) (hc : isBlank c = true) : c ∉ suri.filter (!isBlank ·) :=
      notMem_filter (by rw [hc]; rfl)
    have hclose' : 0x3E ∉ suri.filter (!isBlank ·) := fun hmem =>
      hclose (List.mem_filter.mp hmem).1
    split_ifs
    · cases (b :: rest).drop (suri.length + 1) with
      | nil =>
        exact ⟨⟨hdisplay 0x20 rfl, hdisplay 0x3C rfl, hquote⟩, _, hblank 0x20 rfl, hblank 0x3C rfl,
          fun _ => hclose', .inl ⟨rfl, hclose', by simp⟩⟩
      | cons c params =>
        exact ⟨⟨hdisplay 0x20 rfl, hdisplay 0x3C rfl, hquote⟩, _, hblank 0x20 rfl, hblank 0x3C rfl,
          fun _ => hclose', .inl ⟨rfl, hclose', plainItem_parseQueries _⟩⟩
    · exact ⟨⟨hdisplay 0x20 rfl, hdisplay 0x3C rfl, hquote⟩, _, hblank 0x20 rfl, hblank 0x3C rfl,
        fun _ => hclose', .inr ⟨rfl, rfl⟩⟩

/-- A display name, which may be empty, an address in angle brackets, and parameters. -/
theorem parse_bracketed {front blank uri params : Text} (hfront : ∀ c ∈ front, isBlank c = false)
    (hblank : ∀ c ∈ blank, c = 0x20) (huri : 0x3E ∉ uri) :
    parse (front ++ (blank ++ 0x3C :: (uri ++ 0x3E :: params))) {} =
      { display := front.filter (· != 0x22)
        url := VoipUri.parse (uri.filter (!isBlank ·)) {}
        queries := parseQueries params } := by
  obtain ⟨rest, hrest⟩ : ∃ rest, rest = blank ++ 0x3C :: (uri ++ 0x3E :: params) := ⟨_, rfl⟩
  obtain ⟨b, tail, hcons, hb⟩ : ∃ b tail, rest = b :: tail ∧ isBlank b = true := by
    cases blank with
    | nil => exact ⟨0x3C, _, hrest, rfl⟩
    | cons b blank =>
      have := hblank b List.mem_cons_self
      exact ⟨b, _, hrest, by rw [this]; rfl⟩
  have hp : ∀ c ∈ front, (!isBlank c) = true := fun c hc => by rw [hfront c hc]; rfl
  have htake : (front ++ rest).takeWhile (!isBlank ·) = front := by
    rw [List.takeWhile_append_of_pos hp, hcons, List.takeWhile_cons, hb]
    simp
  have hdrop : (front ++ rest).dropWhile (!isBlank ·) = rest := by
    rw [List.dropWhile_append_of_pos hp, hcons, List.dropWhile_cons, hb]
    simp
  have hcut : rest = blank ++ 0x3C :: uri ++ 0x3E :: params := by rw [hrest]; simp
  have hsuri : rest.takeWhile (· != 0x3E) = blank ++ 0x3C :: uri := by
    rw [hcut, List.takeWhile_append_of_pos, List.takeWhile_cons]
    · simp
    · intro c hc
      rw [List.mem_append, List.mem_cons] at hc
      rcases hc with hc | rfl | hc
      · rw [hblank c hc]
        rfl
      · rfl
      · have hne : c ≠ 0x3E := fun heq => huri (heq ▸ hc)
        simpa using hne
  have hfilter : (blank ++ 0x3C :: uri).filter (!isBlank ·) = uri.filter (!isBlank ·) := by
    have hnone : blank.filter (!isBlank ·) = [] := by
      rw [List.filter_eq_nil_iff]
      intro c hc
      rw [hblank c hc]
      decide
    rw [List.filter_append, hnone, List.nil_append, List.filter_cons]
    rfl
  have hparams : rest.drop ((blank ++ 0x3C :: uri).length + 1) = params := by
    rw [hcut, ← List.drop_drop, List.drop_left]
    rfl
  rw [← hrest, parse, htake, hdrop, hcons]
  dsimp only
  rw [← hcons, hsuri, hfilter, hparams, if_pos (by simp)]
  cases params <;> rfl

/-- An address that is read again: its display name has no blank and no quote, and its URI has
no blank and no angle bracket. -/
structure Plain (addr : SipAddress) : Prop where
  display : 0x20 ∉ addr.display ∧ 0x3C ∉ addr.display ∧ 0x22 ∉ addr.display
  url : addr.url.Plain
  url_lacks : addr.url.Lacks 0x20 ∧ addr.url.Lacks 0x3C ∧ addr.url.Lacks 0x3E
  queries : ∀ item ∈ addr.queries, PlainItem item

theorem notMem_itemText {items : List Item} {c : UInt8} (hsemicolon : c ≠ 0x3B)
    (hequals : c ≠ 0x3D) (h : ∀ item ∈ items, c ∉ item.name ∧ c ∉ item.value) :
    c ∉ items.flatMap itemText := by
  intro hmem
  obtain ⟨item, hitem, hc⟩ := List.mem_flatMap.mp hmem
  obtain ⟨hname, hvalue⟩ := h item hitem
  rw [itemText_eq, itemPart, List.mem_cons, List.mem_append, List.mem_cons] at hc
  rcases hc with hc | hc | hc | hc
  · exact hsemicolon hc
  · exact hname hc
  · exact hequals hc
  · exact hvalue hc

/-- The blanks and brackets of an address are none of the characters that a URI is written
with. -/
theorem lacks_toText {uri : VoipUri} (hscheme : VoipUri.IsScheme uri.scheme) {c : UInt8}
    (hc : c ∈ [(0x20 : UInt8), 0x3C, 0x3E]) (h : uri.Lacks c) : c ∉ uri.toText := by
  obtain ⟨husername, hhost, hitems⟩ := h
  have hother : (c ≠ 0x40 ∧ c ≠ 0x3A ∧ isDigit 10 c = false) ∧
      (c ≠ 0x3B ∧ c ≠ 0x3D) ∧ c ∉ text "sip" ∧ c ∉ text "h323" := by
    simp only [List.mem_cons, List.not_mem_nil, or_false] at hc
    rcases hc with rfl | rfl | rfl <;> decide
  obtain ⟨⟨hat, hcolon, hdigit⟩, ⟨hsemicolon, hequals⟩, hsip, hh323⟩ := hother
  have huser := VoipUri.notMem_userText husername hhost hat hcolon hdigit
  have hscheme' : c ∉ uri.scheme := by
    rcases hscheme with h | h <;> rw [h]
    · exact hsip
    · exact hh323
  rw [VoipUri.toText_eq hscheme, List.mem_append, List.mem_append, List.mem_cons, not_or, not_or,
    not_or]
  exact ⟨⟨hscheme', hcolon, huser⟩, notMem_itemText hsemicolon hequals hitems⟩

/-- The display name as it is written. -/
def displayText (display : Text) : Text :=
  if display = [] then [] else 0x22 :: display ++ [0x22, 0x20]

theorem toText_eq (addr : SipAddress) :
    addr.toText = displayText addr.display ++
      0x3C :: (addr.url.toText ++ 0x3E :: addr.queries.flatMap itemText) := by
  have hbracket : text "<" = [0x3C] := by decide
  have hbracket' : text ">" = [0x3E] := by decide
  have hquote : text "\"" = [0x22] := by decide
  have hquote' : text "\" " = [0x22, 0x20] := by decide
  by_cases hempty : addr.display = [] <;>
    simp [toText, displayText, List.length_pos_iff, hempty, hbracket, hbracket', hquote, hquote']

theorem isBlank_of_notMem {s : Text} (hspace : 0x20 ∉ s) (hopen : 0x3C ∉ s) :
    ∀ c ∈ s, isBlank c = false := by
  intro c hc
  have hne : c ≠ 0x20 := fun h => hspace (h ▸ hc)
  have hne' : c ≠ 0x3C := fun h => hopen (h ▸ hc)
  simp [isBlank, hne, hne']

/-- A display name that is read again, and what is in the brackets and behind them. -/
theorem parse_displayed {display uri params : Text}
    (hdisplay : 0x20 ∉ display ∧ 0x3C ∉ display ∧ 0x22 ∉ display) (hspace : 0x20 ∉ uri)
    (hopen : 0x3C ∉ uri) (hclose : 0x3E ∉ uri) :
    parse (displayText display ++ 0x3C :: (uri ++ 0x3E :: params)) {} =
      { display, url := VoipUri.parse uri {}, queries := parseQueries params } := by
  have hfilter : uri.filter (!isBlank ·) = uri := by
    rw [List.filter_eq_self]
    intro c hc
    rw [isBlank_of_notMem hspace hopen c hc]
    rfl
  by_cases hempty : display = []
  · have hread : parse ([] ++ ([] ++ 0x3C :: (uri ++ 0x3E :: params))) {} =
        { display := []
          url := VoipUri.parse (uri.filter (!isBlank ·)) {}
          queries := parseQueries params } := parse_bracketed (by simp) (by simp) hclose
    rw [hempty, displayText, if_pos rfl, List.nil_append]
    rw [hfilter] at hread
    exact hread
  · have hfront : ∀ c ∈ 0x22 :: display ++ [0x22], isBlank c = false := by
      intro c hc
      rw [List.mem_append, List.mem_cons, List.mem_singleton] at hc
      rcases hc with (rfl | hc) | rfl
      · rfl
      · exact isBlank_of_notMem hdisplay.1 hdisplay.2.1 c hc
      · rfl
    have hname : (0x22 :: display ++ [0x22]).filter (· != 0x22) = display := by
      have hself : display.filter (· != 0x22) = display := by
        rw [List.filter_eq_self]
        intro c hc
        have hne : c ≠ 0x22 := fun h => hdisplay.2.2 (h ▸ hc)
        simpa using hne
      simp [List.filter_append, hself]
    have htext : displayText display ++ 0x3C :: (uri ++ 0x3E :: params) =
        (0x22 :: display ++ [0x22]) ++ ([0x20] ++ 0x3C :: (uri ++ 0x3E :: params)) := by
      simp [displayText, hempty]
    rw [htext, parse_bracketed hfront (by simp) hclose, hfilter, hname]

/-- The address in angle brackets, and its parameters. -/
theorem parse_written {addr : SipAddress}
    (hdisplay : 0x20 ∉ addr.display ∧ 0x3C ∉ addr.display ∧ 0x22 ∉ addr.display)
    (hscheme : VoipUri.IsScheme addr.url.scheme)
    (hlacks : addr.url.Lacks 0x20 ∧ addr.url.Lacks 0x3C ∧ addr.url.Lacks 0x3E) :
    parse addr.toText {} =
      { display := addr.display
        url := VoipUri.parse addr.url.toText {}
        queries := parseQueries (addr.queries.flatMap itemText) } := by
  rw [toText_eq, parse_displayed hdisplay (lacks_toText hscheme (by decide) hlacks.1)
    (lacks_toText hscheme (by decide) hlacks.2.1) (lacks_toText hscheme (by decide) hlacks.2.2)]

theorem open_mem_toText (addr : SipAddress) : 0x3C ∈ addr.toText := by
  simp [toText_eq]

/-- What was read: a bracket is left in the URI only when it has no parameters, and only when
the text had no opening one. -/
theorem read_spec (s : Text) :
    VoipUri.IsScheme (parse s {}).url.scheme ∧
      (0x3B ∉ (parse s {}).url.username ∧ 0x3B ∉ (parse s {}).url.host) ∧
      ((parse s {}).url.Lacks 0x20 ∧ (parse s {}).url.Lacks 0x3C) ∧
      ((parse s {}).url.Lacks 0x3E ∨ 0x3C ∉ s ∧ (parse s {}).url.queries = []) ∧
      ∀ item ∈ (parse s {}).queries, PlainItem item := by
  obtain ⟨-, t, hspace, hopen, hclose, hurl⟩ := parse_cases s
  obtain ⟨hscheme, husername, hhost, hitems, hlacks⟩ := VoipUri.parse_spec t
  rcases hurl with ⟨hurl, hclose, hqueries⟩ | ⟨hurl, hqueries⟩
  · rw [hurl]
    exact ⟨hscheme, ⟨husername.2, hhost.2⟩, ⟨hlacks 0x20 hspace, hlacks 0x3C hopen⟩,
      .inl (hlacks 0x3E hclose), hqueries⟩
  · have hnone {c : UInt8} (h : (VoipUri.parse t {}).Lacks c) :
        VoipUri.Lacks { VoipUri.parse t {} with queries := [] } c :=
      ⟨h.1, h.2.1, by simp⟩
    rw [hurl, hqueries]
    refine ⟨hscheme, ⟨husername.2, hhost.2⟩,
      ⟨hnone (hlacks 0x20 hspace), hnone (hlacks 0x3C hopen)⟩, ?_, hitems⟩
    by_cases hs : 0x3C ∈ s
    · exact .inl (hnone (hlacks 0x3E (hclose hs)))
    · exact .inr ⟨hs, rfl⟩

/-- An address is read again from its text just when it is plain. -/
theorem parse_toText_iff (addr : SipAddress) : parse addr.toText {} = addr ↔ addr.Plain := by
  constructor
  · intro h
    have hdisplay := (parse_cases addr.toText).1
    obtain ⟨hscheme, -, hopen, hclose, -⟩ := read_spec addr.toText
    have hclose' := hclose.resolve_right fun hnone => hnone.1 addr.open_mem_toText
    rw [h] at hdisplay hscheme hopen hclose'
    have hlacks := And.intro hopen.1 (And.intro hopen.2 hclose')
    rw [parse_written hdisplay hscheme hlacks] at h
    have hurl : VoipUri.parse addr.url.toText {} = addr.url := (congrArg url h :)
    have hqueries : parseQueries (addr.queries.flatMap itemText) = addr.queries :=
      (congrArg queries h :)
    refine ⟨hdisplay, (VoipUri.parse_toText_iff addr.url).mp hurl, hlacks, ?_⟩
    rw [← hqueries]
    exact plainItem_parseQueries _
  · intro h
    have hurl := (VoipUri.parse_toText_iff addr.url).mpr h.url
    rw [parse_written h.display h.url.scheme h.url_lacks, hurl, (parseQueries_itemText h.queries).1]

/-! ### The parameters of an address that was read -/

/-- At a closing bracket the URI ends, and what is behind it is one more parameter. -/
theorem length_queries_of_bracket {addr : SipAddress}
    (hdisplay : 0x20 ∉ addr.display ∧ 0x3C ∉ addr.display ∧ 0x22 ∉ addr.display)
    (hscheme : VoipUri.IsScheme addr.url.scheme)
    (hsemicolon : 0x3B ∉ addr.url.username ∧ 0x3B ∉ addr.url.host)
    (hlacks : addr.url.Lacks 0x20 ∧ addr.url.Lacks 0x3C) (hnone : addr.url.queries = [])
    (hitems : ∀ item ∈ addr.queries, PlainItem item) (hmem : 0x3E ∈ addr.url.toText) :
    (parse addr.toText {}).queries.length = addr.queries.length + 1 := by
  obtain ⟨x, y, hcut, hx⟩ := List.eq_append_cons_of_mem hmem
  have hno : 0x3B ∉ addr.url.toText := by
    have huser : 0x3B ∉ addr.url.userText :=
      VoipUri.notMem_userText hsemicolon.1 hsemicolon.2 (by decide) (by decide) (by decide)
    have hscheme' : 0x3B ∉ addr.url.scheme := by rcases hscheme with h | h <;> rw [h] <;> decide
    rw [VoipUri.toText_eq hscheme, hnone]
    simp [huser, hscheme']
  have hspace := lacks_toText hscheme (by decide) hlacks.1
  have hopen := lacks_toText hscheme (by decide) hlacks.2
  rw [hcut] at hno hspace hopen
  simp only [List.mem_append, List.mem_cons, not_or] at hno hspace hopen
  have hhead : y ++ [0x3E] ≠ [] ∧ 0x3B ∉ y ++ [0x3E] := by simp [hno.2.2]
  have htext : x ++ 0x3E :: y ++ 0x3E :: addr.queries.flatMap itemText =
      x ++ 0x3E :: (y ++ [0x3E] ++ addr.queries.flatMap itemText) := by simp
  rw [toText_eq, hcut, htext, parse_displayed hdisplay hspace.1 hopen.1 hx, parseQueries_eq,
    split_itemText hhead hitems]
  simp

/-- The parameters of an address that was read are read again just when the URI has no closing
bracket. -/
theorem queries_of_parse (s : Text) :
    (parse (parse s {}).toText {}).queries = (parse s {}).queries ↔
      0x3E ∉ (parse s {}).url.username ∧ 0x3E ∉ (parse s {}).url.host := by
  have hdisplay := (parse_cases s).1
  obtain ⟨hscheme, hsemicolon, hlacks, hclose, hitems⟩ := read_spec s
  generalize parse s {} = addr at hdisplay hscheme hsemicolon hlacks hclose hitems ⊢
  constructor
  · intro h
    rcases hclose with hclose | ⟨-, hnone⟩
    · exact ⟨hclose.1, hclose.2.1⟩
    · by_contra hbracket
      have hmem : 0x3E ∈ addr.url.toText := by
        by_contra hno
        rw [VoipUri.toText_eq hscheme, VoipUri.userText_eq] at hno
        split_ifs at hno <;> simp_all
      have hlength :=
        length_queries_of_bracket hdisplay hscheme hsemicolon hlacks hnone hitems hmem
      rw [h] at hlength
      omega
  · rintro ⟨husername, hhost⟩
    have hclose : addr.url.Lacks 0x3E := by
      rcases hclose with hclose | ⟨-, hnone⟩
      · exact hclose
      · exact ⟨husername, hhost, by simp [hnone]⟩
    rw [parse_written hdisplay hscheme ⟨hlacks.1, hlacks.2, hclose⟩,
      (parseQueries_itemText hitems).1]

end SipAddress

/-! ### Responses -/

/-- A header that was set is there, and the others are as they were. -/
theorem get_set (name name' value : Text) (headers : Headers) :
    (headers.set name' value).get name =
      if icasecompare name' name then some value else headers.get name := by
  have hcons (item : Item) (items : Headers) : Headers.get name (item :: items) =
      if icasecompare item.name name then some item.value else Headers.get name items := by
    rw [Headers.get, List.find?_cons]
    split <;> simp_all [Headers.get]
  induction headers with
  | nil => rw [Headers.set, hcons]
  | cons item items ih =>
    rw [Headers.set]
    by_cases hitem : icasecompare item.name name' = true
    · have hsame : icasecompare item.name name = icasecompare name' name := by
        rw [Bool.eq_iff_iff, icasecompare_iff, icasecompare_iff, icasecompare_iff.mp hitem]
      rw [if_pos hitem, hcons, hcons, hsame]
      split_ifs <;> rfl
    · rw [if_neg hitem, hcons, hcons, ih]
      split_ifs with h₁ h₂
      · exact absurd (icasecompare_iff.mpr ((icasecompare_iff.mp h₁).trans
          (icasecompare_iff.mp h₂).symm)) hitem
      · rfl
      · rfl
      · rfl

/-- `sip_message::to`. -/
def to' (message : Message) : Option SipAddress :=
  (message.headers.get (text "To")).map fun value => SipAddress.parse value {}

/-- `call_id`, up to a zero byte. -/
def callId (message : Message) : Text :=
  ((message.headers.get (text "Call-ID")).getD []).takeWhile (· != 0)

def svia (message : Message) : List Text :=
  (message.headers.filter (·.name = text "Via")).map Item.value

/-- `get_cseq`, with what is in the number before. -/
def getCseq (message : Message) (cseq : UInt32) : UInt32 × Text :=
  match message.headers.get (text "CSeq") with
  | none => (cseq, [])
  | some value =>
    match split value (text " ") (some 2) true with
    | [] => (cseq, [])
    | [number] => (UInt32.ofNat (strtoul 10 number), [])
    | number :: method :: _ => (UInt32.ofNat (strtoul 10 number), method)

/-- `create_response`; the number of a request without CSeq is not initialised. -/
def createResponse (cseq : UInt32) (request : Message) : Message :=
  let (cseq, method) := getCseq request cseq
  let vias : Headers := (svia request).map fun via => ⟨text "Via", via⟩
  let headers := vias.set (text "CSeq")
    (decimal cseq.toNat ++ if method.length > 0 then text " " ++ method else [])
  let headers := headers.set (text "Call-ID") (callId request)
  let headers := headers.set (text "From") ((from' request).getD {}).toText
  let headers := headers.set (text "To") ((to' request).getD {}).toText
  Message.setBody []
    { filed1 := text "SIP/2.0", filed2 := text "200", filed3 := text "OK", headers }

theorem from_createResponse (cseq : UInt32) {request : Message} {addr : SipAddress}
    (h : from' request = some addr) :
    from' (createResponse cseq request) = some (SipAddress.parse addr.toText {}) := by
  have hlength : ¬ icasecompare (text "Content-Length") (text "From") = true := by decide
  have hto : ¬ icasecompare (text "To") (text "From") = true := by decide
  have hfrom : icasecompare (text "From") (text "From") = true := by decide
  rw [from', createResponse]
  dsimp only [Message.setBody]
  rw [get_set, if_neg hlength, get_set, if_neg hto, get_set, if_pos hfrom, h]
  rfl

theorem to_createResponse (cseq : UInt32) {request : Message} {addr : SipAddress}
    (h : to' request = some addr) :
    to' (createResponse cseq request) = some (SipAddress.parse addr.toText {}) := by
  have hlength : ¬ icasecompare (text "Content-Length") (text "To") = true := by decide
  have hto : icasecompare (text "To") (text "To") = true := by decide
  rw [to', createResponse]
  dsimp only [Message.setBody]
  rw [get_set, if_neg hlength, get_set, if_pos hto, h]
  rfl

/-- How the copy of an address that was read compares with it: the whole of it, and its
parameters alone. -/
def CopiedAs (addr : SipAddress) (copy : Option SipAddress) : Prop :=
  (copy = some addr ↔ addr.Plain) ∧
    (copy.map SipAddress.queries = some addr.queries ↔
      0x3E ∉ addr.url.username ∧ 0x3E ∉ addr.url.host)

theorem copiedAs_written {s : Text} {addr : SipAddress} (h : SipAddress.parse s {} = addr) :
    CopiedAs addr (some (SipAddress.parse addr.toText {})) := by
  subst h
  constructor
  · rw [Option.some.injEq]
    exact SipAddress.parse_toText_iff _
  · rw [Option.map_some, Option.some.injEq]
    exact SipAddress.queries_of_parse s

/-- A URI and an address are read again from their texts just when they are plain. An address
that a response copies is the same just when it is plain, and its parameters are whenever its
URI has no closing bracket. -/
theorem address_codec_iff (uri : VoipUri) (addr : SipAddress) (cseq : UInt32)
    (request : Message) :
    (VoipUri.parse uri.toText {} = uri ↔ uri.Plain) ∧
    (SipAddress.parse addr.toText {} = addr ↔ addr.Plain) ∧
    (from' request = some addr → CopiedAs addr (from' (createResponse cseq request))) ∧
    (to' request = some addr → CopiedAs addr (to' (createResponse cseq request))) := by
  refine ⟨VoipUri.parse_toText_iff uri, SipAddress.parse_toText_iff addr, ?_, ?_⟩
  · intro h
    obtain ⟨value, -, hread⟩ := Option.map_eq_some_iff.mp h
    rw [from_createResponse cseq h]
    exact copiedAs_written hread
  · intro h
    obtain ⟨value, -, hread⟩ := Option.map_eq_some_iff.mp h
    rw [to_createResponse cseq h]
    exact copiedAs_written hread

private def bob : SipAddress where
  display := text "Bob"
  url := { username := text "bob", host := text "10.0.0.1", port := 5061 }
  queries := [⟨text "tag", text "7"⟩]

private theorem bob_plain : bob.Plain := by
  have htag : ∀ item ∈ bob.queries, PlainItem item := by
    rw [bob, List.forall_mem_singleton]
    exact ⟨by decide, by decide, by decide, by decide⟩
  refine ⟨by decide, ?_, ⟨⟨by decide, by decide, ?_⟩, ⟨by decide, by decide, ?_⟩,
    ⟨by decide, by decide, ?_⟩⟩, htag⟩
  · exact ⟨.inl rfl, by decide, by decide, by decide, by decide, by decide, List.forall_mem_nil _⟩
  · exact List.forall_mem_nil _
  · exact List.forall_mem_nil _
  · exact List.forall_mem_nil _

/-- A caller with a name, a user and a port is the same in the response. -/
theorem address_codec_iff_bob :
    from' (createResponse 0 { headers := [⟨text "From", bob.toText⟩] }) = some bob := by
  have hread : from' { headers := [⟨text "From", bob.toText⟩] } = some bob := by
    have hsame : icasecompare (text "From") (text "From") = true := by decide
    rw [from', Headers.get, List.find?_cons, hsame]
    exact congrArg some ((SipAddress.parse_toText_iff bob).mpr bob_plain)
  have hcopied := (address_codec_iff bob.url bob 0 { headers := [⟨text "From", bob.toText⟩] }).2.2
  exact (hcopied.1 hread).1.mpr bob_plain

/-- A host alone is read as a user name, and a display name of two words up to the blank. -/
theorem address_codec_fails :
    ¬ (∀ uri : VoipUri, VoipUri.parse uri.toText {} = uri) ∧
    ¬ ∀ addr : SipAddress, SipAddress.parse addr.toText {} = addr := by
  constructor
  · intro h
    have hplain := (VoipUri.parse_toText_iff { host := text "example.org" }).mp (h _)
    exact absurd (hplain.without_username rfl (by decide)).2 (by decide)
  · intro h
    have hplain := (SipAddress.parse_toText_iff
      { bob with display := text "Bob Smith" }).mp (h _)
    exact absurd hplain.display.1 (by decide)

end CxxDeps.Sip
