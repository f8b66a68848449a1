import CxxDeps.Hypertext.Safety
import CxxDeps.Hypertext.Target

/-! `message::to_string`, and which messages `message::parse` reads back from it. The target of
a request is written as its path and query, the first `Content-Length:` of the whole text is
taken for that of the message, and a header is read trimmed and up to its first colon. -/

namespace CxxDeps.Hypertext

open Sys

/-- `headers::set`. -/
def Headers.set (name value : Text) : Headers → Headers
  | [] => [⟨name, value⟩]
  | item :: items =>
    if icasecompare item.name name then ⟨item.name, value⟩ :: items
    else item :: Headers.set name value items

namespace Message

/-- `message::set_body`. -/
def setBody (body : Text) (m : Message) : Message :=
  { m with body, headers := m.headers.set (text "Content-Length") (decimal body.length) }

def isRequest (m : Message) : Bool := m.filed2.contains 0x2F

/-- The second field as it is written. -/
def target (y : UInt8) (m : Message) : Option Text :=
  if m.isRequest then (Uri.parse y m.filed2).map Uri.toPathText else some m.filed2

/-- `message::to_string`. -/
def toText (y : UInt8) (m : Message) : Option Text :=
  (m.target y).map fun f2 =>
    m.filed1 ++ text " " ++ f2 ++ text " " ++ m.filed3 ++ crlf ++
      (m.headers.flatMap fun item => item.name ++ text ": " ++ item.value ++ crlf) ++ crlf ++ m.body

/-! ### Messages that come back -/

def NoBreak (s : Text) : Prop := 0x0D ∉ s ∧ 0x0A ∉ s

/-- A first line that `set_first_line` takes apart: three parts, the first two without
space. -/
structure StartLine (m : Message) : Prop where
  filed1_ne : m.filed1 ≠ []
  filed1_token : ∀ c ∈ m.filed1, isSpace c = false
  filed2_ne : m.filed2 ≠ []
  filed2_token : ∀ c ∈ m.filed2, isSpace c = false
  filed3_ne : m.filed3 ≠ []
  filed3_line : NoBreak m.filed3
  filed3_trim : trim m.filed3 = m.filed3

/-- The text is parsed to its end and gives the message. -/
def RoundTrips (y : UInt8) (m : Message) : Prop :=
  ∃ s, m.toText y = some s ∧ parse s s.length = some ((s.length : ℤ), m)

/-- The second field is written as it is: there is no slash in it, or it is a path alone. -/
def TargetKept (s : Text) : Prop := 0x2F ∉ s ∨ Uri.PathAlone s

instance (s : Text) : Decidable (TargetKept s) :=
  inferInstanceAs (Decidable (0x2F ∉ s ∨ Uri.PathAlone s))

/-- A header that has a name, without a colon in it, and no space around the name or
the value. -/
structure HeaderKept (item : Item) : Prop where
  name_ne : item.name ≠ []
  name_plain : 0x3A ∉ item.name
  name_trim : trim item.name = item.name
  value_trim : trim item.value = item.value

def headerLine (item : Item) : Text := item.name ++ 0x3A :: 0x20 :: item.value

/-- The first line with this second field. -/
def startLine (f2 : Text) (m : Message) : Text := m.filed1 ++ 0x20 :: (f2 ++ 0x20 :: m.filed3)

/-- The lines, without the end of the last one. -/
def head (f2 : Text) (m : Message) : Text :=
  m.startLine f2 ++ (m.headers.map headerLine).flatMap (crlf ++ ·)

/-- The message with this second field. -/
def written (f2 : Text) (m : Message) : Text := m.head f2 ++ (headerEnd ++ m.body)

/-- The number behind the first `Content-Length:` of the text is the length of the body. -/
def LengthKept (m : Message) : Prop :=
  parseContentLength (m.written m.filed2) (m.written m.filed2).length = some (m.body.length : ℤ)

theorem toText_eq (y : UInt8) (m : Message) :
    m.toText y = (m.target y).map fun f2 => m.written f2 := by
  have hlines (items : Headers) :
      crlf ++ (items.flatMap fun item => item.name ++ text ": " ++ item.value ++ crlf) =
        (items.map headerLine).flatMap (crlf ++ ·) ++ crlf := by
    induction items with
    | nil => rfl
    | cons item items ih =>
      have hline : item.name ++ text ": " ++ item.value = headerLine item := by
        show item.name ++ [0x3A, 0x20] ++ item.value = _
        simp [headerLine]
      rw [List.map_cons, List.flatMap_cons, List.flatMap_cons, hline, List.append_assoc _ crlf, ih]
      simp
  rw [toText]
  congr 1
  funext f2
  have hstart : m.filed1 ++ text " " ++ f2 ++ text " " ++ m.filed3 = m.startLine f2 := by
    show m.filed1 ++ [0x20] ++ f2 ++ [0x20] ++ m.filed3 = _
    simp [startLine]
  have hend : headerEnd = crlf ++ crlf := rfl
  rw [hstart, List.append_assoc (m.startLine f2) crlf, hlines, written, head, hend]
  simp only [List.append_assoc]

/-! ### The lines -/

/-- What `set_header_line` makes of a line. -/
def readLine (line : Text) : Option Item :=
  match split line (text ":") (some 2) true with
  | name :: value :: _ => some ⟨trim name, trim value⟩
  | _ => none

theorem setHeaderLine_eq (m : Message) (line : Text) :
    m.setHeaderLine line =
      (readLine line).map fun item => { m with headers := m.headers ++ [item] } := by
  unfold setHeaderLine readLine
  rcases split line (text ":") (some 2) true with _ | ⟨name, _ | ⟨value, rest⟩⟩ <;> rfl

theorem foldlM_setHeaderLine (lines : List Text) (m : Message) :
    lines.foldlM setHeaderLine m =
      (lines.mapM readLine).map fun items => { m with headers := m.headers ++ items } := by
  induction lines generalizing m with
  | nil => simp
  | cons line lines ih =>
    rw [List.foldlM_cons, List.mapM_cons, setHeaderLine_eq]
    cases readLine line with
    | none => rfl
    | some item =>
      simp only [Option.map_some, Option.bind_eq_bind, Option.bind_some, ih]
      cases lines.mapM readLine with
      | none => rfl
      | some items => simp

/-- A header comes back from its line where it is kept. -/
theorem readLine_headerLine_iff (item : Item) :
    readLine (headerLine item) = some item ↔ HeaderKept item := by
  have hsep : text ":" ≠ [] := by decide
  constructor
  · intro h
    unfold readLine at h
    split at h
    · next a b rest hsplit =>
      cases h
      rcases split_two_spec hsep (headerLine ⟨trim a, trim b⟩) with hs | ⟨x, _, _, hs, -⟩ |
        ⟨x, z, front, hs, -, -, hno, -⟩
      · cases hsplit.symm.trans hs
      · cases hsplit.symm.trans hs
      · cases hsplit.symm.trans hs
        have ha : 0x3A ∉ trim a := fun hc => notMem_of_breakOn hno ((trim_within a).subset hc)
        refine ⟨?_, ha, trim_trim a, trim_trim b⟩
        intro hname
        -- the first part would be of the value, and the second one is as long as that
        have hline : headerLine ⟨trim a, trim b⟩ = [] ++ (0x3A :: 0x20 :: trim b) := by
          rw [headerLine, hname]
        have hbreak : breakOn (text ":") (headerLine ⟨trim a, trim b⟩) =
            some ([], 0x20 :: trim b) := by
          rw [hline]
          exact breakOn_append List.not_mem_nil _
        have hlen := partsLength_split (0x20 :: trim b) hsep (some 2) true
        rw [split_two_of_some hsep hbreak, if_pos rfl] at hs
        have hpart := part_of_mem_split (hs ▸ List.mem_cons_self)
        have hpos := List.length_pos_of_ne_nil (hpart.2 rfl)
        have hb := length_trim_le b
        rw [hs] at hlen
        simp only [partsLength, List.length_cons] at hlen
        omega
    · cases h
  · intro h
    have hsplit : split (headerLine item) (text ":") (some 2) true =
        [item.name, 0x20 :: item.value] := split_two h.name_plain h.name_ne (List.cons_ne_nil _ _)
    rw [readLine, hsplit]
    simp only [trim_cons_space, h.name_trim, h.value_trim]

theorem mapM_readLine_iff (items : Headers) :
    (items.map headerLine).mapM readLine = some items ↔ ∀ item ∈ items, HeaderKept item := by
  induction items with
  | nil => simp
  | cons item items ih =>
    rw [List.map_cons, List.mapM_cons, List.forall_mem_cons, ← ih, ← readLine_headerLine_iff]
    cases hread : readLine (headerLine item) with
    | none => simp
    | some first => cases hrest : (items.map headerLine).mapM readLine <;> simp

/-- The first line comes back where its second field is that of the message. -/
theorem StartLine.setFirstLine_iff {m : Message} (h : m.StartLine) {f2 : Text}
    (htoken : ∀ c ∈ f2, isSpace c = false) :
    setFirstLine (m.startLine f2) {} =
      some { filed1 := m.filed1, filed2 := m.filed2, filed3 := m.filed3 } ↔ f2 = m.filed2 := by
  have hfiled1 : 0x20 ∉ m.filed1 := notMem_of_token h.filed1_token rfl
  by_cases hempty : f2 = []
  · refine iff_of_false (fun hread => ?_) (fun heq => h.filed2_ne (heq ▸ hempty))
    unfold setFirstLine at hread
    split at hread
    · next a b c rest hsplit =>
      have hb := (part_of_mem_split (hsplit ▸ List.mem_cons_of_mem _ List.mem_cons_self)).2 rfl
      have hlen := partsLength_split (m.startLine f2) (show text " " ≠ [] by decide) (some 3) true
      have hpos := List.length_pos_of_ne_nil hb
      simp only [Option.some.injEq, Message.mk.injEq] at hread
      obtain ⟨ha, -, hc, -⟩ := hread
      have ha' := length_trim_le a
      have hc' := length_trim_le c
      rw [ha] at ha'
      rw [hc] at hc'
      rw [hsplit, startLine, hempty] at hlen
      simp only [partsLength, List.length_append, List.length_cons, List.length_nil] at hlen
      omega
    · cases hread
  · have hsplit : split (m.startLine f2) (text " ") (some 3) true = [m.filed1, f2, m.filed3] :=
      split_three hfiled1 h.filed1_ne (notMem_of_token htoken rfl) hempty h.filed3_ne
    rw [setFirstLine, hsplit]
    simp [trim_token h.filed1_token, h.filed3_trim]

theorem setFirstLine_rest {line : Text} {m : Message} (h : setFirstLine line {} = some m) :
    m.headers = [] ∧ m.body = [] := by
  unfold setFirstLine at h
  split at h
  · cases h
    exact ⟨rfl, rfl⟩
  · cases h

/-- The lines come back where the second field is that of the message and the headers are
kept. -/
theorem StartLine.setLines_iff {m : Message} (h : m.StartLine) {f2 : Text}
    (htoken : ∀ c ∈ f2, isSpace c = false) :
    setLines (m.startLine f2 :: m.headers.map headerLine) = some { m with body := [] } ↔
      f2 = m.filed2 ∧ ∀ item ∈ m.headers, HeaderKept item := by
  rw [← h.setFirstLine_iff htoken, ← mapM_readLine_iff, setLines]
  cases hfirst : setFirstLine (m.startLine f2) {} with
  | none => simp
  | some first =>
    obtain ⟨hheaders, hbody⟩ := setFirstLine_rest hfirst
    obtain ⟨filed1, filed2, filed3, headers, body⟩ := first
    obtain rfl : headers = [] := hheaders
    obtain rfl : body = [] := hbody
    rw [Option.bind_some, foldlM_setHeaderLine]
    cases (m.headers.map headerLine).mapM readLine with
    | none => simp
    | some items => simp [and_assoc]

/-! ### The text as it is parsed -/

theorem StartLine.cr_notMem {m : Message} (h : m.StartLine) {f2 : Text}
    (htoken : ∀ c ∈ f2, isSpace c = false) : 0x0D ∉ m.startLine f2 := by
  have h1 : 0x0D ∉ m.filed1 := notMem_of_token h.filed1_token rfl
  have h2 : 0x0D ∉ f2 := notMem_of_token htoken rfl
  simp [startLine, h1, h2, h.filed3_line.1]

theorem cr_notMem_headerLine {m : Message}
    (hheaders : ∀ item ∈ m.headers, NoBreak item.name ∧ NoBreak item.value) :
    ∀ l ∈ m.headers.map headerLine, l ≠ [] ∧ 0x0D ∉ l := by
  intro l hl
  obtain ⟨item, hitem, rfl⟩ := List.mem_map.mp hl
  obtain ⟨hname, hvalue⟩ := hheaders item hitem
  exact ⟨by simp [headerLine], by simp [headerLine, hname.1, hvalue.1]⟩

theorem length_written (f2 : Text) (m : Message) :
    (m.written f2).length = (m.head f2).length + 4 + m.body.length := by
  rw [written, List.length_append, List.length_append, length_headerEnd, Nat.add_assoc]

/-- Nothing is blank in front of the first field. -/
theorem StartLine.unblanked_written {m : Message} (h : m.StartLine) (f2 : Text) :
    unblanked (m.written f2) = m.written f2 := by
  obtain ⟨c, s, hfirst⟩ := List.exists_cons_of_ne_nil h.filed1_ne
  have hblank := isBlank_of_isSpace (h.filed1_token c (by simp [hfirst]))
  rw [unblanked, written, head, startLine, hfirst]
  simp only [List.cons_append, List.dropWhile_cons, hblank, Bool.false_eq_true, if_false]

/-- The header ends behind the lines. -/
theorem StartLine.headEnd_written {m : Message} (h : m.StartLine) {f2 : Text}
    (htoken : ∀ c ∈ f2, isSpace c = false)
    (hheaders : ∀ item ∈ m.headers, NoBreak item.name ∧ NoBreak item.value) :
    headEnd (m.written f2) = some (m.head f2).length := by
  have hpasses := passes_lines (h.cr_notMem htoken) (cr_notMem_headerLine hheaders)
  have hfind := findStr_headerEnd_of_passes hpasses m.body.length m.body
  rw [← List.length_append, List.append_assoc, ← head, ← written] at hfind
  rw [headEnd, h.unblanked_written, hfind]
  rfl

/-- The text of a message is parsed to its end where the length is found and the lines
are read. -/
theorem StartLine.parse_written_iff {m : Message} (h : m.StartLine) {f2 : Text}
    (htoken : ∀ c ∈ f2, isSpace c = false)
    (hheaders : ∀ item ∈ m.headers, NoBreak item.name ∧ NoBreak item.value) :
    parse (m.written f2) (m.written f2).length = some (((m.written f2).length : ℤ), m) ↔
      parseContentLength (m.written f2) (m.written f2).length = some (m.body.length : ℤ) ∧
      setLines (m.startLine f2 :: m.headers.map headerLine) = some { m with body := [] } := by
  have hend := h.headEnd_written htoken hheaders
  have hlen := m.length_written f2
  have hlong : 4 ≤ (m.written f2).length := by omega
  have hblank : ((m.written f2).takeWhile isBlank).length = 0 :=
    (unblanked_eq_self_iff _).mp (h.unblanked_written f2)
  have hsplit : split ((unblanked (m.written f2)).take (m.head f2).length) crlf none false =
      m.startLine f2 :: m.headers.map headerLine := by
    rw [h.unblanked_written, written, List.take_left]
    exact split_lines (by simp [startLine]) (h.cr_notMem htoken)
      fun l hl => (cr_notMem_headerLine hheaders l hl).2
  have hbody : (m.written f2).drop (0 + (m.head f2).length + 4) = m.body := by
    rw [written, ← List.append_assoc]
    exact List.drop_left' (by rw [List.length_append, length_headerEnd, Nat.zero_add])
  constructor
  · intro hparse
    obtain ⟨n, hcl⟩ : ∃ n, parseContentLength (m.written f2) (m.written f2).length = some n := by
      obtain ⟨hends, -⟩ := (parse_isSome_iff hlong hend).mp (by rw [hparse]; rfl)
      exact ⟨_, (parseContentLength_eq_some_iff _ _).mpr ⟨hends, rfl⟩⟩
    rw [parse_with_headEnd hlong hend hcl, hsplit, hblank] at hparse
    by_cases hmore : n > ((m.written f2).length : ℤ) - (m.head f2).length - 4
    · rw [if_pos hmore, Option.some.injEq, Prod.mk.injEq] at hparse
      omega
    · rw [if_neg hmore] at hparse
      cases hlines : setLines (m.startLine f2 :: m.headers.map headerLine) with
      | none =>
        rw [hlines, Option.some.injEq, Prod.mk.injEq] at hparse
        omega
      | some message =>
        rw [hlines] at hparse
        dsimp only at hparse
        split_ifs at hparse with hout
        rw [Option.some.injEq, Prod.mk.injEq] at hparse
        obtain ⟨hcount, hmessage⟩ := hparse
        obtain rfl : n = m.body.length := by omega
        have hbodiless : message = { message with body := [] } := by rw [← setLines_body hlines]
        have hsame := congrArg (fun message : Message => { message with body := [] }) hmessage
        exact ⟨hcl, congrArg some (hbodiless.trans hsame)⟩
  · rintro ⟨hcl, hlines⟩
    rw [parse_with_headEnd hlong hend hcl, if_neg (by omega), hsplit, hlines]
    dsimp only
    rw [hblank, if_neg (by omega), hbody, Int.toNat_natCast, List.take_length]
    simp only [Option.some.injEq, Prod.mk.injEq, and_true]
    omega

/-! ### Messages that come back -/

theorem target_eq_iff (y : UInt8) {m : Message} (h : m.filed2 ≠ []) :
    m.target y = some m.filed2 ↔ TargetKept m.filed2 := by
  unfold target isRequest TargetKept
  split_ifs with hrequest
  · rw [Uri.target_kept_iff y h, or_iff_right]
    simpa using hrequest
  · exact iff_of_true rfl (.inl (by simpa using hrequest))

/-- What is written of a target without space has no space. -/
theorem StartLine.target_token {m : Message} (h : m.StartLine) {y : UInt8} {f2 : Text}
    (htarget : m.target y = some f2) : ∀ c ∈ f2, isSpace c = false := by
  unfold target at htarget
  split_ifs at htarget
  · obtain ⟨u, hparse, rfl⟩ := Option.map_eq_some_iff.mp htarget
    exact Uri.token_toPathText h.filed2_ne h.filed2_token hparse
  · cases htarget
    exact h.filed2_token

/-- A message comes back where its second field and its headers are kept and the length
is found. -/
theorem StartLine.roundTrips_iff {m : Message} (h : m.StartLine) (y : UInt8)
    (hheaders : ∀ item ∈ m.headers, NoBreak item.name ∧ NoBreak item.value) :
    m.RoundTrips y ↔
      TargetKept m.filed2 ∧ (∀ item ∈ m.headers, HeaderKept item) ∧ m.LengthKept := by
  constructor
  · rintro ⟨s, htext, hparse⟩
    rw [toText_eq] at htext
    obtain ⟨f2, htarget, rfl⟩ := Option.map_eq_some_iff.mp htext
    have htoken := h.target_token htarget
    obtain ⟨hcl, hlines⟩ := (h.parse_written_iff htoken hheaders).mp hparse
    obtain ⟨rfl, hkept⟩ := (h.setLines_iff htoken).mp hlines
    exact ⟨(target_eq_iff y h.filed2_ne).mp htarget, hkept, hcl⟩
  · rintro ⟨htarget, hkept, hcl⟩
    have hlines := (h.setLines_iff h.filed2_token).mpr ⟨rfl, hkept⟩
    refine ⟨m.written m.filed2, ?_, (h.parse_written_iff h.filed2_token hheaders).mpr
      ⟨hcl, hlines⟩⟩
    rw [toText_eq, (target_eq_iff y h.filed2_ne).mpr htarget, Option.map_some]

theorem mem_set {name value : Text} {headers : Headers} {item : Item}
    (h : item ∈ headers.set name value) :
    item ∈ headers ∨
      item.value = value ∧ (item.name = name ∨ ∃ i ∈ headers, i.name = item.name) := by
  induction headers with
  | nil =>
    rw [Headers.set, List.mem_singleton] at h
    rw [h]
    exact .inr ⟨rfl, .inl rfl⟩
  | cons first headers ih =>
    unfold Headers.set at h
    split_ifs at h
    · rcases List.mem_cons.mp h with rfl | h
      · exact .inr ⟨rfl, .inr ⟨first, List.mem_cons_self, rfl⟩⟩
      · exact .inl (List.mem_cons_of_mem _ h)
    · rcases List.mem_cons.mp h with rfl | h
      · exact .inl List.mem_cons_self
      · rcases ih h with hold | ⟨hvalue, hname | ⟨i, hi, hname⟩⟩
        · exact .inl (List.mem_cons_of_mem _ hold)
        · exact .inr ⟨hvalue, .inl hname⟩
        · exact .inr ⟨hvalue, .inr ⟨i, List.mem_cons_of_mem _ hi, hname⟩⟩

theorem StartLine.setBody {m : Message} (h : m.StartLine) (body : Text) :
    (m.setBody body).StartLine :=
  ⟨h.filed1_ne, h.filed1_token, h.filed2_ne, h.filed2_token, h.filed3_ne, h.filed3_line,
    h.filed3_trim⟩

/-- The length of the body has no line break. -/
theorem noBreak_setBody {m : Message} (body : Text)
    (hheaders : ∀ item ∈ m.headers, NoBreak item.name ∧ NoBreak item.value) :
    ∀ item ∈ (m.setBody body).headers, NoBreak item.name ∧ NoBreak item.value := by
  have hlength : NoBreak (decimal (body.length : ℤ)) := by
    have hdigits := (decimal_digits body.length).2
    exact ⟨fun hc => absurd (hdigits _ hc) (by decide), fun hc => absurd (hdigits _ hc) (by decide)⟩
  intro item hitem
  rcases mem_set hitem with hold | ⟨hvalue, hname | ⟨i, hi, hname⟩⟩
  · exact hheaders item hold
  · rw [hvalue, hname]
    exact ⟨⟨by decide, by decide⟩, hlength⟩
  · rw [hvalue, ← hname]
    exact ⟨(hheaders i hi).1, hlength⟩

/-- A message with a body comes back from its text where its target is a path alone or no
path, its headers are kept, and the first `Content-Length:` of the text is that of the body. -/
theorem message_round_trip_iff (y : UInt8) {m : Message} (body : Text) (h : m.StartLine)
    (hheaders : ∀ item ∈ m.headers, NoBreak item.name ∧ NoBreak item.value) :
    (m.setBody body).RoundTrips y ↔
      TargetKept m.filed2 ∧ (∀ item ∈ (m.setBody body).headers, HeaderKept item) ∧
        (m.setBody body).LengthKept :=
  (h.setBody body).roundTrips_iff y (noBreak_setBody body hheaders)

/-- A request for a stream. -/
def describe (url : Text) : Message where
  filed1 := text "DESCRIBE"
  filed2 := url
  filed3 := text "RTSP/1.0"
  headers := [⟨text "CSeq", text "2"⟩]

theorem describe_startLine {url : Text} (hne : url ≠ []) (htoken : ∀ c ∈ url, isSpace c = false) :
    (describe url).StartLine where
  filed1_ne := show text "DESCRIBE" ≠ [] by decide
  filed1_token := token_of_all (s := text "DESCRIBE") (by decide)
  filed2_ne := hne
  filed2_token := htoken
  filed3_ne := show text "RTSP/1.0" ≠ [] by decide
  filed3_line := show 0x0D ∉ text "RTSP/1.0" ∧ 0x0A ∉ text "RTSP/1.0" by decide
  filed3_trim := show trim (text "RTSP/1.0") = text "RTSP/1.0" by decide

theorem describe_noBreak (url : Text) :
    ∀ item ∈ (describe url).headers, NoBreak item.name ∧ NoBreak item.value := by
  intro item hitem
  rw [List.mem_singleton.mp hitem]
  exact ⟨⟨by decide, by decide⟩, ⟨by decide, by decide⟩⟩

theorem message_round_trip_describe :
    ((describe (text "/live/main")).setBody (text "v=0")).RoundTrips 0 ↔
      TargetKept (text "/live/main") ∧
        (∀ item ∈ ((describe (text "/live/main")).setBody (text "v=0")).headers,
          HeaderKept item) ∧
        ((describe (text "/live/main")).setBody (text "v=0")).LengthKept :=
  message_round_trip_iff 0 (text "v=0")
    (describe_startLine (by decide) (token_of_all (by decide))) (describe_noBreak _)

/-- A stream that is asked for with a query is another one where the request arrives. -/
theorem message_round_trip_fails :
    ¬ ∀ (y : UInt8) (m : Message) (body : Text), m.StartLine →
      (∀ item ∈ m.headers, NoBreak item.name ∧ NoBreak item.value) →
      (m.setBody body).RoundTrips y := by
  intro h
  have hstart : (describe (text "/live?channel=1")).StartLine :=
    describe_startLine (by decide) (token_of_all (by decide))
  have hheaders := describe_noBreak (text "/live?channel=1")
  have htrip := h 0 _ [] hstart hheaders
  rw [(hstart.setBody []).roundTrips_iff 0 (noBreak_setBody [] hheaders)] at htrip
  have hkept : ¬ TargetKept (text "/live?channel=1") := by decide
  exact hkept htrip.1

end Message

end CxxDeps.Hypertext
