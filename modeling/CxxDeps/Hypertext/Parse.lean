import CxxDeps.Hypertext.Message
import CxxDeps.Sys.FindStr
import CxxDeps.Sys.Split
import Mathlib.Tactic.Ring

/-! `message::parse` on the unread bytes of a connection, and what it does with a message
that was sent as a first line, header lines and a body of the declared length. Reading
outside the bytes, and a body of negative length, is `none`. -/

namespace CxxDeps.Hypertext

open Sys

def crlf : Text := [0x0D, 0x0A]

def headerEnd : Text := [0x0D, 0x0A, 0x0D, 0x0A]

theorem length_headerEnd : headerEnd.length = 4 := rfl

/-- `strtoll` finds a character after the number. -/
def numberEnds (s : Text) : Bool :=
  let s := s.dropWhile isSpace
  let s := if s.head? == some 0x2D || s.head? == some 0x2B then s.drop 1 else s
  s.any fun c => !isDigit 10 c

/-- `headers::parse_content_length`: the number after the first `Content-Length:` of
all the bytes, or zero. -/
def parseContentLength (data : Text) (size : ℕ) : Option ℤ :=
  match findStr data size (text "Content-Length:") with
  | none => none
  | some none => some 0
  | some (some pos) =>
    if numberEnds (data.drop (pos + 15)) then some (strtol 10 (data.drop (pos + 15))) else none

namespace Message

def setFirstLine (line : Text) (message : Message) : Option Message :=
  match split line (text " ") (some 3) true with
  | filed1 :: filed2 :: filed3 :: _ =>
    some { message with filed1 := trim filed1, filed2 := filed2, filed3 := trim filed3 }
  | _ => none

def setHeaderLine (message : Message) (line : Text) : Option Message :=
  match split line (text ":") (some 2) true with
  | name :: value :: _ =>
    some { message with headers := message.headers ++ [⟨trim name, trim value⟩] }
  | _ => none

/-- The lines up to the end of the header. -/
def setLines : List Text → Option Message
  | [] => some {}
  | first :: lines => (setFirstLine first {}).bind fun message => lines.foldlM setHeaderLine message

def isBlank (c : UInt8) : Bool := c == 0x20 || c == 0x0D || c == 0x0A

theorem isBlank_of_isSpace {c : UInt8} (h : isSpace c = false) : isBlank c = false := by
  rw [Bool.eq_false_iff] at h ⊢
  intro hb
  apply h
  simp only [isBlank, Bool.or_eq_true, beq_iff_eq] at hb
  rcases hb with (rfl | rfl) | rfl <;> decide

/-- The spaces and line ends in front. -/
def leading (data : Text) (size : ℕ) : Option ℕ :=
  let n := (data.takeWhile isBlank).length
  if size ≤ n then some size else if data.length ≤ n then none else some n

/-- What `parse` returns and the message it leaves; a message that is refused is
not used. -/
def parse (data : Text) (size : ℕ) : Option (ℤ × Message) :=
  (leading data size).bind fun offset =>
    (findStr (data.drop offset) size headerEnd).bind fun
      | none => some ((offset : ℤ), {})
      | some pos =>
        (parseContentLength data size).bind fun hdclen =>
          if hdclen > (size : ℤ) - pos - 4 then some ((offset : ℤ), {})
          else match setLines (split ((data.drop offset).take pos) crlf none false) with
            | none => some (-1, {})
            | some message =>
              if hdclen < 0 ∨ (data.length : ℤ) < offset + pos + 4 + hdclen then none
              else
                let body := (data.drop (offset + pos + 4)).take hdclen.toNat
                some (pos + 4 + hdclen + offset, { message with body })

theorem leading_blank {b : Text} (hb : ∀ c ∈ b, isBlank c = true) :
    leading b b.length = some b.length := by
  have hall : b.takeWhile isBlank = b := by
    have h : (b ++ []).takeWhile isBlank = b ++ [].takeWhile isBlank :=
      List.takeWhile_append_of_pos hb
    simpa using h
  rw [leading, hall]
  simp

/-- Of fewer than four bytes only what is skipped is taken. -/
theorem parse_short {data : Text} {k : ℕ} (hleading : leading data data.length = some k)
    (hshort : data.length < 4) : parse data data.length = some ((k : ℤ), {}) := by
  rw [parse, hleading, Option.bind_some, findStr, length_headerEnd, if_pos hshort]
  rfl

end Message

/-! ### Messages as they are sent -/

/-- The parts of the first line, the names and the texts after the colon of the header
lines, and the body. -/
structure Sent where
  filed1 : Text
  filed2 : Text
  filed3 : Text
  fields : List (Text × Text)
  body : Text
  deriving DecidableEq, Repr

namespace Sent

/-- A header line. -/
def fieldLine (field : Text × Text) : Text := field.1 ++ 0x3A :: field.2

def firstLine (m : Sent) : Text := m.filed1 ++ 0x20 :: (m.filed2 ++ 0x20 :: m.filed3)

/-- The lines without the end of the last one. -/
def head (m : Sent) : Text := m.firstLine ++ m.fields.flatMap fun f => crlf ++ fieldLine f

def wire (m : Sent) : Text := m.head ++ (headerEnd ++ m.body)

/-- The message that the receiver is to see. -/
def message (m : Sent) : Message where
  filed1 := m.filed1
  filed2 := m.filed2
  filed3 := m.filed3
  headers := m.fields.map fun f => ⟨f.1, trim f.2⟩
  body := m.body

/-- The field declares the length of the body. -/
def IsLength (field : Text × Text) : Prop := icasecompare field.1 (text "Content-Length") = true

/-- A first line of three parts, header lines, and a body whose length is declared. -/
structure WellFormed (m : Sent) : Prop where
  filed1_ne : m.filed1 ≠ []
  filed1_token : ∀ c ∈ m.filed1, isSpace c = false
  filed2_ne : m.filed2 ≠ []
  filed2_token : ∀ c ∈ m.filed2, isSpace c = false
  filed3_ne : m.filed3 ≠ []
  filed3_line : 0x0D ∉ m.filed3 ∧ 0x0A ∉ m.filed3
  filed3_trim : trim m.filed3 = m.filed3
  name_ne : ∀ f ∈ m.fields, f.1 ≠ []
  name_token : ∀ f ∈ m.fields, 0x3A ∉ f.1 ∧ ∀ c ∈ f.1, isSpace c = false
  value_line : ∀ f ∈ m.fields, 0x0D ∉ f.2 ∧ 0x0A ∉ f.2
  length_number : ∀ f ∈ m.fields, IsLength f →
    trim f.2 ≠ [] ∧ (trim f.2).all (isDigit 10) = true ∧ strtol 10 f.2 = m.body.length
  length_declared : (∃ f ∈ m.fields, IsLength f) ∨ m.body = []

end Sent

/-! ### Lines -/

/-- The lines of a header without the last line end. -/
theorem splitLoop_lines {first : Text} {lines : List Text} (hfirst : 0x0D ∉ first)
    (hlines : ∀ l ∈ lines, 0x0D ∉ l) {n : ℕ} (hn : lines.length < n) (result : List Text) :
    splitLoop crlf none false n (first ++ lines.flatMap (crlf ++ ·)) result =
      result ++ first :: lines := by
  induction lines generalizing first n result with
  | nil =>
    obtain ⟨n, rfl⟩ : ∃ k, n = k + 1 := ⟨n - 1, by simp at hn; omega⟩
    rw [splitLoop]
    simp [crlf, breakOn_eq_none hfirst, keepPart]
  | cons l lines ih =>
    obtain ⟨n, rfl⟩ : ∃ k, n = k + 1 := ⟨n - 1, by simp at hn; omega⟩
    obtain ⟨hl, hrest⟩ := List.forall_mem_cons.mp hlines
    have hbreak : breakOn crlf (first ++ (l :: lines).flatMap (crlf ++ ·)) =
        some (first, l ++ lines.flatMap (crlf ++ ·)) := by
      rw [List.flatMap_cons, List.append_assoc]
      exact breakOn_pattern hfirst _
    rw [splitLoop]
    simp only [Option.any_none, Bool.false_eq_true, if_false, hbreak]
    rw [ih hl hrest (by simpa using hn)]
    simp [keepPart]

theorem split_lines {first : Text} {lines : List Text} (hne : first ≠ []) (hfirst : 0x0D ∉ first)
    (hlines : ∀ l ∈ lines, 0x0D ∉ l) :
    split (first ++ lines.flatMap (crlf ++ ·)) crlf none false = first :: lines := by
  have hlen : lines.length ≤ (lines.flatMap (crlf ++ ·)).length := by
    induction lines with
    | nil => simp
    | cons l lines ih =>
      have := ih (List.forall_mem_cons.mp hlines).2
      simp only [List.length_cons, List.flatMap_cons, List.length_append, crlf] at this ⊢
      omega
  have hrounds : lines.length < (first ++ lines.flatMap (crlf ++ ·)).length + 1 := by
    rw [List.length_append]
    omega
  rw [split, if_neg (by simp [hne, crlf]), splitLoop_lines hfirst hlines hrounds, List.nil_append]

/-- The search does not see an end of the header inside lines. -/
theorem passes_lines {first : Text} {lines : List Text} (hfirst : 0x0D ∉ first)
    (hlines : ∀ l ∈ lines, l ≠ [] ∧ 0x0D ∉ l) :
    Passes headerEnd 0 (first ++ lines.flatMap (crlf ++ ·)) 0 := by
  apply (Passes.of_notMem hfirst).append
  induction lines with
  | nil => exact Passes.nil 0
  | cons l lines ih =>
    obtain ⟨⟨hne, hcr⟩, hothers⟩ := List.forall_mem_cons.mp hlines
    obtain ⟨c, line, rfl⟩ := List.exists_cons_of_ne_nil hne
    obtain ⟨hc, hrest⟩ := List.ne_and_not_mem_of_not_mem_cons hcr
    -- two characters match, the line end is not repeated, and the search starts again
    have hmiss : headerEnd[2]? ≠ some c := fun heq => hc (Option.some.inj heq)
    have hcrlf : Passes headerEnd 0 crlf 2 :=
      (Passes.hit rfl (by decide)).append (Passes.hit rfl (by decide))
    have hline : Passes headerEnd 0 (crlf ++ ([c] ++ line)) 0 :=
      hcrlf.append ((Passes.miss hmiss).append (Passes.of_notMem hrest))
    rw [List.flatMap_cons]
    exact hline.append (ih hothers)

/-- The end of the header is found behind what the search passes over, also where more bytes
are searched than there are. -/
theorem findStr_headerEnd_of_passes {head : Text} (h : Passes headerEnd 0 head 0) (n : ℕ)
    (t : Text) :
    findStr (head ++ headerEnd ++ t) ((head ++ headerEnd).length + n) headerEnd =
      some (some head.length) := by
  have hlen : (head ++ headerEnd).length = head.length + (4 + 0) := List.length_append
  have hend : findStr (head ++ headerEnd) (head ++ headerEnd).length headerEnd =
      some (some head.length) := by
    rw [findStr, hlen, length_headerEnd, if_neg (by omega), h]
    simp [findStrFrom, headerEnd]
  exact findStr_append hend n t

/-! ### The lines of a message that was sent -/

namespace Sent

variable {m : Sent}

theorem WellFormed.setFirstLine (h : m.WellFormed) :
    Message.setFirstLine m.firstLine {} =
      some { filed1 := m.filed1, filed2 := m.filed2, filed3 := m.filed3 } := by
  have hsplit : split m.firstLine (text " ") (some 3) true = [m.filed1, m.filed2, m.filed3] :=
    split_three (notMem_of_token h.filed1_token rfl) h.filed1_ne
      (notMem_of_token h.filed2_token rfl) h.filed2_ne h.filed3_ne
  rw [Message.setFirstLine, hsplit]
  simp only [trim_token h.filed1_token, h.filed3_trim]

/-- A header line with something after the colon. -/
theorem WellFormed.setHeaderLine (h : m.WellFormed) {f : Text × Text} (hf : f ∈ m.fields)
    (hvalue : f.2 ≠ []) (message : Message) :
    message.setHeaderLine (fieldLine f) =
      some { message with headers := message.headers ++ [⟨f.1, trim f.2⟩] } := by
  have hsplit : split (fieldLine f) (text ":") (some 2) true = [f.1, f.2] :=
    split_two (h.name_token f hf).1 (h.name_ne f hf) hvalue
  rw [Message.setHeaderLine, hsplit]
  simp only [trim_token (h.name_token f hf).2]

theorem WellFormed.setLines (h : m.WellFormed) (hvalue : ∀ f ∈ m.fields, f.2 ≠ []) :
    Message.setLines (m.firstLine :: m.fields.map fieldLine) =
      some { m.message with body := [] } := by
  have hfold (fs : List (Text × Text)) (hfs : ∀ f ∈ fs, f ∈ m.fields) (message : Message) :
      (fs.map fieldLine).foldlM Message.setHeaderLine message =
        some { message with
          headers := message.headers ++ fs.map fun f => ⟨f.1, trim f.2⟩ } := by
    induction fs generalizing message with
    | nil => simp
    | cons f fs ih =>
      obtain ⟨hf, hfs⟩ := List.forall_mem_cons.mp hfs
      rw [List.map_cons, List.foldlM_cons, h.setHeaderLine hf (hvalue f hf)]
      simp [ih hfs]
  rw [Message.setLines, h.setFirstLine, Option.bind_some, hfold m.fields fun f hf => hf]
  rfl

theorem WellFormed.cr_notMem_firstLine (h : m.WellFormed) : 0x0D ∉ m.firstLine := by
  have h1 := notMem_of_token (c := 0x0D) h.filed1_token rfl
  have h2 := notMem_of_token (c := 0x0D) h.filed2_token rfl
  simp [firstLine, h1, h2, h.filed3_line.1]

theorem WellFormed.cr_notMem_fieldLine (h : m.WellFormed) {f : Text × Text} (hf : f ∈ m.fields) :
    0x0D ∉ fieldLine f := by
  have hname := notMem_of_token (c := 0x0D) (h.name_token f hf).2 rfl
  simp [fieldLine, hname, (h.value_line f hf).1]

theorem WellFormed.split_head (h : m.WellFormed) :
    split m.head crlf none false = m.firstLine :: m.fields.map fieldLine := by
  have hlines : ∀ l ∈ m.fields.map fieldLine, 0x0D ∉ l := by
    intro l hl
    obtain ⟨f, hf, rfl⟩ := List.mem_map.mp hl
    exact h.cr_notMem_fieldLine hf
  have hne : m.firstLine ≠ [] := by simp [firstLine]
  rw [head, ← split_lines hne h.cr_notMem_firstLine hlines, List.flatMap_map]

/-! ### The end of the header -/

/-- The search does not see an end of the header inside the lines. -/
theorem WellFormed.passes_head (h : m.WellFormed) : Passes headerEnd 0 m.head 0 := by
  have hlines : ∀ l ∈ m.fields.map fieldLine, l ≠ [] ∧ 0x0D ∉ l := by
    intro l hl
    obtain ⟨f, hf, rfl⟩ := List.mem_map.mp hl
    exact ⟨by simp [fieldLine], h.cr_notMem_fieldLine hf⟩
  have hpasses := passes_lines h.cr_notMem_firstLine hlines
  rwa [List.flatMap_map] at hpasses

/-- The end of the header is found, also where more bytes are searched than there are. -/
theorem WellFormed.findStr_head (h : m.WellFormed) (n : ℕ) (t : Text) :
    findStr (m.head ++ headerEnd ++ t) ((m.head ++ headerEnd).length + n) headerEnd =
      some (some m.head.length) :=
  findStr_headerEnd_of_passes h.passes_head n t

/-- What is skipped is what is blank in front of the first character. -/
theorem WellFormed.leading (h : m.WellFormed) {b data t t' : Text}
    (hb : ∀ c ∈ b, Message.isBlank c = true) (hdata : data ++ t = m.wire ++ t') :
    Message.leading (b ++ data) (b ++ data).length = some b.length := by
  obtain ⟨c, s, hfirst⟩ := List.exists_cons_of_ne_nil h.filed1_ne
  have hblank := Message.isBlank_of_isSpace (h.filed1_token c (by simp [hfirst]))
  have hskip : ((b ++ data).takeWhile Message.isBlank).length = b.length := by
    rw [List.takeWhile_append_of_pos hb]
    cases data with
    | nil => simp
    | cons x data =>
      have hx : x = c := by
        simp only [wire, head, firstLine, hfirst, List.cons_append, List.cons.injEq] at hdata
        exact hdata.1
      simp [hx, hblank]
  rw [Message.leading, hskip]
  split_ifs with hall
  · rw [List.length_append] at hall ⊢
    rw [Nat.le_antisymm hall (Nat.le_add_right _ _)]
  · rfl

/-! ### Parsing what was sent -/

theorem length_wire (m : Sent) : m.wire.length = m.head.length + 4 + m.body.length := by
  simp [wire, headerEnd]
  omega

/-- The first content length among the bytes is that of the message, and no header line
ends with its colon. -/
def DeclaredIn (m : Sent) (data : Text) : Prop :=
  parseContentLength data data.length = some (m.body.length : ℤ) ∧ ∀ f ∈ m.fields, f.2 ≠ []

/-- The first content length among the bytes is more than what there is after the header
and four bytes. -/
def WithheldIn (m : Sent) (data : Text) : Prop :=
  ∃ hdclen ∈ parseContentLength data data.length, hdclen > (data.length : ℤ) - m.head.length - 4

/-- What the bytes from the start of the message must be like for `parse`: nothing, until
the header is there, then that a content length is found that withholds the message until
it is there and is its own from then on. -/
def ReadableIn (m : Sent) (data : Text) : Prop :=
  m.head.length + 4 ≤ data.length →
    if m.wire.length ≤ data.length then m.DeclaredIn data else m.WithheldIn data

instance (m : Sent) (data : Text) : Decidable (m.DeclaredIn data) :=
  inferInstanceAs (Decidable (_ = some (m.body.length : ℤ) ∧ ∀ f ∈ m.fields, f.2 ≠ []))

instance (m : Sent) (data : Text) : Decidable (m.WithheldIn data) :=
  inferInstanceAs (Decidable (∃ hdclen ∈ parseContentLength data data.length,
    hdclen > (data.length : ℤ) - m.head.length - 4))

instance (m : Sent) (data : Text) : Decidable (m.ReadableIn data) :=
  inferInstanceAs (Decidable (m.head.length + 4 ≤ data.length →
    if m.wire.length ≤ data.length then m.DeclaredIn data else m.WithheldIn data))

theorem ReadableIn.declared {t : Text} (h : m.ReadableIn (m.wire ++ t)) :
    m.DeclaredIn (m.wire ++ t) := by
  have hwire := m.length_wire
  have hall : m.wire.length ≤ (m.wire ++ t).length := (List.prefix_append _ _).length_le
  simpa only [if_pos hall] using h (by omega)

/-- A message that is there is read, with what is blank in front of it. -/
theorem WellFormed.parse_wire (h : m.WellFormed) {b t : Text}
    (hb : ∀ c ∈ b, Message.isBlank c = true) (hread : m.DeclaredIn (b ++ (m.wire ++ t))) :
    Message.parse (b ++ (m.wire ++ t)) (b ++ (m.wire ++ t)).length =
      some (((b.length + m.wire.length : ℕ) : ℤ), m.message) := by
  have hwire := m.length_wire
  obtain ⟨hcl, hvalue⟩ := hread
  have hlen : (b ++ (m.wire ++ t)).length = b.length + (m.wire.length + t.length) := by
    simp only [List.length_append]
  have hsplit : m.wire ++ t = m.head ++ headerEnd ++ (m.body ++ t) := by simp [wire]
  have hfind : findStr (m.wire ++ t) (b ++ (m.wire ++ t)).length headerEnd =
      some (some m.head.length) := by
    have hn : (b ++ (m.wire ++ t)).length =
        (m.head ++ headerEnd).length + (b.length + (m.body.length + t.length)) := by
      rw [hlen, List.length_append, length_headerEnd]
      omega
    rw [hn, hsplit]
    exact h.findStr_head _ _
  have hhead : (m.wire ++ t).take m.head.length = m.head := by simp [wire]
  have hbody :
      ((b ++ (m.wire ++ t)).drop (b.length + m.head.length + 4)).take m.body.length = m.body := by
    rw [Nat.add_assoc, ← List.drop_drop, List.drop_left, hsplit,
      List.drop_left' (by rw [List.length_append, length_headerEnd]), List.take_left]
  rw [Message.parse, h.leading hb (List.append_nil (m.wire ++ t)), Option.bind_some,
    List.drop_left, hfind, Option.bind_some]
  dsimp only
  rw [hcl, Option.bind_some, if_neg (by omega), hhead, h.split_head, h.setLines hvalue]
  dsimp only
  rw [if_neg (by omega), Int.toNat_natCast, hbody]
  simp only [Option.some.injEq, Prod.mk.injEq]
  exact ⟨by omega, rfl⟩

/-- A message whose length withholds it is not taken, but what is blank in front is. -/
theorem WellFormed.parse_withheld (h : m.WellFormed) {b data t t' : Text}
    (hb : ∀ c ∈ b, Message.isBlank c = true) (hdata : data ++ t = m.wire ++ t')
    (hend : m.head.length + 4 ≤ data.length) (hread : m.WithheldIn (b ++ data)) :
    Message.parse (b ++ data) (b ++ data).length = some ((b.length : ℤ), {}) := by
  obtain ⟨hdclen, hcl, hmore⟩ := hread
  obtain ⟨body, rfl⟩ : m.head ++ headerEnd <+: data := by
    have hwire : m.head ++ headerEnd <+: data ++ t := hdata ▸ ⟨m.body ++ t', by simp [wire]⟩
    apply List.prefix_of_prefix_length_le hwire (List.prefix_append data t)
    rwa [List.length_append, length_headerEnd]
  have hfind : findStr (m.head ++ headerEnd ++ body) (b ++ (m.head ++ headerEnd ++ body)).length
      headerEnd = some (some m.head.length) := by
    have hn : (b ++ (m.head ++ headerEnd ++ body)).length =
        (m.head ++ headerEnd).length + (b.length + body.length) := by
      simp only [List.length_append]
      omega
    rw [hn]
    exact h.findStr_head _ _
  rw [Message.parse, h.leading hb hdata, Option.bind_some, List.drop_left, hfind,
    Option.bind_some]
  dsimp only
  rw [Option.mem_def.mp hcl, Option.bind_some, if_pos hmore]

/-- Of a message that is not there yet nothing is taken. -/
theorem WellFormed.parse_part (h : m.WellFormed) {data t t' : Text}
    (hdata : data ++ t = m.wire ++ t') (hpart : data.length < m.wire.length)
    (hread : m.ReadableIn data) : Message.parse data data.length = some (0, {}) := by
  by_cases hend : m.head.length + 4 ≤ data.length
  · have hmore := hread hend
    rw [if_neg (by omega)] at hmore
    exact h.parse_withheld (b := []) (List.forall_mem_nil _) hdata hend hmore
  · have hfind : findStr (data ++ t) (data ++ t).length headerEnd = some (some m.head.length) := by
      have hn : (data ++ t).length =
          (m.head ++ headerEnd).length + (m.body.length + t'.length) := by
        rw [hdata, List.length_append, List.length_append, m.length_wire, length_headerEnd]
        omega
      have hsplit : m.wire ++ t' = m.head ++ headerEnd ++ (m.body ++ t') := by simp [wire]
      rw [hn, hdata, hsplit]
      exact h.findStr_head _ _
    have hnone := findStr_take hfind (by rw [length_headerEnd]; omega)
    have hleading : Message.leading data data.length = some 0 :=
      h.leading (b := []) (List.forall_mem_nil _) hdata
    rw [Message.parse, hleading, Option.bind_some, List.drop_zero, hnone, Option.bind_some]
    rfl

end Sent

end CxxDeps.Hypertext
