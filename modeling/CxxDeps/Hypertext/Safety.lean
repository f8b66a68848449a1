import CxxDeps.Hypertext.Parse

/-! Which bytes `message::parse` takes without leaving them. The end of the header is looked
for behind the blanks in front, but among as many bytes as there are with them; the length
of the body is compared in the same way, and may be negative. -/

namespace CxxDeps.Hypertext

open Sys

namespace Message

/-! ### What a result says of the bytes -/

/-- The header and the body of the message lie one after the other among the bytes
that are taken. -/
def Inside (data : Text) (count : ℤ) (message : Message) : Prop :=
  ∃ blank head rest,
    data = blank ++ (head ++ (headerEnd ++ (message.body ++ rest))) ∧
    count = ((blank.length + head.length + 4 + message.body.length : ℕ) : ℤ) ∧
    setLines (split head crlf none false) = some { message with body := [] }

/-- A negative error, or a number of the bytes, among which is the message if there
is one. -/
def Accounted (data : Text) (count : ℤ) (message : Message) : Prop :=
  count < 0 ∨ (0 ≤ count ∧ count ≤ data.length) ∧ (message = {} ∨ Inside data count message)

/-- Nothing outside the bytes is read, and the result accounts for them. -/
def Safe (data : Text) : Prop :=
  ∃ count message, parse data data.length = some (count, message) ∧ Accounted data count message

/-! ### Bytes that are safe to parse -/

/-- The number after the first `Content-Length:` ends before the bytes do. -/
def LengthEnds (data : Text) : Prop :=
  ∀ pos, findStr data data.length (text "Content-Length:") = some (some pos) →
    numberEnds (data.drop (pos + 15)) = true

/-- That number, or zero. -/
def declaredLength (data : Text) : ℤ :=
  match findStr data data.length (text "Content-Length:") with
  | some (some pos) => strtol 10 (data.drop (pos + 15))
  | _ => 0

/-- What is behind the blanks in front. -/
def unblanked (data : Text) : Text := data.dropWhile isBlank

/-- Where the end of the header is, and where it is not. -/
def headEnd (data : Text) : Option ℕ :=
  (findStr (unblanked data) (unblanked data).length headerEnd).join

/-- With the end of the header at `pos`, the declared length can be read, and where the
header lines can be, it is not negative and is at most what follows, or more than that
by more than the blanks in front. -/
structure LengthFits (data : Text) (pos : ℕ) : Prop where
  ends : LengthEnds data
  fits : (setLines (split ((unblanked data).take pos) crlf none false)).isSome = true →
    0 ≤ declaredLength data ∧
      (declaredLength data + pos + 4 ≤ (unblanked data).length ∨
        (data.length : ℤ) < declaredLength data + pos + 4)

/-- There are fewer than four bytes; or there is a header, with a length that fits; or there
is none, and no blanks in front. -/
def Bounded (data : Text) : Prop :=
  data.length < 4 ∨
    match headEnd data with
    | some pos => LengthFits data pos
    | none => unblanked data = data

theorem length_unblanked (data : Text) :
    (data.takeWhile isBlank).length + (unblanked data).length = data.length := by
  rw [unblanked, ← List.length_append, List.takeWhile_append_dropWhile]

theorem drop_blank (data : Text) : data.drop (data.takeWhile isBlank).length = unblanked data := by
  have h : (data.takeWhile isBlank ++ data.dropWhile isBlank).drop
      (data.takeWhile isBlank).length = unblanked data := List.drop_left
  rwa [List.takeWhile_append_dropWhile] at h

theorem leading_eq (data : Text) :
    leading data data.length = some (data.takeWhile isBlank).length := by
  have hlen := length_unblanked data
  rw [leading]
  split_ifs
  · congr 1
    omega
  · rfl

theorem unblanked_eq_self_iff (data : Text) :
    unblanked data = data ↔ (data.takeWhile isBlank).length = 0 := by
  have hlen := length_unblanked data
  constructor
  · intro h
    rw [h] at hlen
    omega
  · intro h
    rw [← drop_blank, h, List.drop_zero]

/-! ### The declared length -/

theorem parseContentLength_eq_some_iff (data : Text) (n : ℤ) :
    parseContentLength data data.length = some n ↔ LengthEnds data ∧ declaredLength data = n := by
  have hinside := findStr_ne_none data (text "Content-Length:")
  unfold parseContentLength LengthEnds declaredLength
  cases hfind : findStr data data.length (text "Content-Length:") with
  | none => exact absurd hfind hinside
  | some found =>
    cases found with
    | none => simp
    | some pos => by_cases hends : numberEnds (data.drop (pos + 15)) <;> simp [hends]

/-! ### The end of the header -/

/-- The search for the end of the header, among four bytes or more. -/
theorem findStr_headerEnd {data : Text} (hlong : 4 ≤ data.length) :
    findStr (unblanked data) data.length headerEnd =
      match headEnd data with
      | some pos => some (some pos)
      | none => if unblanked data = data then some none else none := by
  have hlen := length_unblanked data
  have hself := unblanked_eq_self_iff data
  have hinside := findStr_ne_none (unblanked data) headerEnd
  obtain ⟨n, hn⟩ : ∃ n, data.length = (unblanked data).length + n :=
    ⟨_, (Nat.add_comm _ _).trans hlen |>.symm⟩
  unfold headEnd
  cases hfind : findStr (unblanked data) (unblanked data).length headerEnd with
  | none => exact absurd hfind hinside
  | some found =>
    cases found with
    | some pos =>
      have h := findStr_append hfind n []
      rw [List.append_nil, ← hn] at h
      exact h
    | none =>
      have hnone : findStrFrom headerEnd (unblanked data).length (unblanked data) 0 0 =
          some none := findStrFrom_of_findStr hfind
      split_ifs with hblank
      · rwa [hblank] at hfind ⊢
      · rw [hself] at hblank
        obtain ⟨m, rfl⟩ : ∃ m, n = m + 1 := ⟨n - 1, by omega⟩
        rw [findStr, if_neg (by rw [length_headerEnd]; omega), hn]
        exact findStrFrom_beyond hnone m

/-! ### Parsing -/

/-- The lines set no body. -/
theorem setLines_body {lines : List Text} {message : Message}
    (h : setLines lines = some message) : message.body = [] := by
  have hfold (lines : List Text) (m : Message) (hm : m.body = [])
      (h : lines.foldlM setHeaderLine m = some message) : message.body = [] := by
    induction lines generalizing m with
    | nil =>
      cases h
      exact hm
    | cons line lines ih =>
      rw [List.foldlM_cons] at h
      obtain ⟨m', hm', h⟩ := Option.bind_eq_some_iff.mp h
      apply ih m' _ h
      unfold setHeaderLine at hm'
      split at hm'
      · cases hm'
        exact hm
      · cases hm'
  cases lines with
  | nil =>
    cases h
    rfl
  | cons first lines =>
    obtain ⟨m, hm, h⟩ := Option.bind_eq_some_iff.mp h
    apply hfold lines m _ h
    unfold setFirstLine at hm
    split at hm
    · cases hm
      rfl
    · cases hm

/-- What stands in front of the end of the header. -/
theorem take_of_headEnd {data : Text} {pos : ℕ} (h : headEnd data = some pos) :
    ∃ head t, unblanked data = head ++ (headerEnd ++ t) ∧ head.length = pos := by
  have hfind : findStr (unblanked data) (unblanked data).length headerEnd = some (some pos) := by
    unfold headEnd at h
    rwa [Option.join_eq_some_iff] at h
  exact findStr_spec hfind

theorem headEnd_le {data : Text} {pos : ℕ} (h : headEnd data = some pos) :
    pos + 4 ≤ (unblanked data).length := by
  obtain ⟨head, t, hhead, rfl⟩ := take_of_headEnd h
  rw [hhead, List.length_append, List.length_append, length_headerEnd]
  omega

/-- Without an end of the header, what is blank in front is taken, if that is nothing. -/
theorem parse_without_headEnd {data : Text} (hlong : 4 ≤ data.length) (h : headEnd data = none) :
    parse data data.length = if unblanked data = data then some (0, {}) else none := by
  rw [parse, leading_eq, Option.bind_some, drop_blank, findStr_headerEnd hlong, h]
  dsimp only
  split_ifs with hblank
  · rw [unblanked_eq_self_iff] at hblank
    rw [hblank]
    rfl
  · rfl

/-- With an end of the header and a length that is read. -/
theorem parse_with_headEnd {data : Text} {pos : ℕ} {n : ℤ} (hlong : 4 ≤ data.length)
    (h : headEnd data = some pos) (hn : parseContentLength data data.length = some n) :
    parse data data.length =
      if n > (data.length : ℤ) - pos - 4 then some (((data.takeWhile isBlank).length : ℤ), {})
      else match setLines (split ((unblanked data).take pos) crlf none false) with
        | none => some (-1, {})
        | some message =>
          if n < 0 ∨ (data.length : ℤ) < (data.takeWhile isBlank).length + pos + 4 + n then none
          else
            let body := (data.drop ((data.takeWhile isBlank).length + pos + 4)).take n.toNat
            some (pos + 4 + n + (data.takeWhile isBlank).length, { message with body }) := by
  rw [parse, leading_eq, Option.bind_some, drop_blank, findStr_headerEnd hlong, h,
    Option.bind_some]
  exact (congrArg (Option.bind · _) hn).trans rfl

/-- With an end of the header, `parse` returns where the length fits. -/
theorem parse_isSome_iff {data : Text} {pos : ℕ} (hlong : 4 ≤ data.length)
    (h : headEnd data = some pos) :
    (parse data data.length).isSome = true ↔ LengthFits data pos := by
  have hlen := length_unblanked data
  have hend := headEnd_le h
  constructor
  · intro hsome
    cases hcl : parseContentLength data data.length with
    | none =>
      rw [parse, leading_eq, Option.bind_some, drop_blank, findStr_headerEnd hlong, h,
        Option.bind_some] at hsome
      dsimp only at hsome
      rw [hcl] at hsome
      cases hsome
    | some n =>
      obtain ⟨hends, rfl⟩ := (parseContentLength_eq_some_iff data n).mp hcl
      refine ⟨hends, fun hlines => ?_⟩
      rw [parse_with_headEnd hlong h hcl] at hsome
      obtain ⟨message, hmessage⟩ := Option.isSome_iff_exists.mp hlines
      rw [hmessage] at hsome
      dsimp only at hsome
      split_ifs at hsome with hmore hout
      · exact ⟨by omega, .inr (by omega)⟩
      · cases hsome
      · exact ⟨by omega, .inl (by omega)⟩
  · rintro ⟨hends, hfits⟩
    have hcl := (parseContentLength_eq_some_iff data _).mpr ⟨hends, rfl⟩
    rw [parse_with_headEnd hlong h hcl]
    cases hlines : setLines (split ((unblanked data).take pos) crlf none false) with
    | none => split_ifs <;> rfl
    | some message =>
      obtain ⟨hneg, hfit⟩ := hfits (by rw [hlines]; rfl)
      dsimp only
      split_ifs with hmore hout
      · rfl
      · exact absurd hout (by omega)
      · rfl

/-- A result accounts for the bytes. -/
theorem parse_accounted {data : Text} {count : ℤ} {message : Message}
    (hparse : parse data data.length = some (count, message)) : Accounted data count message := by
  have hlen := length_unblanked data
  by_cases hlong : 4 ≤ data.length
  · cases h : headEnd data with
    | none =>
      rw [parse_without_headEnd hlong h] at hparse
      split_ifs at hparse
      cases hparse
      exact .inr ⟨⟨le_rfl, by omega⟩, .inl rfl⟩
    | some pos =>
      obtain ⟨n, hn⟩ : ∃ n, parseContentLength data data.length = some n := by
        obtain ⟨hends, -⟩ := (parse_isSome_iff hlong h).mp (by rw [hparse]; rfl)
        exact ⟨_, (parseContentLength_eq_some_iff data _).mpr ⟨hends, rfl⟩⟩
      obtain ⟨head, t, hhead, hpos⟩ := take_of_headEnd h
      rw [parse_with_headEnd hlong h hn] at hparse
      by_cases hmore : n > (data.length : ℤ) - pos - 4
      · rw [if_pos hmore] at hparse
        cases hparse
        exact .inr ⟨⟨by omega, by omega⟩, .inl rfl⟩
      · rw [if_neg hmore] at hparse
        split at hparse
        · cases hparse
          exact .inl (by decide)
        · next read hlines =>
          dsimp only at hparse
          split_ifs at hparse with hout
          cases hparse
          obtain ⟨k, rfl⟩ : ∃ k : ℕ, n = k := ⟨n.toNat, by omega⟩
          have hdata : data = data.takeWhile isBlank ++ (head ++ (headerEnd ++ t)) := by
            rw [← hhead, unblanked, List.takeWhile_append_dropWhile]
          have htake : (unblanked data).take pos = head := by
            rw [hhead, ← hpos, List.take_left]
          have hbody : data.drop ((data.takeWhile isBlank).length + pos + 4) = t := by
            rw [Nat.add_assoc, ← List.drop_drop, drop_blank, hhead, ← List.append_assoc,
              List.drop_left' (by rw [List.length_append, hpos, length_headerEnd])]
          rw [hhead, List.length_append, List.length_append, hpos, length_headerEnd] at hlen
          refine .inr ⟨⟨by omega, by omega⟩, .inr ⟨data.takeWhile isBlank, head, t.drop k, ?_⟩⟩
          rw [hbody, Int.toNat_natCast]
          refine ⟨?_, ?_, ?_⟩
          · rwa [List.take_append_drop]
          · rw [List.length_take, hpos]
            omega
          · rw [← htake, hlines, ← setLines_body hlines]
  · rw [parse_short (leading_eq data) (by omega)] at hparse
    cases hparse
    exact .inr ⟨⟨by omega, by omega⟩, .inl rfl⟩

theorem isSome_parse_iff (data : Text) : (parse data data.length).isSome = true ↔ Bounded data := by
  unfold Bounded
  by_cases hlong : 4 ≤ data.length
  · rw [or_iff_right (by omega)]
    cases h : headEnd data with
    | none => rw [parse_without_headEnd hlong h, Option.isSome_ite]
    | some pos => exact parse_isSome_iff hlong h
  · rw [parse_short (leading_eq data) (by omega)]
    exact iff_of_true rfl (.inl (by omega))

/-- `parse` reads only its bytes and accounts for them where the bytes are bounded. -/
theorem parse_safe_iff (data : Text) : Safe data ↔ Bounded data := by
  rw [← isSome_parse_iff]
  constructor
  · rintro ⟨count, message, hparse, -⟩
    rw [hparse]
    rfl
  · intro hsome
    obtain ⟨⟨count, message⟩, hparse⟩ := Option.isSome_iff_exists.mp hsome
    exact ⟨count, message, hparse, parse_accounted hparse⟩

/-- Behind a line end, the search for the end of the header goes on after the bytes. -/
theorem parse_unsafe : ¬ ∀ data : Text, Safe data := by
  intro h
  obtain ⟨count, message, hparse, -⟩ := h (crlf ++ text "GET /")
  have hnone : parse (crlf ++ text "GET /") (crlf ++ text "GET /").length = none := by decide
  cases hnone.symm.trans hparse

end Message

end CxxDeps.Hypertext
