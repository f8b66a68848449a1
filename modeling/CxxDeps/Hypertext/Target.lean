import CxxDeps.Hypertext.Uri

/-! Which request targets come back from `uri::parse` and `uri::to_path_string`. The scheme and
the host of a target are dropped, and the zero that is written behind a query makes it a
different one; a path alone comes back. -/

namespace CxxDeps.Hypertext

open Sys

namespace Uri

/-! ### The keys of a query -/

theorem addArg_spec {y : UInt8} {args args' : List (Text × Text)} {item : Text}
    (hitem : 0x26 ∉ item) (h : addArg y args item = some args') :
    args' = args ∨ ∃ key v, args' = args ++ [(key, v)] ∧ PlainKey key ∧ key <:+: item := by
  unfold addArg at h
  split at h
  · next key value parts hsplit =>
    obtain ⟨v, -, rfl⟩ := Option.map_eq_some_iff.mp h
    refine .inr ⟨key, v, rfl, ?_⟩
    have hpart := part_of_mem_split (hsplit ▸ List.mem_cons_self)
    rcases split_two_spec (show text "=" ≠ [] by decide) item with hs | ⟨x, _, _, hs, -⟩ |
      ⟨x, z, front, hs, -, -, hno, -⟩
    · cases hsplit.symm.trans hs
    · cases hsplit.symm.trans hs
    · cases hsplit.symm.trans hs
      exact ⟨⟨hpart.2 rfl, fun hc => hitem (hpart.1.subset hc), notMem_of_breakOn hno⟩, hpart.1⟩
  · cases h
    exact .inl rfl

theorem keys_of_parseQueryString {y : UInt8} {s : Text} {args : List (Text × Text)}
    (h : parseQueryString y s = some args) : ∀ a ∈ args, PlainKey a.1 ∧ a.1 <:+: s := by
  have hfold (items : List Text) (hitems : ∀ item ∈ items, 0x26 ∉ item ∧ item <:+: s)
      (first : List (Text × Text)) (hfirst : ∀ a ∈ first, PlainKey a.1 ∧ a.1 <:+: s)
      (h : items.foldlM (addArg y) first = some args) :
      ∀ a ∈ args, PlainKey a.1 ∧ a.1 <:+: s := by
    induction items generalizing first with
    | nil =>
      cases h
      exact hfirst
    | cons item items ih =>
      obtain ⟨⟨hamp, hpart⟩, hitems⟩ := List.forall_mem_cons.mp hitems
      rw [List.foldlM_cons] at h
      obtain ⟨next, hnext, h⟩ := Option.bind_eq_some_iff.mp h
      refine ih hitems next ?_ h
      rcases addArg_spec hamp hnext with rfl | ⟨key, v, rfl, hkey, hin⟩
      · exact hfirst
      · rw [List.forall_mem_append, List.forall_mem_singleton]
        exact ⟨hfirst, hkey, hin.trans hpart⟩
  refine hfold _ (fun item hitem => ?_) [] (List.forall_mem_nil _) h
  exact ⟨(notMem_of_mem_split hitem).1, (part_of_mem_split hitem).1⟩

/-- Without an equals sign there are no arguments. -/
theorem parseQueryString_of_notMem (y : UInt8) {s : Text} (h : 0x3D ∉ s) :
    parseQueryString y s = some [] := by
  have hfold (items : List Text) (hitems : ∀ item ∈ items, item ≠ [] ∧ item ⊆ s) :
      items.foldlM (addArg y) [] = some [] := by
    induction items with
    | nil => rfl
    | cons item items ih =>
      obtain ⟨⟨hne, hsub⟩, hothers⟩ := List.forall_mem_cons.mp hitems
      have hsplit : split item (text "=") (some 2) true = [item] :=
        split_two_of_notMem (fun hc => h (hsub hc)) hne
      have hskip : addArg y [] item = some [] := by rw [addArg, hsplit]
      rw [List.foldlM_cons, hskip]
      exact ih hothers
  apply hfold
  intro item hitem
  exact ⟨(part_of_mem_split hitem).2 rfl, (part_of_mem_split hitem).1.subset⟩

/-! ### A query does not come back -/

theorem suffix_append_cases {a b s : Text} (h : s <:+ a ++ b) :
    s <:+ b ∨ ∃ s', s = s' ++ b ∧ s' <:+ a := by
  rcases List.suffix_or_suffix_of_suffix h (List.suffix_append a b) with hb | ⟨s', rfl⟩
  · exact .inl hb
  · obtain ⟨front, hfront⟩ := h
    rw [← List.append_assoc] at hfront
    exact .inr ⟨s', rfl, front, List.append_cancel_right hfront⟩

theorem amp_of_suffix_args {args : List (Text × Text)} {s : Text}
    (h : s <:+ args.flatMap argText) (hne : s ≠ []) : ∃ s', s = s' ++ [0x26] := by
  obtain ⟨s', c, rfl⟩ : ∃ s' c, s = s' ++ [c] := ⟨_, _, (List.dropLast_append_getLast hne).symm⟩
  refine ⟨s', ?_⟩
  rcases List.eq_nil_or_concat args with rfl | ⟨front, last, rfl⟩
  · simp at h
  · have hend : (front.concat last).flatMap argText =
        front.flatMap argText ++ last.1 ++ 0x3D :: urlEncode last.2 ++ [0x26] := by
      simp [argText_eq]
    obtain ⟨t, ht⟩ := h
    rw [hend, ← List.append_assoc] at ht
    rw [List.append_inj_right' ht rfl]

/-- Without a key there is no argument. -/
theorem parseQueryString_keyless (y : UInt8) (v : Text) :
    parseQueryString y (0x3D :: (urlEncode v ++ [0])) = some [] := by
  have hvalue : 0x3D ∉ urlEncode v ++ [0] := by
    have hv : 0x3D ∉ urlEncode v := notMem_urlEncode rfl v
    simp [hv]
  have hamp : 0x26 ∉ urlEncode v ++ [0] := by
    have hv : 0x26 ∉ urlEncode v := notMem_urlEncode rfl v
    simp [hv]
  have hbreak : breakOn [0x3D] (0x3D :: (urlEncode v ++ [0])) = some ([], urlEncode v ++ [0]) :=
    breakOn_append List.not_mem_nil _
  have hsplit : split (0x3D :: (urlEncode v ++ [0])) (text "=") (some 2) true =
      [urlEncode v ++ [0]] := by
    show split (0x3D :: (urlEncode v ++ [0])) [0x3D] (some 2) true = _
    rw [split_two_of_some (List.cons_ne_nil _ _) hbreak, if_pos rfl]
    exact split_two_of_notMem hvalue (by simp)
  rw [parseQueryString_item y (by simpa using hamp) (List.cons_ne_nil _ _), addArg, hsplit]

/-- No end of the text of a query is read as the query: the last argument is read with a zero
behind its value, or not at all. -/
theorem query_not_read {y : UInt8} {args : List (Text × Text)} {key v s : Text}
    (hs : s <:+ args.flatMap argText ++ (key ++ 0x3D :: (urlEncode v ++ [0]))) :
    parseQueryString y s ≠ some (args ++ [(key, v)]) := by
  intro h
  have hkey : PlainKey key := (keys_of_parseQueryString h (key, v) (by simp)).1
  have hlonger (args' : List (Text × Text)) (key' : Text)
      (h' : args' ++ [(key', v ++ [0])] = args ++ [(key, v)]) : False := by
    have hlast := List.append_inj_right' h' rfl
    simp at hlast
  have hnone (h' : parseQueryString y s = some []) : False := by
    rw [h'] at h
    simp at h
  rw [← List.append_assoc] at hs
  rcases suffix_append_cases hs with hvalue | ⟨front, rfl, hfront⟩
  · rcases List.suffix_cons_iff.mp hvalue with rfl | hvalue
    · exact hnone (parseQueryString_keyless y v)
    · apply hnone
      apply parseQueryString_of_notMem
      intro hc
      have hv : 0x3D ∉ urlEncode v := notMem_urlEncode rfl v
      simpa [hv] using hvalue.subset hc
  · have hplain : front <:+ key → False := by
      intro hin
      by_cases hempty : front = []
      · rw [hempty] at hnone
        exact hnone (parseQueryString_keyless y v)
      · have hfrontKey : PlainKey front :=
          ⟨hempty, fun hc => hkey.amp (hin.subset hc), fun hc => hkey.equal (hin.subset hc)⟩
        rw [parseQueryString_last y hfrontKey] at h
        exact hlonger [] front (Option.some.inj h)
    rcases suffix_append_cases hfront with hin | ⟨front, rfl, hin⟩
    · exact hplain hin
    · by_cases hempty : front = []
      · rw [hempty] at hplain
        exact hplain (List.suffix_refl key)
      · -- the last item is the whole one
        obtain ⟨items, rfl⟩ := amp_of_suffix_args hin hempty
        have hcut : items ++ [0x26] ++ key ++ 0x3D :: (urlEncode v ++ [0]) =
            items ++ 0x26 :: (key ++ 0x3D :: (urlEncode v ++ [0])) := by simp
        rw [hcut, parseQueryString_sep, parseQueryString_last y hkey] at h
        obtain ⟨args', -, hargs⟩ := Option.bind_eq_some_iff.mp h
        exact hlonger args' key (Option.some.inj hargs)

/-! ### What is read of a target -/

/-- The path is what is in front of the query, if that begins with a slash, or a part of it. -/
theorem parseHostPath_spec {v u : Uri} {s : Text} (hne : s ≠ [])
    (h : v.parseHostPath s = some u) :
    u.args = v.args ∧ u.path <:+: s ∧
      (s.head? = some 0x2F ∧ u.path = s ∨ u.path.length < s.length) := by
  unfold parseHostPath at h
  split_ifs at h with hhead
  · cases h
    exact ⟨rfl, List.infix_refl s, .inl ⟨hhead, rfl⟩⟩
  · split at h
    · cases h
    · next hostPort path hsplit =>
      split at h
      · cases h
      · cases h
        refine ⟨rfl, ?_⟩
        rcases path with _ | ⟨path, rest⟩
        · exact ⟨List.nil_infix, .inr (List.length_pos_of_ne_nil hne)⟩
        · have hmem : path ∈ split s (text "/") (some 2) true := by
            rw [hsplit]
            simp
          refine ⟨(part_of_mem_split hmem).1, .inr ?_⟩
          apply length_lt_of_mem_split_two (by decide) _ hmem
          intro hbreak
          rw [split_two_of_none (by decide) hne hbreak] at hsplit
          cases hsplit

/-- The parts of what is behind the scheme. -/
theorem parsePathQuery_spec {y : UInt8} {v u : Uri} {s : Text}
    (h : parsePathQuery y v s = some u) :
    ∃ hostPath, hostPath <:+: s ∧ hostPath ≠ [] ∧ (0x3F ∈ s → hostPath.length < s.length) ∧
      (∃ w, parseHostPath w hostPath = some u) ∧
      (u.args = [] ∨ ∃ front query, s = front ++ 0x3F :: query ∧ 0x3F ∉ hostPath ∧
        parseQueryString y query = some u.args) := by
  unfold parsePathQuery at h
  have hshort {x : Text} (hmark : 0x3F ∈ s) (hx : x ∈ split s (text "?") (some 2) true) :
      x.length < s.length :=
    length_lt_of_mem_split_two (by decide) (fun hno => notMem_of_breakOn hno hmark) hx
  rcases split_two_spec (show text "?" ≠ [] by decide) s with hs | ⟨x, _, _, hs, -⟩ |
    ⟨x, z, front, hs, -, -, hno, hcut⟩
  · rw [hs] at h
    cases h
  · have hmem : x ∈ split s (text "?") (some 2) true := by simp [hs]
    rw [hs] at h
    have hpath : parseHostPath { v with args := [] } x = some u := h
    have hu := (parseHostPath_spec ((part_of_mem_split hmem).2 rfl) hpath).1
    exact ⟨x, (part_of_mem_split hmem).1, (part_of_mem_split hmem).2 rfl,
      fun hmark => hshort hmark hmem, ⟨_, hpath⟩, .inl hu⟩
  · have hmem : x ∈ split s (text "?") (some 2) true := by simp [hs]
    rw [hs] at h
    obtain ⟨args, hquery, hpath⟩ := Option.bind_eq_some_iff.mp h
    have hu := (parseHostPath_spec ((part_of_mem_split hmem).2 rfl) hpath).1
    refine ⟨x, (part_of_mem_split hmem).1, (part_of_mem_split hmem).2 rfl,
      fun hmark => hshort hmark hmem, ⟨_, hpath⟩, .inr ⟨front ++ x, z, ?_, ?_, ?_⟩⟩
    · rw [hcut, List.append_assoc]
      rfl
    · exact notMem_of_breakOn hno
    · rw [hu]
      exact hquery

/-- What is behind the scheme stands in the text, and is shorter if there is a scheme. -/
theorem parse_spec {y : UInt8} {s : Text} {u : Uri} (h : parse y s = some u) :
    (u.path = [] ∧ u.args = []) ∨
    ∃ v pathQuery front back, s = front ++ (pathQuery ++ back) ∧
      (back = [] ∨ back = text "://") ∧
      (breakOn (text "://") s ≠ none → pathQuery.length < s.length) ∧
      parsePathQuery y v pathQuery = some u := by
  have hshort {x : Text} (hmark : breakOn (text "://") s ≠ none)
      (hx : x ∈ split s (text "://") (some 2) true) : x.length < s.length :=
    length_lt_of_mem_split_two (by decide) hmark hx
  unfold parse at h
  rcases split_two_spec (show text "://" ≠ [] by decide) s with hs | ⟨x, front, back, hs, -, hcut,
    hback⟩ | ⟨x, z, front, hs, -, -, -, hcut⟩
  · rw [hs] at h
    cases h
    exact .inl ⟨rfl, rfl⟩
  · have hmem : x ∈ split s (text "://") (some 2) true := by simp [hs]
    rw [hs] at h
    exact .inr ⟨_, x, front, back, hcut, hback, fun hmark => hshort hmark hmem, h⟩
  · have hmem : z ∈ split s (text "://") (some 2) true := by simp [hs]
    rw [hs] at h
    refine .inr ⟨_, z, front ++ (x ++ text "://"), [], ?_, .inl rfl,
      fun hmark => hshort hmark hmem, h⟩
    rw [hcut]
    simp

/-- The path that is read is the whole text, if that is a path alone, or a part of it. -/
theorem path_of_parse {y : UInt8} {s : Text} {u : Uri} (hs : s ≠ []) (h : parse y s = some u) :
    u.path <:+: s ∧ ((s.head? = some 0x2F ∧ 0x3F ∉ s ∧ breakOn (text "://") s = none) ∨
      u.path.length < s.length) := by
  rcases parse_spec h with ⟨hpath, -⟩ | ⟨v, pathQuery, front, back, hcut, -, hshort, h⟩
  · rw [hpath]
    exact ⟨List.nil_infix, .inr (List.length_pos_of_ne_nil hs)⟩
  · obtain ⟨hostPath, hin, hne, hmark, ⟨w, hw⟩, -⟩ := parsePathQuery_spec h
    obtain ⟨-, hpath, hwhole⟩ := parseHostPath_spec hne hw
    have hpart : pathQuery <:+: s := ⟨front, back, by rw [hcut, List.append_assoc]⟩
    refine ⟨hpath.trans (hin.trans hpart), ?_⟩
    by_cases hlen : u.path.length < s.length
    · exact .inr hlen
    · have hle := hpart.length_le
      have hle' := hin.length_le
      have hle'' := hpath.length_le
      -- nothing has been cut off
      have heq : pathQuery = s := hpart.eq_of_length (by omega)
      have heq' : hostPath = pathQuery := hin.eq_of_length (by omega)
      rw [heq', heq] at hwhole hmark
      refine .inl ⟨?_, fun hc => ?_, ?_⟩
      · rcases hwhole with ⟨hhead, -⟩ | hless
        · exact hhead
        · exact absurd hless hlen
      · exact absurd (hmark hc) (lt_irrefl _)
      · by_contra hscheme
        have := hshort hscheme
        omega

/-- The query that is read, with what is behind it. -/
theorem query_of_parse {y : UInt8} {s : Text} {u : Uri} (h : parse y s = some u) :
    u.args = [] ∨ ∃ front query back, s = front ++ 0x3F :: (query ++ back) ∧
      (back = [] ∨ back = text "://") ∧ 0x3F ∉ u.path ∧
      parseQueryString y query = some u.args := by
  rcases parse_spec h with ⟨-, hargs⟩ | ⟨v, pathQuery, front, back, hcut, hback, -, h⟩
  · exact .inl hargs
  · obtain ⟨hostPath, -, hne, -, ⟨w, hw⟩, hquery⟩ := parsePathQuery_spec h
    obtain ⟨-, hpath, -⟩ := parseHostPath_spec hne hw
    rcases hquery with hargs | ⟨front', query, hcut', hmark, hquery⟩
    · exact .inl hargs
    · refine .inr ⟨front ++ front', query, back, ?_, hback, fun hc => hmark (hpath.subset hc),
        hquery⟩
      rw [hcut, hcut']
      simp

/-! ### Targets that come back -/

/-- A path alone: it begins with a slash, and has neither a question mark nor `://`. -/
structure PathAlone (s : Text) : Prop where
  slash : s.head? = some 0x2F
  question : 0x3F ∉ s
  scheme : breakOn (text "://") s = none

instance (s : Text) : Decidable (PathAlone s) :=
  decidable_of_iff (s.head? = some 0x2F ∧ 0x3F ∉ s ∧ breakOn (text "://") s = none)
    ⟨fun h => ⟨h.1, h.2.1, h.2.2⟩, fun h => ⟨h.slash, h.question, h.scheme⟩⟩

theorem PathAlone.parse {s : Text} (h : PathAlone s) (y : UInt8) :
    ∃ u, Uri.parse y s = some u ∧ u.path = s ∧ u.args = [] := by
  have hne : s ≠ [] := by
    rintro rfl
    cases h.slash
  have hquestion : split s (text "?") (some 2) true = [s] := split_two_of_notMem h.question hne
  refine ⟨{ raw := s, isDefaultPort := false, path := s }, ?_, rfl, rfl⟩
  rw [Uri.parse, split_two_of_none (by decide) hne h.scheme]
  dsimp only
  rw [parsePathQuery, hquestion]
  show parseHostPath _ s = _
  rw [parseHostPath, if_pos h.slash]
  rfl

theorem suffix_of_notMem {c : UInt8} {a b front back : Text} (ha : c ∉ a)
    (h : a ++ c :: b = front ++ c :: back) : back <:+ b := by
  induction a generalizing front with
  | nil =>
    rcases front with _ | ⟨x, front⟩
    · rw [List.nil_append, List.nil_append, List.cons.injEq] at h
      exact h.2 ▸ List.suffix_refl b
    · rw [List.nil_append, List.cons_append, List.cons.injEq] at h
      exact ⟨front ++ [c], by rw [h.2, List.append_assoc, List.singleton_append]⟩
  | cons x a ih =>
    obtain ⟨hx, ha⟩ := List.ne_and_not_mem_of_not_mem_cons ha
    rcases front with _ | ⟨z, front⟩
    · rw [List.cons_append, List.nil_append, List.cons.injEq] at h
      exact absurd h.1.symm hx
    · rw [List.cons_append, List.cons_append, List.cons.injEq] at h
      exact ih ha h.2

/-- A text with a query comes back as another one. -/
theorem toPathText_ne_of_args {y : UInt8} {s : Text} {u : Uri} (h : Uri.parse y s = some u)
    (hargs : u.args ≠ []) : u.toPathText ≠ s := by
  intro htext
  obtain ⟨front, query, back, hcut, hback, hpath, hquery⟩ :=
    (query_of_parse h).resolve_left hargs
  obtain ⟨args, ⟨key, v⟩, hlast⟩ : ∃ args last, u.args = args ++ [last] :=
    ⟨_, _, (List.dropLast_append_getLast hargs).symm⟩
  have hout : u.toPathText = u.path ++ 0x3F :: u.toQueryString := by
    rw [toPathText, if_pos hargs]
    rfl
  have hback : back = [] := by
    rcases hback with hback | hback
    · exact hback
    · have hzero : s.getLast? = some 0 := by
        have hend : s = u.path ++ 0x3F :: (args.flatMap argText ++ (key ++ 0x3D :: urlEncode v)) ++
            [0] := by
          rw [← htext, hout, toQueryString_concat hlast]
          simp
        rw [hend, List.getLast?_concat]
      have hslash : s = front ++ 0x3F :: (query ++ [0x3A, 0x2F]) ++ [0x2F] := by
        rw [hcut, hback, List.append_assoc, List.cons_append, List.append_assoc]
        rfl
      rw [hslash, List.getLast?_concat] at hzero
      cases hzero
  rw [hout, hcut, hback, List.append_nil] at htext
  have hsuffix := suffix_of_notMem hpath htext
  rw [toQueryString_concat hlast] at hsuffix
  rw [hlast] at hquery
  exact query_not_read hsuffix hquery

/-- A target comes back where it is a path alone. -/
theorem target_kept_iff (y : UInt8) {s : Text} (hs : s ≠ []) :
    (Uri.parse y s).map toPathText = some s ↔ PathAlone s := by
  constructor
  · intro h
    obtain ⟨u, hparse, htext⟩ := Option.map_eq_some_iff.mp h
    by_cases hargs : u.args = []
    · have hpath : u.path = s := by
        rw [← htext, toPathText, if_neg (not_not.mpr hargs), List.append_nil]
      obtain ⟨-, hwhole⟩ := path_of_parse hs hparse
      rcases hwhole with ⟨hslash, hquestion, hscheme⟩ | hless
      · exact ⟨hslash, hquestion, hscheme⟩
      · rw [hpath] at hless
        exact absurd hless (lt_irrefl _)
    · exact absurd htext (toPathText_ne_of_args hparse hargs)
  · intro h
    obtain ⟨u, hparse, hpath, hargs⟩ := h.parse y
    rw [hparse, Option.map_some, toPathText, hpath, if_neg (not_not.mpr hargs), List.append_nil]

/-- What is written of a text without space has no space. -/
theorem token_toPathText {y : UInt8} {s : Text} {u : Uri} (hs : s ≠ [])
    (htoken : ∀ c ∈ s, isSpace c = false) (h : Uri.parse y s = some u) :
    ∀ c ∈ u.toPathText, isSpace c = false := by
  have hencoded (c : UInt8) : isEncoded c = true → isSpace c = false := by
    revert c
    exact Library.forall_uint8 (by decide +kernel)
  have hkeys : ∀ a ∈ u.args, ∀ c ∈ a.1, isSpace c = false := by
    intro a ha c hc
    rcases query_of_parse h with hargs | ⟨front, query, back, hcut, -, -, hquery⟩
    · rw [hargs] at ha
      cases ha
    · have hin := (keys_of_parseQueryString hquery a ha).2
      apply htoken
      rw [hcut]
      simp [hin.subset hc]
  have hquery : ∀ c ∈ u.args.flatMap argText, isSpace c = false := by
    intro c hc
    obtain ⟨a, ha, hc⟩ := List.mem_flatMap.mp hc
    rw [argText_eq] at hc
    simp only [List.mem_append, List.mem_cons, List.not_mem_nil, or_false] at hc
    rcases hc with hc | rfl | hc | rfl
    · exact hkeys a ha c hc
    · rfl
    · exact hencoded c (isEncoded_of_mem a.2 c hc)
    · rfl
  intro c hc
  unfold toPathText toQueryString at hc
  rcases List.mem_append.mp hc with hc | hc
  · exact htoken c ((path_of_parse hs h).1.subset hc)
  · split_ifs at hc
    · rcases List.mem_append.mp hc with hc | hc
      · rw [List.mem_singleton.mp (show c ∈ [0x3F] from hc)]
        rfl
      · rcases List.mem_append.mp hc with hc | hc
        · exact hquery c (List.dropLast_subset _ hc)
        · rw [List.mem_singleton.mp hc]
          rfl
    · cases hc

end Uri

end CxxDeps.Hypertext
