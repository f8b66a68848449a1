import CxxDeps.Sys.StringUtil

/-! What `split` makes of a text: a first part and the parts of the rest. -/

namespace CxxDeps.Sys

/-! ### The first occurrence of a pattern -/

/-- A pattern is not found in a text without its first character. -/
theorem breakOn_eq_none {c : UInt8} {p s : Text} (h : c ∉ s) : breakOn (c :: p) s = none := by
  induction s with
  | nil => rfl
  | cons b s ih =>
    obtain ⟨hb, hs⟩ := List.ne_and_not_mem_of_not_mem_cons h
    have hfront : ¬ List.isPrefixOf (c :: p) (b :: s) := by
      simp [List.isPrefixOf, hb]
    rw [breakOn, if_neg hfront, ih hs, Option.map_none]

/-- A pattern is found behind such a text. -/
theorem breakOn_pattern {c : UInt8} {p a : Text} (h : c ∉ a) (b : Text) :
    breakOn (c :: p) (a ++ (c :: p ++ b)) = some (a, b) := by
  induction a with
  | nil => simp [breakOn]
  | cons x a ih =>
    obtain ⟨hx, ha⟩ := List.ne_and_not_mem_of_not_mem_cons h
    have hfront : ¬ List.isPrefixOf (c :: p) (x :: (a ++ (c :: p ++ b))) := by
      simp [List.isPrefixOf, hx]
    rw [List.cons_append, breakOn, if_neg hfront, ih ha, Option.map_some]

theorem breakOn_append {c : UInt8} {a : Text} (h : c ∉ a) (b : Text) :
    breakOn [c] (a ++ c :: b) = some (a, b) :=
  breakOn_pattern h b

theorem breakOn_spec {pattern s a b : Text} (h : breakOn pattern s = some (a, b)) :
    s = a ++ (pattern ++ b) := by
  induction s generalizing a with
  | nil => cases h
  | cons x s ih =>
    rw [breakOn] at h
    split_ifs at h with hfront
    · cases h
      rw [List.nil_append, List.prefix_iff_eq_append.mp (List.isPrefixOf_iff_prefix.mp hfront)]
    · obtain ⟨⟨a', b'⟩, hr, hab⟩ := Option.map_eq_some_iff.mp h
      cases hab
      rw [List.cons_append, ← ih hr]

/-- In front of the first occurrence there is none. -/
theorem breakOn_front {pattern s a b : Text} (h : breakOn pattern s = some (a, b)) :
    breakOn pattern a = none := by
  induction s generalizing a with
  | nil => cases h
  | cons x s ih =>
    rw [breakOn] at h
    split_ifs at h with hfront
    · cases h
      rfl
    · obtain ⟨⟨a', b'⟩, hr, hab⟩ := Option.map_eq_some_iff.mp h
      cases hab
      have hnot : ¬ pattern.isPrefixOf (x :: a') := by
        intro hprefix
        apply hfront
        rw [List.isPrefixOf_iff_prefix] at hprefix ⊢
        rw [breakOn_spec hr]
        exact hprefix.trans ⟨pattern ++ b', rfl⟩
      rw [breakOn, if_neg hnot, ih hr, Option.map_none]

theorem breakOn_shorter {pattern s a b : Text} (hp : pattern ≠ [])
    (h : breakOn pattern s = some (a, b)) : b.length < s.length := by
  induction s generalizing a with
  | nil => cases h
  | cons x s ih =>
    rw [breakOn] at h
    split_ifs at h
    · cases h
      have := List.length_pos_of_ne_nil hp
      simp only [List.length_drop, List.length_cons]
      omega
    · obtain ⟨⟨a', b'⟩, hr, hab⟩ := Option.map_eq_some_iff.mp h
      cases hab
      exact Nat.lt_succ_of_lt (ih hr)

/-! ### The loop without a maximum -/

theorem keepPart_eq (removeEmpty : Bool) (parts : List Text) (s : Text) :
    keepPart removeEmpty parts s = parts ++ keepPart removeEmpty [] s := by
  unfold keepPart
  split_ifs <;> simp

/-- The parts that are there already stay in front. -/
theorem splitLoop_eq (pattern : Text) (removeEmpty : Bool) (n : ℕ) (src : Text)
    (result : List Text) :
    splitLoop pattern none removeEmpty n src result =
      result ++ splitLoop pattern none removeEmpty n src [] := by
  induction n generalizing src result with
  | zero => simp [splitLoop]
  | succ n ih =>
    simp only [splitLoop, Option.any_none, Bool.false_eq_true, if_false]
    cases breakOn pattern src with
    | none => exact keepPart_eq removeEmpty result src
    | some r =>
      dsimp only
      rw [ih, ih _ (keepPart removeEmpty [] r.1), keepPart_eq removeEmpty result, List.append_assoc]

/-- More rounds than characters change nothing. -/
theorem splitLoop_fuel {pattern : Text} (hp : pattern ≠ []) (max : Option ℕ) (removeEmpty : Bool)
    {n m : ℕ} {src : Text} (hn : src.length < n) (hm : src.length < m) (result : List Text) :
    splitLoop pattern max removeEmpty n src result =
      splitLoop pattern max removeEmpty m src result := by
  induction n generalizing m src result with
  | zero => omega
  | succ n ih =>
    obtain ⟨m, rfl⟩ : ∃ k, m = k + 1 := ⟨m - 1, by omega⟩
    rw [splitLoop, splitLoop]
    split
    · rfl
    · next s rest h =>
      split_ifs at h
      have := breakOn_shorter hp h
      exact ih (by omega) (by omega) _

/-! ### Parts -/

theorem split_nil (pattern : Text) (max : Option ℕ) (removeEmpty : Bool) :
    split [] pattern max removeEmpty = [] := by
  simp [split]

/-- The first part of a text that contains the separator. -/
theorem split_append {c : UInt8} {a : Text} (h : c ∉ a) (ha : a ≠ []) (b : Text) :
    split (a ++ c :: b) [c] none true = a :: split b [c] none true := by
  have hkeep : keepPart true [] a = [a] := by simp [keepPart, ha]
  have hloop : splitLoop [c] none true (a ++ c :: b).length b [] = split b [c] none true := by
    cases b with
    | nil => simp [splitLoop, breakOn, keepPart, split_nil]
    | cons x b =>
      rw [split, if_neg (by simp)]
      exact splitLoop_fuel (by simp) _ _ (by simp; omega) (by simp) _
  rw [split, if_neg (by simp), splitLoop]
  simp only [Option.any_none, Bool.false_eq_true, if_false, breakOn_append h b]
  rw [hkeep, splitLoop_eq, hloop, List.singleton_append]

/-- A separator in front. -/
theorem split_cons_sep (c : UInt8) (b : Text) :
    split (c :: b) [c] none true = split b [c] none true := by
  have hbreak : breakOn [c] (c :: b) = some ([], b) := breakOn_append List.not_mem_nil b
  rw [split, if_neg (by simp), splitLoop]
  simp only [Option.any_none, Bool.false_eq_true, if_false, hbreak]
  show splitLoop [c] none true (c :: b).length b [] = _
  cases b with
  | nil => simp [splitLoop, breakOn, keepPart, split_nil]
  | cons x b =>
    rw [split, if_neg (by simp)]
    exact splitLoop_fuel (by simp) _ _ (by simp) (by simp) _

/-- A text without the separator is one part. -/
theorem split_of_notMem {c : UInt8} {a : Text} (h : c ∉ a) (ha : a ≠ []) :
    split a [c] none true = [a] := by
  rw [split, if_neg (by simp [ha]), splitLoop]
  simp [breakOn_eq_none h, keepPart, ha]

/-- The parts of a text in two, at a separator between them. -/
theorem split_sep (c : UInt8) (a b : Text) :
    split (a ++ c :: b) [c] none true = split a [c] none true ++ split b [c] none true := by
  obtain ⟨n, hn⟩ : ∃ n, a.length ≤ n := ⟨a.length, Nat.le_refl _⟩
  induction n generalizing a with
  | zero =>
    obtain rfl : a = [] := List.eq_nil_of_length_eq_zero (Nat.le_zero.mp hn)
    rw [List.nil_append, split_nil, List.nil_append]
    exact split_cons_sep c b
  | succ n ih =>
    by_cases hmem : c ∈ a
    · obtain ⟨a₁, a₂, rfl, ha₁⟩ := List.eq_append_cons_of_mem hmem
      have hshort : a₂.length ≤ n := by
        simp only [List.length_append, List.length_cons] at hn
        omega
      rw [List.append_assoc, List.cons_append]
      by_cases hempty : a₁ = []
      · rw [hempty, List.nil_append, List.nil_append, split_cons_sep, split_cons_sep, ih a₂ hshort]
      · rw [split_append ha₁ hempty, split_append ha₁ hempty, ih a₂ hshort, List.cons_append]
    · by_cases hempty : a = []
      · rw [hempty, List.nil_append, split_nil, List.nil_append, split_cons_sep]
      · rw [split_append hmem hempty, split_of_notMem hmem hempty, List.singleton_append]

/-- A text without the first character of the separator is not cut. -/
theorem split_two_of_notMem {c : UInt8} {p a : Text} (h : c ∉ a) (ha : a ≠ []) :
    split a (c :: p) (some 2) true = [a] := by
  rw [split, if_neg (by simp [ha]), splitLoop]
  simp [breakOn_eq_none h, keepPart, ha]

/-- A text cut at the first separator. -/
theorem split_two_pattern {c : UInt8} {p a : Text} (h : c ∉ a) (ha : a ≠ []) (b : Text) :
    split (a ++ (c :: p ++ b)) (c :: p) (some 2) true = a :: keepPart true [] b := by
  have hkeep : keepPart true [] a = [a] := by simp [keepPart, ha]
  rw [split, if_neg (by simp), splitLoop]
  simp only [Option.any_some, List.length_nil, breakOn_pattern h b]
  obtain ⟨n, hn⟩ : ∃ n, (a ++ (c :: p ++ b)).length = n + 1 :=
    ⟨a.length + p.length + b.length, by simp; omega⟩
  rw [hn]
  show splitLoop (c :: p) (some 2) true (n + 1) b (keepPart true [] a) = a :: keepPart true [] b
  rw [hkeep, splitLoop]
  exact keepPart_eq true [a] b

/-- A text with a separator, cut into two. -/
theorem split_two {c : UInt8} {a b : Text} (h : c ∉ a) (ha : a ≠ []) (hb : b ≠ []) :
    split (a ++ c :: b) [c] (some 2) true = [a, b] := by
  have hkeep : keepPart true [] b = [b] := by simp [keepPart, hb]
  rw [← hkeep]
  exact split_two_pattern (p := []) h ha b

/-- A text of three parts, of which the first two have no separator. -/
theorem split_three {c : UInt8} {a b d : Text} (ha : c ∉ a) (ha' : a ≠ []) (hb : c ∉ b)
    (hb' : b ≠ []) (hd : d ≠ []) :
    split (a ++ c :: (b ++ c :: d)) [c] (some 3) true = [a, b, d] := by
  obtain ⟨n, hn⟩ : ∃ n, (a ++ c :: (b ++ c :: d)).length = n + 2 :=
    ⟨a.length + b.length + d.length, by simp; omega⟩
  rw [split, if_neg (by simp), hn, splitLoop]
  simp only [Option.any_some, List.length_nil, breakOn_append ha]
  show splitLoop [c] (some 3) true (n + 2) (b ++ c :: d) (keepPart true [] a) = _
  rw [splitLoop]
  simp [keepPart, ha', hb', hd, breakOn_append hb, splitLoop]

/-- The first part of a text begins as the text does. -/
theorem split_head {c : UInt8} {p : Text} (h : c ∉ p) (hp : p ≠ []) (s : Text) :
    ∃ a parts, split (p ++ s) [c] none true = (p ++ a) :: parts := by
  by_cases hs : c ∈ s
  · obtain ⟨a, b, rfl, ha⟩ := List.eq_append_cons_of_mem hs
    have hpa : c ∉ p ++ a := by simp [h, ha]
    rw [← List.append_assoc]
    exact ⟨a, split b [c] none true, split_append hpa (by simp [hp]) b⟩
  · have hps : c ∉ p ++ s := by simp [h, hs]
    exact ⟨s, [], split_of_notMem hps (by simp [hp])⟩

theorem mem_keepPart {removeEmpty : Bool} {parts : List Text} {s a : Text}
    (h : a ∈ keepPart removeEmpty parts s) : a ∈ parts ∨ a = s := by
  unfold keepPart at h
  split_ifs at h
  · exact .inl h
  · simpa using h

theorem part_of_mem_splitLoop {pattern a src s : Text} {max : Option ℕ} {removeEmpty : Bool}
    {n : ℕ} {result : List Text} (hs : s <:+: src)
    (hresult : ∀ b ∈ result, b <:+: src ∧ (removeEmpty = true → b ≠ []))
    (h : a ∈ splitLoop pattern max removeEmpty n s result) :
    a <:+: src ∧ (removeEmpty = true → a ≠ []) := by
  have hkeep (result : List Text) (b : Text) (hb : b <:+: src)
      (hresult : ∀ b ∈ result, b <:+: src ∧ (removeEmpty = true → b ≠ [])) :
      ∀ d ∈ keepPart removeEmpty result b, d <:+: src ∧ (removeEmpty = true → d ≠ []) := by
    intro d hd
    unfold keepPart at hd
    split_ifs at hd with hempty
    · exact hresult d hd
    · rcases List.mem_append.mp hd with hd | hd
      · exact hresult d hd
      · rw [List.mem_singleton.mp hd]
        refine ⟨hb, ?_⟩
        rintro hremove rfl
        exact hempty (by rw [hremove]; rfl)
  induction n generalizing s result with
  | zero => exact hresult a h
  | succ n ih =>
    rw [splitLoop] at h
    split at h
    · exact hkeep result s hs hresult a h
    · next b rest hbreak =>
      split_ifs at hbreak
      have hcut := breakOn_spec hbreak
      have hb : b <:+: s := ⟨[], pattern ++ rest, hcut.symm⟩
      have hrest : rest <:+: s := ⟨b ++ pattern, [], by rw [hcut]; simp⟩
      exact ih (hrest.trans hs) (hkeep result b (hb.trans hs) hresult) h

/-- A part stands in the text, and is not empty where empty parts are removed. -/
theorem part_of_mem_split {src pattern a : Text} {max : Option ℕ} {removeEmpty : Bool}
    (h : a ∈ split src pattern max removeEmpty) :
    a <:+: src ∧ (removeEmpty = true → a ≠ []) := by
  unfold split at h
  split_ifs at h
  · exact absurd h List.not_mem_nil
  · exact part_of_mem_splitLoop (List.infix_refl src) (fun b hb => absurd hb List.not_mem_nil) h

/-- No part is longer than the text. -/
theorem length_le_of_mem_split {src pattern a : Text} {max : Option ℕ} {removeEmpty : Bool}
    (h : a ∈ split src pattern max removeEmpty) : a.length ≤ src.length :=
  (part_of_mem_split h).1.length_le

/-! ### What the parts are -/

theorem notMem_of_breakOn {c : UInt8} {s : Text} (h : breakOn [c] s = none) : c ∉ s := by
  intro hmem
  obtain ⟨a, b, rfl, ha⟩ := List.eq_append_cons_of_mem hmem
  rw [breakOn_append ha] at h
  cases h

/-- A text without the separator, where at most two parts are made. -/
theorem split_two_of_none {pattern s : Text} (hp : pattern ≠ []) (hs : s ≠ [])
    (h : breakOn pattern s = none) : split s pattern (some 2) true = [s] := by
  rw [split, if_neg (by simp [hp, hs]), splitLoop]
  simp [h, keepPart, hs]

/-- With a separator the first part is what is in front of it, unless that is empty. -/
theorem split_two_of_some {pattern s a b : Text} (hp : pattern ≠ [])
    (h : breakOn pattern s = some (a, b)) :
    split s pattern (some 2) true =
      if a = [] then split b pattern (some 2) true else a :: keepPart true [] b := by
  have hs : s ≠ [] := by
    rintro rfl
    cases h
  have hshort := breakOn_shorter hp h
  obtain ⟨n, hn⟩ : ∃ n, s.length = n + 1 := ⟨s.length - 1, by omega⟩
  rw [split, if_neg (by simp [hp, hs]), splitLoop, hn]
  simp only [Option.any_some, List.length_nil, h]
  show splitLoop pattern (some 2) true (n + 1) b (keepPart true [] a) = _
  split_ifs with ha
  · subst ha
    show splitLoop pattern (some 2) true (n + 1) b [] = _
    cases b with
    | nil => simp [splitLoop, breakOn, keepPart, split_nil]
    | cons x b =>
      rw [split, if_neg (by simp [hp])]
      exact splitLoop_fuel hp _ _ (by omega) (by simp) _
  · have hkeep : keepPart true [] a = [a] := by simp [keepPart, ha]
    rw [hkeep, splitLoop]
    exact keepPart_eq true [a] b

/-- A text cut into two: nothing, one part, which may have a separator behind it, or two
parts, of which the first one has no separator. -/
theorem split_two_spec {pattern : Text} (hp : pattern ≠ []) (s : Text) :
    split s pattern (some 2) true = [] ∨
    (∃ x front back, split s pattern (some 2) true = [x] ∧ x ≠ [] ∧
      s = front ++ (x ++ back) ∧ (back = [] ∨ back = pattern)) ∨
    ∃ x z front, split s pattern (some 2) true = [x, z] ∧ x ≠ [] ∧ z ≠ [] ∧
      breakOn pattern x = none ∧ s = front ++ (x ++ (pattern ++ z)) := by
  obtain ⟨n, hn⟩ : ∃ n, s.length ≤ n := ⟨s.length, Nat.le_refl _⟩
  induction n generalizing s with
  | zero =>
    obtain rfl : s = [] := List.eq_nil_of_length_eq_zero (Nat.le_zero.mp hn)
    exact .inl (split_nil _ _ _)
  | succ n ih =>
    cases hbreak : breakOn pattern s with
    | none =>
      by_cases hs : s = []
      · rw [hs]
        exact .inl (split_nil _ _ _)
      · exact .inr (.inl ⟨s, [], [], split_two_of_none hp hs hbreak, hs, by simp, .inl rfl⟩)
    | some r =>
      obtain ⟨a, b⟩ := r
      have hs := breakOn_spec hbreak
      have hshort := breakOn_shorter hp hbreak
      rw [split_two_of_some hp hbreak]
      split_ifs with ha
      · -- the separator in front is dropped
        rw [ha, List.nil_append] at hs
        rcases ih b (by omega) with h | ⟨x, front, back, h, hx, hb, hback⟩ |
          ⟨x, z, front, h, hx, hz, hno, hb⟩
        · exact .inl h
        · exact .inr (.inl ⟨x, pattern ++ front, back, h, hx, by rw [hs, hb, List.append_assoc],
            hback⟩)
        · exact .inr (.inr ⟨x, z, pattern ++ front, h, hx, hz, hno,
            by rw [hs, hb, List.append_assoc]⟩)
      · by_cases hb : b = []
        · exact .inr (.inl ⟨a, [], pattern, by simp [keepPart, hb], ha, by simpa [hb] using hs,
            .inr rfl⟩)
        · exact .inr (.inr ⟨a, b, [], by simp [keepPart, hb], ha, hb, breakOn_front hbreak, hs⟩)

/-- With a separator in the text, every part is shorter. -/
theorem length_lt_of_mem_split_two {pattern s x : Text} (hp : pattern ≠ [])
    (h : breakOn pattern s ≠ none) (hx : x ∈ split s pattern (some 2) true) :
    x.length < s.length := by
  cases hbreak : breakOn pattern s with
  | none => exact absurd hbreak h
  | some r =>
    obtain ⟨a, b⟩ := r
    have hs := breakOn_spec hbreak
    have hpos := List.length_pos_of_ne_nil hp
    rw [split_two_of_some hp hbreak] at hx
    rw [hs, List.length_append, List.length_append]
    split_ifs at hx
    · have := length_le_of_mem_split hx
      omega
    · rcases List.mem_cons.mp hx with rfl | hx
      · omega
      · rcases mem_keepPart hx with hmem | rfl
        · exact absurd hmem List.not_mem_nil
        · omega

/-- The first of two parts has no separator. -/
theorem notMem_of_split_two {c : UInt8} {s x : Text} {rest : List Text}
    (h : split s [c] (some 2) true = x :: rest) : c ∉ x := by
  obtain ⟨n, hn⟩ : ∃ n, s.length ≤ n := ⟨s.length, Nat.le_refl _⟩
  induction n generalizing s with
  | zero =>
    rw [List.eq_nil_of_length_eq_zero (Nat.le_zero.mp hn), split_nil] at h
    cases h
  | succ n ih =>
    cases hbreak : breakOn [c] s with
    | none =>
      have hs : s ≠ [] := by
        rintro rfl
        cases h
      rw [split_two_of_none (by simp) hs hbreak] at h
      cases h
      exact notMem_of_breakOn hbreak
    | some r =>
      obtain ⟨a, b⟩ := r
      have hshort := breakOn_shorter (by simp) hbreak
      rw [split_two_of_some (by simp) hbreak] at h
      split_ifs at h
      · exact ih h (by omega)
      · cases h
        exact notMem_of_breakOn (breakOn_front hbreak)

/-- A text cut into two, where empty parts are kept. -/
theorem split_two_keep {c : UInt8} {a : Text} (h : c ∉ a) (b : Text) :
    split (a ++ c :: b) [c] (some 2) false = [a, b] := by
  obtain ⟨n, hn⟩ : ∃ n, (a ++ c :: b).length = n + 1 := ⟨a.length + b.length, by simp; omega⟩
  rw [split, if_neg (by simp), splitLoop]
  simp only [Option.any_some, List.length_nil, breakOn_append h b]
  rw [hn]
  show splitLoop [c] (some 2) false (n + 1) b (keepPart false [] a) = [a, b]
  rw [splitLoop]
  rfl

theorem split_two_keep_of_notMem {c : UInt8} {a : Text} (h : c ∉ a) (ha : a ≠ []) :
    split a [c] (some 2) false = [a] := by
  rw [split, if_neg (by simp [ha]), splitLoop]
  simp [breakOn_eq_none h, keepPart]

/-- No part has the separator. -/
theorem notMem_of_mem_split {c : UInt8} {s x : Text} (hx : x ∈ split s [c] none true) :
    c ∉ x ∧ x ≠ [] := by
  obtain ⟨n, hn⟩ : ∃ n, s.length ≤ n := ⟨s.length, Nat.le_refl _⟩
  induction n generalizing s with
  | zero =>
    rw [List.eq_nil_of_length_eq_zero (Nat.le_zero.mp hn), split_nil] at hx
    cases hx
  | succ n ih =>
    by_cases hmem : c ∈ s
    · obtain ⟨a, b, rfl, ha⟩ := List.eq_append_cons_of_mem hmem
      have hb : b.length ≤ n := by
        simp only [List.length_append, List.length_cons] at hn
        omega
      by_cases hempty : a = []
      · rw [hempty, List.nil_append, split_cons_sep] at hx
        exact ih hx hb
      · rw [split_append ha hempty] at hx
        rcases List.mem_cons.mp hx with rfl | hx
        · exact ⟨ha, hempty⟩
        · exact ih hx hb
    · by_cases hempty : s = []
      · rw [hempty, split_nil] at hx
        cases hx
      · rw [split_of_notMem hmem hempty] at hx
        rw [List.mem_singleton.mp hx]
        exact ⟨hmem, hempty⟩

/-- The lengths of parts, with a separator behind each. -/
def partsLength : List Text → ℕ
  | [] => 0
  | a :: parts => a.length + 1 + partsLength parts

theorem partsLength_append (a b : List Text) :
    partsLength (a ++ b) = partsLength a + partsLength b := by
  induction a with
  | nil => exact (Nat.zero_add _).symm
  | cons x a ih =>
    rw [List.cons_append, partsLength, partsLength, ih]
    omega

/-- The parts and the separators between them are not longer than the text. -/
theorem partsLength_split (src : Text) {pattern : Text} (hp : pattern ≠ []) (max : Option ℕ)
    (removeEmpty : Bool) :
    partsLength (split src pattern max removeEmpty) ≤ src.length + 1 := by
  have hkeep (result : List Text) (s : Text) :
      partsLength (keepPart removeEmpty result s) ≤ partsLength result + s.length + 1 := by
    unfold keepPart
    split_ifs
    · omega
    · rw [partsLength_append, partsLength, partsLength]
      omega
  have hloop (n : ℕ) (s : Text) (result : List Text) :
      partsLength (splitLoop pattern max removeEmpty n s result) ≤
        partsLength result + s.length + 1 := by
    induction n generalizing s result with
    | zero =>
      rw [splitLoop]
      omega
    | succ n ih =>
      rw [splitLoop]
      split
      · exact hkeep result s
      · next b rest hbreak =>
        split_ifs at hbreak
        have hlen := congrArg List.length (breakOn_spec hbreak)
        have hpos := List.length_pos_of_ne_nil hp
        have hmore := ih rest (keepPart removeEmpty result b)
        have := hkeep result b
        simp only [List.length_append] at hlen
        omega
  unfold split
  split_ifs
  · exact Nat.zero_le _
  · have := hloop (src.length + 1) src []
    simpa [partsLength] using this

/-! ### Text without space -/

theorem notMem_of_token {s : Text} {c : UInt8} (h : ∀ c ∈ s, isSpace c = false)
    (hc : isSpace c = true) : c ∉ s := by
  intro hm
  rw [h c hm] at hc
  cases hc

theorem dropWhile_token {s : Text} (h : ∀ c ∈ s, isSpace c = false) :
    s.dropWhile isSpace = s := by
  cases s with
  | nil => rfl
  | cons c s => rw [List.dropWhile_cons, if_neg (by simp [h c List.mem_cons_self])]

theorem trim_token {s : Text} (h : ∀ c ∈ s, isSpace c = false) : trim s = s := by
  have hr : ∀ c ∈ s.reverse, isSpace c = false := fun c hc => h c (List.mem_reverse.mp hc)
  rw [trim, rtrim, dropWhile_token hr, List.reverse_reverse, ltrim, dropWhile_token h]

theorem token_of_all {s : Text} (h : (s.all fun c => !isSpace c) = true) :
    ∀ c ∈ s, isSpace c = false := by
  simpa using h

/-! ### Text without space around it -/

theorem trim_within (s : Text) : trim s <:+: s := by
  have hr : rtrim s <+: s := by
    rw [rtrim, ← List.reverse_suffix, List.reverse_reverse]
    exact List.dropWhile_suffix isSpace
  exact (List.dropWhile_suffix isSpace).isInfix.trans hr.isInfix

theorem length_trim_le (s : Text) : (trim s).length ≤ s.length := (trim_within s).length_le

theorem isSpace_of_head?_ltrim {s : Text} {c : UInt8} (h : (ltrim s).head? = some c) :
    isSpace c = false := by
  have hnot := List.head?_dropWhile_not isSpace s
  rw [← ltrim, h] at hnot
  simpa using hnot

theorem isSpace_of_getLast?_rtrim {s : Text} {c : UInt8} (h : (rtrim s).getLast? = some c) :
    isSpace c = false := by
  rw [rtrim, List.getLast?_reverse] at h
  exact isSpace_of_head?_ltrim h

/-- A text that neither begins nor ends with space. -/
theorem trim_eq_self {s : Text} (hhead : ∀ c, s.head? = some c → isSpace c = false)
    (hlast : ∀ c, s.getLast? = some c → isSpace c = false) : trim s = s := by
  have hl (t : Text) (h : ∀ c, t.head? = some c → isSpace c = false) : t.dropWhile isSpace = t := by
    cases t with
    | nil => rfl
    | cons c t => rw [List.dropWhile_cons, if_neg (by simp [h c rfl])]
  have hr : rtrim s = s := by
    rw [rtrim, hl, List.reverse_reverse]
    intro c hc
    rw [List.head?_reverse] at hc
    exact hlast c hc
  rw [trim, hr]
  exact hl s hhead

theorem trim_trim (s : Text) : trim (trim s) = trim s := by
  apply trim_eq_self
  · intro c hc
    exact isSpace_of_head?_ltrim hc
  · intro c hc
    obtain ⟨front, hfront⟩ : trim s <:+ rtrim s := List.dropWhile_suffix isSpace
    apply isSpace_of_getLast?_rtrim (s := s)
    rw [← hfront, List.getLast?_append, hc]
    rfl

/-- A space in front does not matter. -/
theorem trim_cons_space (s : Text) : trim (0x20 :: s) = trim s := by
  have hspace : isSpace 0x20 = true := rfl
  rw [trim, trim, rtrim, List.reverse_cons, List.dropWhile_append]
  split_ifs with hempty
  · have hr : rtrim s = [] := by
      rw [rtrim, List.isEmpty_iff.mp hempty]
      rfl
    rw [hr]
    rfl
  · rw [List.reverse_append, List.reverse_singleton, List.singleton_append, ← rtrim, ltrim,
      List.dropWhile_cons, if_pos hspace]
    rfl

end CxxDeps.Sys
