import CxxDeps.Library.Bits
import CxxDeps.Sys.StringUtil

/-! `sys::string_util::is_valid_utf8`. It looks at how many bytes the first one of a
character announces and whether the others are continuation bytes, not at what they encode. -/

namespace CxxDeps.Sys

open Library

/-- The number of bytes that the first one announces. -/
def utf8Bytes (c : UInt8) : Option ℕ :=
  if c &&& 0x80 = 0 then some 1
  else if c &&& 0xE0 = 0xC0 then some 2
  else if c &&& 0xF0 = 0xE0 then some 3
  else if c &&& 0xF8 = 0xF0 then some 4
  else none

/-- The loop of `is_valid_utf8`. -/
def isValidUtf8Loop : ℕ → Text → Bool
  | 0, _ => true
  | _ + 1, [] => true
  | n + 1, c :: str =>
    match utf8Bytes c with
    | none => false
    | some bytes =>
      if bytes > str.length + 1 then false
      else if (str.take (bytes - 1)).all (· &&& 0xC0 == 0x80) then
        isValidUtf8Loop n (str.drop (bytes - 1))
      else false

def isValidUtf8 (str : Text) : Bool := isValidUtf8Loop str.length str

/-! ### What is UTF-8 -/

/-- Characters, that is Unicode scalar values, each in its shortest form. -/
def WellFormedUtf8 (s : Text) : Prop := ∃ cs : List Char, s = cs.flatMap String.utf8EncodeChar

/-- The first byte of a character of `n` more bytes. -/
def Announces (c : UInt8) : ℕ → Prop
  | 0 => c ≤ 0x7F
  | 1 => 0xC0 ≤ c ∧ c ≤ 0xDF
  | 2 => 0xE0 ≤ c ∧ c ≤ 0xEF
  | 3 => 0xF0 ≤ c ∧ c ≤ 0xF7
  | _ => False

def Continues (c : UInt8) : Prop := 0x80 ≤ c ∧ c ≤ 0xBF

/-- First bytes, each with as many continuation bytes as it announces. -/
inductive Structured : Text → Prop
  | nil : Structured []
  | cons {c : UInt8} {tail s : Text} (hc : Announces c tail.length)
      (htail : ∀ b ∈ tail, Continues b) (hs : Structured s) : Structured (c :: (tail ++ s))

/-- The first two bytes of what is not the shortest form, a surrogate, or above U+10FFFF. -/
def outsideUtf8 (a b : UInt8) : Bool :=
  a == 0xC0 || a == 0xC1 || a == 0xE0 && b < 0xA0 || a == 0xF0 && b < 0x90 ||
    a == 0xED && 0xA0 ≤ b || a == 0xF4 && 0x90 ≤ b || 0xF5 ≤ a

/-- Somewhere in the bytes there are two of these. -/
def hasOutside : Text → Bool
  | a :: b :: s => outsideUtf8 a b || hasOutside (b :: s)
  | _ => false

/-! ### What the loop accepts -/

theorem announces_iff (c : UInt8) (n : ℕ) : utf8Bytes c = some (n + 1) ↔ Announces c n := by
  match n with
  | 0 =>
    show utf8Bytes c = some 1 ↔ c ≤ 0x7F
    revert c
    exact forall_uint8 (by decide +kernel)
  | 1 =>
    show utf8Bytes c = some 2 ↔ 0xC0 ≤ c ∧ c ≤ 0xDF
    revert c
    exact forall_uint8 (by decide +kernel)
  | 2 =>
    show utf8Bytes c = some 3 ↔ 0xE0 ≤ c ∧ c ≤ 0xEF
    revert c
    exact forall_uint8 (by decide +kernel)
  | 3 =>
    show utf8Bytes c = some 4 ↔ 0xF0 ≤ c ∧ c ≤ 0xF7
    revert c
    exact forall_uint8 (by decide +kernel)
  | n + 4 =>
    unfold utf8Bytes Announces
    split_ifs <;> simp

theorem continues_iff (c : UInt8) : c &&& 0xC0 = 0x80 ↔ Continues c := by
  show c &&& 0xC0 = 0x80 ↔ 0x80 ≤ c ∧ c ≤ 0xBF
  revert c
  exact forall_uint8 (by decide +kernel)

theorem utf8Bytes_pos {c : UInt8} {bytes : ℕ} (h : utf8Bytes c = some bytes) : 0 < bytes := by
  unfold utf8Bytes at h
  split_ifs at h <;> cases h <;> decide

theorem structured_of_loop {n : ℕ} {s : Text} (hn : s.length ≤ n)
    (h : isValidUtf8Loop n s = true) : Structured s := by
  induction n generalizing s with
  | zero =>
    rw [List.eq_nil_of_length_eq_zero (Nat.le_zero.mp hn)]
    exact Structured.nil
  | succ n ih =>
    cases s with
    | nil => exact Structured.nil
    | cons c s =>
      rw [isValidUtf8Loop] at h
      cases hbytes : utf8Bytes c with
      | none => simp [hbytes] at h
      | some bytes =>
        obtain ⟨k, rfl⟩ : ∃ k, bytes = k + 1 := ⟨bytes - 1, by have := utf8Bytes_pos hbytes; omega⟩
        simp only [hbytes, Nat.add_sub_cancel] at h
        split_ifs at h with hlong hall
        have hlen : (s.take k).length = k := by
          rw [List.length_take]
          omega
        rw [← List.take_append_drop k s]
        refine Structured.cons ?_ ?_ (ih ?_ h)
        · rw [hlen]
          exact (announces_iff c k).mp hbytes
        · intro b hb
          have hb := List.all_eq_true.mp hall b hb
          exact (continues_iff b).mp (by simpa using hb)
        · rw [List.length_cons] at hn
          rw [List.length_drop]
          omega

theorem loop_of_structured {s : Text} (h : Structured s) {n : ℕ} :
    isValidUtf8Loop n s = true := by
  induction h generalizing n with
  | nil => cases n <;> rfl
  | @cons c tail s hc htail _ ih =>
    cases n with
    | zero => rfl
    | succ n =>
      have hall : tail.all (· &&& 0xC0 == 0x80) = true := by
        rw [List.all_eq_true]
        intro b hb
        simpa using (continues_iff b).mpr (htail b hb)
      rw [isValidUtf8Loop, (announces_iff c _).mpr hc]
      simp only [Nat.add_sub_cancel, List.take_left, List.drop_left, hall, if_true]
      rw [if_neg (by simp), ih]

/-- The bytes are accepted that have the structure of UTF-8. -/
theorem isValidUtf8_iff {s : Text} : isValidUtf8 s = true ↔ Structured s :=
  ⟨structured_of_loop (Nat.le_refl _), fun h => loop_of_structured h⟩

/-! ### What a character is written as -/

theorem exists_char {v : ℕ} (h : v < 0xD800 ∨ 0xDFFF < v ∧ v < 0x110000) :
    ∃ c : Char, c.val.toNat = v :=
  ⟨Char.ofNatAux v h, UInt32.toNat_ofNatLT⟩

theorem byte_toNat_ofNat {n : ℕ} (h : n < 256) : (UInt8.ofNat n).toNat = n := by
  rw [UInt8.toNat_ofNat']
  exact Nat.mod_eq_of_lt h

theorem le_byte_ofNat {a : UInt8} {n : ℕ} (h : n < 256) : a ≤ UInt8.ofNat n ↔ a.toNat ≤ n := by
  rw [UInt8.le_iff_toNat_le, byte_toNat_ofNat h]

theorem byte_ofNat_le {a : UInt8} {n : ℕ} (h : n < 256) : UInt8.ofNat n ≤ a ↔ n ≤ a.toNat := by
  rw [UInt8.le_iff_toNat_le, byte_toNat_ofNat h]

theorem continues_ofNat (n : ℕ) : Continues (UInt8.ofNat (n % 0x40 + 0x80)) := by
  have h : n % 0x40 + 0x80 < 256 := by omega
  constructor
  · rw [le_byte_ofNat h]
    exact Nat.le_add_left 0x80 (n % 0x40)
  · rw [byte_ofNat_le h]
    show n % 0x40 + 0x80 ≤ 0xBF
    omega

theorem outside_eq_false (a b : UInt8) :
    outsideUtf8 a b = false ↔ a.toNat ≠ 0xC0 ∧ a.toNat ≠ 0xC1 ∧ (a.toNat = 0xE0 → 0xA0 ≤ b.toNat) ∧
      (a.toNat = 0xF0 → 0x90 ≤ b.toNat) ∧ (a.toNat = 0xED → b.toNat < 0xA0) ∧
      (a.toNat = 0xF4 → b.toNat < 0x90) ∧ a.toNat < 0xF5 := by
  simp [outsideUtf8, ← UInt8.toNat_inj, UInt8.lt_iff_toNat_lt, UInt8.le_iff_toNat_le, and_assoc]

/-- A character is a first byte and its continuation bytes, and the first two are none of
those above. -/
theorem utf8EncodeChar_spec (ch : Char) :
    ∃ c tail, String.utf8EncodeChar ch = c :: tail ∧ Announces c tail.length ∧
      (∀ b ∈ tail, Continues b) ∧ ∀ b, tail.head? = some b → outsideUtf8 c b = false := by
  have hvalid : ch.val.toNat < 0xD800 ∨ 0xDFFF < ch.val.toNat ∧ ch.val.toNat < 0x110000 := ch.valid
  obtain ⟨v, hv⟩ : ∃ v, v = ch.val.toNat := ⟨_, rfl⟩
  rw [← hv] at hvalid
  unfold String.utf8EncodeChar
  simp only [← hv]
  split_ifs with h₁ h₂ h₃
  · refine ⟨_, _, rfl, ?_, by simp, by simp⟩
    exact (byte_ofNat_le (by omega)).mpr h₁
  · refine ⟨_, _, rfl, ?_, ?_, ?_⟩
    · refine ⟨(le_byte_ofNat (by omega)).mpr ?_, (byte_ofNat_le (by omega)).mpr ?_⟩
      · exact Nat.le_add_left 0xC0 _
      · show v / 64 % 0x20 + 0xC0 ≤ 0xDF
        omega
    · simp only [List.forall_mem_cons, continues_ofNat, List.not_mem_nil, false_imp_iff,
        implies_true, and_self]
    · rintro b ⟨rfl⟩
      rw [outside_eq_false, byte_toNat_ofNat (by omega), byte_toNat_ofNat (by omega)]
      omega
  · refine ⟨_, _, rfl, ?_, ?_, ?_⟩
    · refine ⟨(le_byte_ofNat (by omega)).mpr ?_, (byte_ofNat_le (by omega)).mpr ?_⟩
      · exact Nat.le_add_left 0xE0 _
      · show v / 4096 % 0x10 + 0xE0 ≤ 0xEF
        omega
    · simp only [List.forall_mem_cons, continues_ofNat, List.not_mem_nil, false_imp_iff,
        implies_true, and_self]
    · rintro b ⟨rfl⟩
      rw [outside_eq_false, byte_toNat_ofNat (by omega), byte_toNat_ofNat (by omega)]
      omega
  · refine ⟨_, _, rfl, ?_, ?_, ?_⟩
    · refine ⟨(le_byte_ofNat (by omega)).mpr ?_, (byte_ofNat_le (by omega)).mpr ?_⟩
      · exact Nat.le_add_left 0xF0 _
      · show v / 262144 % 0x08 + 0xF0 ≤ 0xF7
        omega
    · simp only [List.forall_mem_cons, continues_ofNat, List.not_mem_nil, false_imp_iff,
        implies_true, and_self]
    · rintro b ⟨rfl⟩
      rw [outside_eq_false, byte_toNat_ofNat (by omega), byte_toNat_ofNat (by omega)]
      omega

theorem byte_bounds {a b c : UInt8} (h : a ≤ c ∧ c ≤ b) : a.toNat ≤ c.toNat ∧ c.toNat ≤ b.toNat :=
  ⟨UInt8.le_iff_toNat_le.mp h.1, UInt8.le_iff_toNat_le.mp h.2⟩

theorem Continues.toNat {c : UInt8} (h : Continues c) : 0x80 ≤ c.toNat ∧ c.toNat ≤ 0xBF :=
  byte_bounds h

theorem byte_ofNat_eq {n : ℕ} {c : UInt8} (h : n = c.toNat) : UInt8.ofNat n = c := by
  rw [h, UInt8.ofNat_toNat]

/-- The other way round, such bytes are a character. -/
theorem exists_utf8EncodeChar {c : UInt8} {tail : Text} (hc : Announces c tail.length)
    (htail : ∀ b ∈ tail, Continues b) (h : ∀ b, tail.head? = some b → outsideUtf8 c b = false) :
    ∃ ch : Char, String.utf8EncodeChar ch = c :: tail := by
  match tail, hc with
  | [], hc =>
    have hc : c.toNat ≤ 0x7F := UInt8.le_iff_toNat_le.mp hc
    obtain ⟨ch, hch⟩ := exists_char (v := c.toNat) (.inl (by omega))
    refine ⟨ch, ?_⟩
    unfold String.utf8EncodeChar
    simp only [hch]
    rw [if_pos hc, byte_ofNat_eq rfl]
  | [a], hc =>
    have hlead : 0xC0 ≤ c.toNat ∧ c.toNat ≤ 0xDF := byte_bounds hc
    have ha := (htail a (by simp)).toNat
    have hinside := (outside_eq_false c a).mp (h a rfl)
    obtain ⟨v, hv⟩ : ∃ v, v = (c.toNat - 0xC0) * 64 + (a.toNat - 0x80) := ⟨_, rfl⟩
    obtain ⟨ch, hch⟩ := exists_char (v := v) (by omega)
    refine ⟨ch, ?_⟩
    unfold String.utf8EncodeChar
    simp only [hch]
    rw [if_neg (by omega), if_pos (by omega), byte_ofNat_eq (c := c) (by omega),
      byte_ofNat_eq (c := a) (by omega)]
  | [a, b], hc =>
    have hlead : 0xE0 ≤ c.toNat ∧ c.toNat ≤ 0xEF := byte_bounds hc
    have ha := (htail a (by simp)).toNat
    have hb := (htail b (by simp)).toNat
    have hinside := (outside_eq_false c a).mp (h a rfl)
    obtain ⟨v, hv⟩ : ∃ v, v = (c.toNat - 0xE0) * 4096 + (a.toNat - 0x80) * 64 +
      (b.toNat - 0x80) := ⟨_, rfl⟩
    obtain ⟨ch, hch⟩ := exists_char (v := v) (by omega)
    refine ⟨ch, ?_⟩
    unfold String.utf8EncodeChar
    simp only [hch]
    rw [if_neg (by omega), if_neg (by omega), if_pos (by omega), byte_ofNat_eq (c := c) (by omega),
      byte_ofNat_eq (c := a) (by omega), byte_ofNat_eq (c := b) (by omega)]
  | [a, b, d], hc =>
    have hlead : 0xF0 ≤ c.toNat ∧ c.toNat ≤ 0xF7 := byte_bounds hc
    have ha := (htail a (by simp)).toNat
    have hb := (htail b (by simp)).toNat
    have hd := (htail d (by simp)).toNat
    have hinside := (outside_eq_false c a).mp (h a rfl)
    obtain ⟨v, hv⟩ : ∃ v, v = (c.toNat - 0xF0) * 262144 + (a.toNat - 0x80) * 4096 +
      (b.toNat - 0x80) * 64 + (d.toNat - 0x80) := ⟨_, rfl⟩
    obtain ⟨ch, hch⟩ := exists_char (v := v) (by omega)
    refine ⟨ch, ?_⟩
    unfold String.utf8EncodeChar
    simp only [hch]
    rw [if_neg (by omega), if_neg (by omega), if_neg (by omega), byte_ofNat_eq (c := c) (by omega),
      byte_ofNat_eq (c := a) (by omega), byte_ofNat_eq (c := b) (by omega),
      byte_ofNat_eq (c := d) (by omega)]

/-! ### Whole texts -/

theorem outside_of_continues {a : UInt8} (h : Continues a) (b : UInt8) :
    outsideUtf8 a b = false := by
  have := h.toNat
  rw [outside_eq_false]
  omega

theorem outside_of_le {a : UInt8} (h : a ≤ 0x7F) (b : UInt8) : outsideUtf8 a b = false := by
  have : a.toNat ≤ 0x7F := UInt8.le_iff_toNat_le.mp h
  rw [outside_eq_false]
  omega

theorem hasOutside_tail {tail : Text} (h : ∀ b ∈ tail, Continues b) (s : Text) :
    hasOutside (tail ++ s) = hasOutside s := by
  induction tail with
  | nil => rfl
  | cons a tail ih =>
    obtain ⟨ha, htail⟩ := List.forall_mem_cons.mp h
    rw [← ih htail, List.cons_append]
    cases tail ++ s with
    | nil => rfl
    | cons b s => rw [hasOutside, outside_of_continues ha, Bool.false_or]

/-- Of a character only the first two bytes matter. -/
theorem hasOutside_cons {c : UInt8} {tail : Text} (hc : Announces c tail.length)
    (htail : ∀ b ∈ tail, Continues b) (s : Text) :
    hasOutside (c :: (tail ++ s)) = (tail.head?.any (outsideUtf8 c) || hasOutside s) := by
  cases tail with
  | nil =>
    cases s with
    | nil => rfl
    | cons b s => rw [List.nil_append, hasOutside, outside_of_le hc]; rfl
  | cons a tail =>
    rw [← hasOutside_tail htail s]
    rfl

theorem WellFormedUtf8.structured {s : Text} (h : WellFormedUtf8 s) :
    Structured s ∧ hasOutside s = false := by
  obtain ⟨cs, rfl⟩ := h
  induction cs with
  | nil => exact ⟨Structured.nil, rfl⟩
  | cons ch cs ih =>
    obtain ⟨c, tail, hch, hc, htail, hinside⟩ := utf8EncodeChar_spec ch
    rw [List.flatMap_cons, hch, List.cons_append]
    refine ⟨Structured.cons hc htail ih.1, ?_⟩
    rw [hasOutside_cons hc htail, ih.2, Bool.or_false]
    cases hhead : tail.head? with
    | none => rfl
    | some b => exact hinside b hhead

theorem Structured.wellFormed {s : Text} (h : Structured s) (hinside : hasOutside s = false) :
    WellFormedUtf8 s := by
  induction h with
  | nil => exact ⟨[], rfl⟩
  | @cons c tail s hc htail _ ih =>
    rw [hasOutside_cons hc htail, Bool.or_eq_false_iff] at hinside
    obtain ⟨cs, rfl⟩ := ih hinside.2
    obtain ⟨ch, hch⟩ := exists_utf8EncodeChar hc htail (by
      intro b hb
      rw [hb] at hinside
      exact hinside.1)
    exact ⟨ch :: cs, by rw [List.flatMap_cons, hch, List.cons_append]⟩

/-- The validation is right just for the bytes that do not have the structure of UTF-8, and
for those that have it without any of the pairs above. -/
theorem isValidUtf8_wellFormed_iff (s : Text) :
    (isValidUtf8 s = true ↔ WellFormedUtf8 s) ↔ (Structured s → hasOutside s = false) := by
  rw [isValidUtf8_iff]
  constructor
  · intro h hs
    exact (h.mp hs).structured.2
  · intro h
    exact ⟨fun hs => hs.wellFormed (h hs), fun hs => hs.structured.1⟩

/-- The surrogate U+D800 is accepted. -/
theorem isValidUtf8_surrogate :
    ¬ ∀ s : Text, isValidUtf8 s = true ↔ WellFormedUtf8 s := by
  intro h
  have hs := ((h [0xED, 0xA0, 0x80]).mp (by decide)).structured.2
  revert hs
  decide

end CxxDeps.Sys
