import CxxDeps.Library.Bits
import CxxDeps.Sys.StringUtil
import Mathlib.Data.List.TakeWhile

/-! Numbers in decimal, as `std::to_string` and a stream write them, and as `strtol` reads
them. -/

namespace CxxDeps.Sys

/-- The number in decimal. -/
def decimal (n : ℤ) : Text := text (toString n)

/-- The byte of an ASCII character. -/
def asciiByte (c : Char) : UInt8 := c.val.toUInt8

theorem digit_range {c : Char} (h : c.isDigit = true) : 48 ≤ c.toNat ∧ c.toNat ≤ 57 := by
  simpa [Char.isDigit, UInt32.le_iff_toNat_le] using h

theorem text_append (s t : String) : text (s ++ t) = text s ++ text t := by
  simp [text, ByteArray.data_append]

/-- Digits are single bytes. -/
theorem text_ofList {l : List Char} (h : ∀ c ∈ l, c.isDigit = true) :
    text (String.ofList l) = l.map asciiByte := by
  rw [text, String.toUTF8_eq_toByteArray, String.toByteArray_ofList]
  induction l with
  | nil => rfl
  | cons c l ih =>
    obtain ⟨hc, hl⟩ := List.forall_mem_cons.mp h
    have hsize : c.utf8Size = 1 := by
      have hrange := (digit_range hc).2
      rw [Char.utf8Size, if_pos]
      rw [UInt32.le_iff_toNat_le]
      exact Nat.le_trans hrange (by decide)
    rw [List.utf8Encode_cons, List.utf8Encode_singleton, String.utf8EncodeChar_eq_singleton hsize]
    rw [ByteArray.data_append, Array.toList_append, ih hl]
    rfl

theorem decimal_natCast (n : ℕ) : decimal n = (Nat.toDigits 10 n).map asciiByte :=
  text_ofList fun _ hc => Nat.isDigit_of_mem_toDigits (by decide) (by decide) hc

theorem decimal_negSucc (n : ℕ) : decimal (Int.negSucc n) = 0x2D :: decimal (n + 1 : ℕ) := by
  show text ("-" ++ (n + 1).repr) = _
  rw [text_append]
  rfl

theorem asciiByte_toNat {c : Char} (h : c.isDigit = true) : (asciiByte c).toNat = c.toNat := by
  have hrange := digit_range h
  rw [asciiByte, UInt32.toNat_toUInt8]
  exact Nat.mod_eq_of_lt (by show c.toNat < 256; omega)

theorem digitValue_asciiByte {c : Char} (h : c.isDigit = true) :
    digitValue (asciiByte c) = some (c.toNat - 48) := by
  have hrange := digit_range h
  rw [digitValue, if_pos, asciiByte_toNat h]
  simp only [Bool.and_eq_true, decide_eq_true_eq, UInt8.le_iff_toNat_le, asciiByte_toNat h]
  exact hrange

/-- The digits of a number, as `strtol` adds them up. -/
theorem foldl_asciiByte {l : List Char} (h : ∀ c ∈ l, c.isDigit = true) (k : ℕ) :
    (l.map asciiByte).foldl (fun n c => 10 * n + (digitValue c).getD 0) k =
      Nat.ofDigitChars 10 l k := by
  induction l generalizing k with
  | nil => rfl
  | cons c l ih =>
    obtain ⟨hc, hl⟩ := List.forall_mem_cons.mp h
    rw [List.map_cons, List.foldl_cons, ih hl, Nat.ofDigitChars_cons, digitValue_asciiByte hc]
    rfl

/-- The bytes of a natural number. -/
theorem decimal_digits (n : ℕ) :
    decimal n ≠ [] ∧ ∀ c ∈ decimal n, isDigit 10 c = true := by
  rw [decimal_natCast]
  refine ⟨fun h => Nat.toDigits_ne_nil (List.map_eq_nil_iff.mp h), fun b hb => ?_⟩
  obtain ⟨c, hc, rfl⟩ := List.mem_map.mp hb
  have hdigit : c.isDigit = true := Nat.isDigit_of_mem_toDigits (by decide) (by decide) hc
  have hrange := digit_range hdigit
  rw [isDigit, digitValue_asciiByte hdigit, Option.any_some, decide_eq_true_eq]
  omega

theorem foldl_decimal (n : ℕ) :
    ((decimal n).takeWhile (isDigit 10)).foldl (fun n c => 10 * n + (digitValue c).getD 0) 0 =
      n := by
  have htake : (decimal n).takeWhile (isDigit 10) = decimal n := by
    rw [List.takeWhile_eq_self_iff]
    exact (decimal_digits n).2
  rw [htake, decimal_natCast, foldl_asciiByte, Nat.ofDigitChars_ten_toDigits]
  exact fun _ hc => Nat.isDigit_of_mem_toDigits (by decide) (by decide) hc

theorem isSpace_of_isDigit (c : UInt8) :
    isDigit 10 c = true → isSpace c = false ∧ c ≠ 0x2D ∧ c ≠ 0x2B := by
  revert c; exact Library.forall_uint8 (by decide +kernel)

/-- `strtol` reads what is written. -/
theorem strtol_decimal {n : ℤ} (hlow : -2 ^ 63 ≤ n) (hhigh : n < 2 ^ 63) :
    strtol 10 (decimal n) = n := by
  obtain ⟨k, rfl⟩ | ⟨k, rfl⟩ : (∃ k : ℕ, n = k) ∨ ∃ k, n = Int.negSucc k := by
    cases n with
    | ofNat k => exact .inl ⟨k, rfl⟩
    | negSucc k => exact .inr ⟨k, rfl⟩
  · obtain ⟨hne, hdigits⟩ := decimal_digits k
    have hfold := foldl_decimal k
    obtain ⟨c, s, hs⟩ := List.exists_cons_of_ne_nil hne
    rw [hs] at hdigits hfold ⊢
    obtain ⟨hspace, hminus, hplus⟩ := isSpace_of_isDigit c (hdigits c List.mem_cons_self)
    simp only [strtol, List.dropWhile_cons, hspace]
    simp [hminus, hplus, hfold]
    omega
  · rw [decimal_negSucc]
    have hfold := foldl_decimal (k + 1)
    generalize decimal ((k + 1 : ℕ) : ℤ) = digits at hfold ⊢
    simp only [strtol, List.dropWhile_cons]
    simp [isSpace, hfold]
    omega

/-! ### A number behind a separator -/

theorem exists_natCast {n : ℤ} (h : 0 < n) : ∃ k : ℕ, n = k := ⟨n.toNat, by omega⟩

theorem decimal_ne_nil {n : ℤ} (h : 0 < n) : decimal n ≠ [] := by
  obtain ⟨k, rfl⟩ := exists_natCast h
  exact (decimal_digits k).1

theorem notMem_decimal {n : ℤ} (h : 0 < n) {c : UInt8} (hc : isDigit 10 c = false) :
    c ∉ decimal n := by
  obtain ⟨k, rfl⟩ := exists_natCast h
  intro hmem
  have hdigit := (decimal_digits k).2 c hmem
  rw [hc] at hdigit
  cases hdigit

/-- A number that was written, as `strtol` gives it to an `int`. -/
def readDecimal (n : ℤ) : ℤ := toInt32 (strtol 10 (decimal n))

theorem readDecimal_eq {n : ℤ} (hlow : 0 < n) (hhigh : n < 2 ^ 31) : readDecimal n = n := by
  rw [readDecimal, strtol_decimal (by omega) (by omega), toInt32, Int.bmod_def]
  omega

theorem readDecimal_lt (n : ℤ) : readDecimal n < 2 ^ 31 := by
  rw [readDecimal, toInt32, Int.bmod_def]
  omega

end CxxDeps.Sys
