import Mathlib.Algebra.Group.Int.Defs
import Mathlib.Algebra.Group.Nat.Defs
import Mathlib.Data.List.Basic
import Mathlib.Data.Int.Notation
import Mathlib.Data.Nat.Notation

/-! `sys::string_util` and the functions of the C library that the text protocols
use. A string is the list of its bytes. -/

namespace CxxDeps.Sys

abbrev Text := List UInt8

/-- The bytes of a string literal. -/
def text (s : String) : Text := s.toUTF8.data.toList

/-! ### Characters -/

/-- `isspace` of the C locale. -/
def isSpace (c : UInt8) : Bool := c == 0x20 || (0x09 ≤ c && c ≤ 0x0D)

/-- `tolower` of the C locale. -/
def toLower (c : UInt8) : UInt8 := if 0x41 ≤ c && c ≤ 0x5A then c + 0x20 else c

/-- `toupper` of the C locale. -/
def toUpper (c : UInt8) : UInt8 := if 0x61 ≤ c && c ≤ 0x7A then c - 0x20 else c

/-- The value of a digit, for bases up to 16. -/
def digitValue (c : UInt8) : Option ℕ :=
  if 0x30 ≤ c && c ≤ 0x39 then some (c.toNat - 0x30)
  else if 0x61 ≤ toLower c && toLower c ≤ 0x66 then some ((toLower c).toNat - 0x61 + 10)
  else none

def isDigit (base : ℕ) (c : UInt8) : Bool := (digitValue c).any (· < base)

/-! ### `string_util` -/

/-- The parts before and after the first occurrence of a pattern. -/
def breakOn (pattern : Text) : Text → Option (Text × Text)
  | [] => none
  | c :: cs =>
    if pattern.isPrefixOf (c :: cs) then some ([], (c :: cs).drop pattern.length)
    else (breakOn pattern cs).map fun r => (c :: r.1, r.2)

/-- A part is kept unless it is empty and empty parts are to be removed. -/
def keepPart (removeEmpty : Bool) (parts : List Text) (s : Text) : List Text :=
  if removeEmpty && s.isEmpty then parts else parts ++ [s]

/-- The loop of `split`. When there are `max - 1` parts, the rest is the last one. -/
def splitLoop (pattern : Text) (max : Option ℕ) (removeEmpty : Bool) :
    ℕ → Text → List Text → List Text
  | 0, _, result => result
  | n + 1, src, result =>
    match if max.any (· - 1 ≤ result.length) then none else breakOn pattern src with
    | none => keepPart removeEmpty result src
    | some (s, rest) => splitLoop pattern max removeEmpty n rest (keepPart removeEmpty result s)

def split (src pattern : Text) (max : Option ℕ) (removeEmpty : Bool) : List Text :=
  if max = some 0 || src.isEmpty || pattern.isEmpty then []
  else splitLoop pattern max removeEmpty (src.length + 1) src []

def ltrim (s : Text) : Text := s.dropWhile isSpace

def rtrim (s : Text) : Text := s.reverse.dropWhile isSpace |>.reverse

def trim (s : Text) : Text := ltrim (rtrim s)

def icasecompare (a b : Text) : Bool := a.map toLower == b.map toLower

/-! ### The C library -/

/-- `strtol`, with `long` of 64 bits. -/
def strtol (base : ℕ) (s : Text) : ℤ :=
  let s := s.dropWhile isSpace
  let negative := s.head? == some 0x2D
  let s := if negative || s.head? == some 0x2B then s.drop 1 else s
  let s := if base == 16 && icasecompare (s.take 2) (text "0x") then s.drop 2 else s
  let n := (s.takeWhile (isDigit base)).foldl
    (fun n c => base * n + (digitValue c).getD 0) 0
  if negative then max (-2 ^ 63) (-n) else min (2 ^ 63 - 1) n

/-- `strtoul`, with `unsigned long` of 64 bits; base 0 looks at the digits. -/
def strtoul (base : ℕ) (s : Text) : ℕ :=
  let s := s.dropWhile isSpace
  let negative := s.head? == some 0x2D
  let s := if negative || s.head? == some 0x2B then s.drop 1 else s
  let hex := icasecompare (s.take 2) (text "0x")
  let base :=
    if base == 0 then if hex then 16 else if s.head? == some 0x30 then 8 else 10 else base
  let s := if base == 16 && hex then s.drop 2 else s
  let n := (s.takeWhile (isDigit base)).foldl
    (fun n c => base * n + (digitValue c).getD 0) 0
  if n ≥ 2 ^ 64 then 2 ^ 64 - 1 else if negative then (2 ^ 64 - n) % 2 ^ 64 else n

/-- The conversion to a signed integer of 32 bits. -/
def toInt32 (n : ℤ) : ℤ := n.bmod (2 ^ 32)

/-- The conversion to `size_t`. -/
def sizeT (n : ℤ) : ℕ := (n % 2 ^ 64).toNat

theorem sizeT_natCast {n : ℕ} (h : n < 2 ^ 64) : sizeT n = n := by
  rw [sizeT, Int.emod_eq_of_lt (by omega) (by omega), Int.toNat_natCast]

/-- A difference that is not negative. -/
theorem sizeT_sub {a b : ℕ} (hb : b ≤ a) (ha : a < 2 ^ 64) : sizeT ((a : ℤ) - b) = a - b := by
  rw [← Int.ofNat_sub hb]
  exact sizeT_natCast (by omega)

example : split (text "a,,b,c") (text ",") (some 2) true = [text "a", text ",b,c"] := by decide

example : strtol 10 (text " -42;") = -42 := by decide

end CxxDeps.Sys
