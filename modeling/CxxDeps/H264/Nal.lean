import Mathlib.Data.List.Basic
import Mathlib.Data.Int.Notation
import Mathlib.Data.Nat.Notation

/-! The NAL and FU header bytes and the Annex-B scanner of `h264/h264.cpp`. -/

namespace CxxDeps.H264

/-- `nal_header_t`: one, two and five bits. -/
structure NalHeader where
  f : UInt8
  nri : UInt8
  t : UInt8
  deriving DecidableEq, Repr

def nalHeaderSet (v : UInt8) : NalHeader := ⟨(v &&& 0x80) >>> 7, (v &&& 0x60) >>> 5, v &&& 0x1f⟩

def nalHeaderGet (nal : NalHeader) : UInt8 := nal.f <<< 7 ||| nal.nri <<< 5 ||| nal.t

def getNalType (b : UInt8) : UInt8 := b &&& 0x1f

/-- `fu_header_t`: three flag bits and five type bits. -/
structure FuHeader where
  s : UInt8
  e : UInt8
  r : UInt8
  t : UInt8
  deriving DecidableEq, Repr

def fuHeaderSet (v : UInt8) : FuHeader :=
  ⟨(v &&& 0x80) >>> 7, (v &&& 0x40) >>> 6, (v &&& 0x20) >>> 5, v &&& 0x1f⟩

def fuHeaderGet (fu : FuHeader) : UInt8 := fu.s <<< 7 ||| fu.e <<< 6 ||| fu.r <<< 5 ||| fu.t

/-- What `find_next_nal` returns through its reference arguments. -/
structure FoundNal where
  offset : ℕ
  nalStart : ℕ
  nalSize : ℕ
  islast : Bool
  deriving DecidableEq, Repr

/-- `zeroes++` on the `int` counter of the scanner. -/
def incZeroes (z : ℤ) : ℤ := if z = 2147483647 then -2147483648 else z + 1

/-- The loop of `find_next_nal` over the bytes from position `i` on, and the
test behind it. -/
def findNalLoop (size : ℕ) :
    List UInt8 → (i : ℕ) → (zeroes : ℤ) → (nalStart curPos : ℕ) → Option FoundNal
  | [], _, _, _, curPos =>
    if curPos < size then some ⟨size, curPos, size - curPos, true⟩ else none
  | b :: bs, i, zeroes, nalStart, curPos =>
    if b = 0 then findNalLoop size bs (i + 1) (incZeroes zeroes) nalStart curPos
    else if b = 1 ∧ zeroes ≥ 2 then
      if nalStart > 0 then
        let endPos := i + 1 - if zeroes = 2 then 3 else 4
        if endPos ≤ curPos then none
        else some ⟨endPos, nalStart, endPos - curPos, curPos + (endPos - curPos) = size⟩
      else findNalLoop size bs (i + 1) 0 (i + 1) (i + 1)
    else findNalLoop size bs (i + 1) 0 nalStart curPos

/-- `h264::find_next_nal`. -/
def findNextNal (buffer : List UInt8) (offset : ℕ) : Option FoundNal :=
  findNalLoop buffer.length (buffer.drop offset) offset 0 0 offset

/-- The bytes of a found NAL unit. -/
def FoundNal.bytes (buffer : List UInt8) (n : FoundNal) : List UInt8 :=
  (buffer.drop n.nalStart).take n.nalSize

/-- `while (find_next_nal(...)) nals.push_back(...)`, in at most the given
number of rounds. -/
def findNals (buffer : List UInt8) : ℕ → ℕ → List (List UInt8)
  | 0, _ => []
  | n + 1, offset =>
    match findNextNal buffer offset with
    | none => []
    | some nal => nal.bytes buffer :: findNals buffer n nal.offset

end CxxDeps.H264
