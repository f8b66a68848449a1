import CxxDeps.Library.Crc
import CxxDeps.Ps.ProgramMap

/-! `crc32.c` of `sys2/security`, as STUN uses it. -/

namespace CxxDeps.Security

open Library
open Ps (crc32Tab)

/-- `cyg_crc32_accumulate`. -/
def cygCrc32Accumulate (crc32val : UInt32) (s : List UInt8) : UInt32 :=
  s.foldl (fun crc32val b =>
    crc32Tab.getD ((crc32val ^^^ b.toUInt32) &&& 0xff).toNat 0 ^^^ (crc32val >>> 8)) crc32val

/-- `cyg_ether_crc32_accumulate`, with `none` for the null pointer. -/
def cygEtherCrc32Accumulate (crc32val : UInt32) : Option (List UInt8) → UInt32
  | none => 0
  | some s => cygCrc32Accumulate (crc32val ^^^ 0xffffffff) s ^^^ 0xffffffff

/-- `cyg_ether_crc32`. -/
def cygEtherCrc32 (s : List UInt8) : UInt32 := cygEtherCrc32Accumulate 0 (some s)

/-- The polynomial of the comment in `crc32.c`, with `X^31` as the low bit. -/
def crc32Poly : UInt32 := 0xedb88320

theorem isTable_crc32Tab : Crc.IsTable crc32Poly crc32Tab := Crc.isTable_of_map (by decide +kernel)

theorem cygCrc32Accumulate_eq (crc32val : UInt32) (s : List UInt8) :
    cygCrc32Accumulate crc32val s = s.foldl (Crc.byte crc32Poly) crc32val := by
  have hstep : ∀ (x : UInt32) (b : UInt8),
      crc32Tab.getD ((x ^^^ b.toUInt32) &&& 0xff).toNat 0 ^^^ (x >>> 8) =
        Crc.byte crc32Poly x b := by
    intro x b
    rw [UInt32.xor_comm, ← isTable_crc32Tab.lookup_eq, Crc.lookup]
  rw [cygCrc32Accumulate]
  simp only [hstep]

theorem xor_ones (x : UInt32) : x ^^^ 0xffffffff = ~~~ x := UInt32.xor_neg_one

theorem cygEtherCrc32Accumulate_eq (crc32val : UInt32) (s : List UInt8) :
    cygEtherCrc32Accumulate crc32val (some s) =
      ~~~ (s.foldl (Crc.byte crc32Poly) (~~~ crc32val)) := by
  rw [cygEtherCrc32Accumulate, cygCrc32Accumulate_eq, xor_ones, xor_ones]

/-- What is accumulated over the pieces of a message is the check of the whole, bit by bit. -/
theorem cyg_ether_crc32_pieces (pieces : List (List UInt8)) (crc32val : UInt32) :
    pieces.foldl (fun crc32val piece => cygEtherCrc32Accumulate crc32val (some piece)) crc32val =
      ~~~ (pieces.flatten.foldl (Crc.byte crc32Poly) (~~~ crc32val)) := by
  induction pieces generalizing crc32val with
  | nil => exact UInt32.not_not.symm
  | cons piece pieces ih =>
    rw [List.foldl_cons, ih, cygEtherCrc32Accumulate_eq, UInt32.not_not, List.flatten_cons,
      List.foldl_append]

end CxxDeps.Security
