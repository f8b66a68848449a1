import CxxDeps.Library.Bits
import Mathlib.Data.Nat.Digits.Lemmas
import Mathlib.Logic.Function.Iterate

/-! Cyclic redundancy checks of 32 bits, the low bit of a byte first. The polynomial is a word
whose high bit is the coefficient of `1`. -/

namespace CxxDeps.Library.Crc

/-- The register after a bit. -/
def bit (p x : UInt32) : UInt32 := if x.toNat.testBit 0 then (x >>> 1) ^^^ p else x >>> 1

/-- The register after a byte. -/
def byte (p : UInt32) (x : UInt32) (b : UInt8) : UInt32 := (bit p)^[8] (x ^^^ b.toUInt32)

/-- The register after a byte, with a table. -/
def lookup (table : Array UInt32) (x : UInt32) (b : UInt8) : UInt32 :=
  (x >>> 8) ^^^ table.getD ((x ^^^ b.toUInt32) &&& 0xFF).toNat 0

/-- The table of a polynomial. -/
def IsTable (p : UInt32) (table : Array UInt32) : Prop :=
  ∀ b : UInt8, table.getD b.toNat 0 = (bit p)^[8] b.toUInt32

variable {p : UInt32}

/-! ### The table -/

theorem bit_xor (p x y : UInt32) : bit p (x ^^^ y) = bit p x ^^^ bit p y := by
  unfold bit
  rw [UInt32.toNat_xor, Nat.testBit_xor, UInt32.shiftRight_xor]
  cases x.toNat.testBit 0 <;> cases y.toNat.testBit 0
  · rfl
  · exact UInt32.xor_assoc ..
  · show x >>> 1 ^^^ y >>> 1 ^^^ p = x >>> 1 ^^^ p ^^^ y >>> 1
    ac_rfl
  · show x >>> 1 ^^^ y >>> 1 = x >>> 1 ^^^ p ^^^ (y >>> 1 ^^^ p)
    have hcomm : x >>> 1 ^^^ p ^^^ (y >>> 1 ^^^ p) = x >>> 1 ^^^ y >>> 1 ^^^ (p ^^^ p) := by ac_rfl
    rw [hcomm, UInt32.xor_self, UInt32.xor_zero]

theorem iterate_bit_xor (p : UInt32) (k : ℕ) (x y : UInt32) :
    (bit p)^[k] (x ^^^ y) = (bit p)^[k] x ^^^ (bit p)^[k] y := by
  induction k generalizing x y with
  | zero => rfl
  | succ k ih => rw [Function.iterate_succ_apply, bit_xor, ih]; rfl

theorem toNat_shiftRight_one (x : UInt32) : (x >>> 1).toNat = x.toNat >>> 1 := rfl

/-- Bits that are not set are shifted out. -/
theorem toNat_iterate_bit (p : UInt32) {k : ℕ} {x : UInt32}
    (h : ∀ i < k, x.toNat.testBit i = false) : ((bit p)^[k] x).toNat = x.toNat >>> k := by
  induction k with
  | zero => rfl
  | succ k ih =>
    have hk := ih fun i hi => h i (Nat.lt_succ_of_lt hi)
    have hlow : ((bit p)^[k] x).toNat.testBit 0 = false := by
      rw [hk, Nat.testBit_shiftRight]
      exact h k (Nat.lt_succ_self k)
    rw [Function.iterate_succ_apply', bit, hlow, if_neg Bool.false_ne_true, toNat_shiftRight_one,
      hk, ← Nat.shiftRight_add]

/-- With its table the check goes byte by byte. -/
theorem IsTable.lookup_eq {table : Array UInt32} (h : IsTable p table) : lookup table = byte p := by
  funext x b
  obtain ⟨y, hy⟩ : ∃ y, y = x ^^^ b.toUInt32 := ⟨_, rfl⟩
  have hshift : x >>> 8 = y >>> 8 := by
    have hb : b.toUInt32 >>> 8 = 0 := by
      rw [← UInt32.toNat_inj, UInt32.toNat_shiftRight, UInt8.toNat_toUInt32]
      exact Nat.shiftRight_eq_zero _ _ b.toNat_lt
    rw [hy, UInt32.shiftRight_xor, hb, UInt32.xor_zero]
  have hlow : ∀ i, (y &&& 0xFF).toNat.testBit i = (y.toNat.testBit i && decide (i < 8)) := by
    intro i
    rw [UInt32.toNat_and, Nat.testBit_and, show (0xFF : UInt32).toNat = 2 ^ 8 - 1 from rfl,
      Nat.testBit_two_pow_sub_one]
  have hbyte : (y &&& 0xFF).toNat < 256 := by
    rw [UInt32.toNat_and]
    exact lt_of_le_of_lt Nat.and_le_right (by decide)
  have hindex : (y &&& 0xFF).toUInt8.toUInt32 = y &&& 0xFF := by
    rw [← UInt32.toNat_inj, UInt8.toNat_toUInt32, UInt32.toNat_toUInt8, Nat.mod_eq_of_lt hbyte]
  have hentry := h (y &&& 0xFF).toUInt8
  rw [hindex, UInt32.toNat_toUInt8, Nat.mod_eq_of_lt hbyte] at hentry
  have hhigh : (bit p)^[8] (y ^^^ (y &&& 0xFF)) = y >>> 8 := by
    rw [← UInt32.toNat_inj, toNat_iterate_bit p]
    · apply Nat.eq_of_testBit_eq
      intro i
      rw [Nat.testBit_shiftRight, UInt32.toNat_shiftRight,
        show (8 : UInt32).toNat % 32 = 8 from rfl, Nat.testBit_shiftRight, UInt32.toNat_xor,
        Nat.testBit_xor, hlow]
      simp
    · intro i hi
      rw [UInt32.toNat_xor, Nat.testBit_xor, hlow, decide_eq_true hi, Bool.and_true, Bool.xor_self]
  have hsplit : y = (y ^^^ (y &&& 0xFF)) ^^^ (y &&& 0xFF) := by
    rw [UInt32.xor_assoc, UInt32.xor_self, UInt32.xor_zero]
  rw [lookup, byte, ← hy, hshift, hentry]
  conv_rhs => rw [hsplit, iterate_bit_xor, hhigh]

/-- `bit` of numbers, for the table of a polynomial. -/
def natBit (p x : ℕ) : ℕ := if x % 2 = 1 then x / 2 ^^^ p else x / 2

theorem toNat_bit (p x : UInt32) : (bit p x).toNat = natBit p.toNat x.toNat := by
  have hshift : (x >>> 1).toNat = x.toNat / 2 := Nat.shiftRight_eq_div_pow ..
  unfold bit natBit
  simp only [Nat.testBit_zero, decide_eq_true_iff]
  split
  · rw [UInt32.toNat_xor, hshift]
  · exact hshift

theorem toNat_iterate_eq (p : UInt32) (k : ℕ) (x : UInt32) :
    ((bit p)^[k] x).toNat = (natBit p.toNat)^[k] x.toNat := by
  induction k generalizing x with
  | zero => rfl
  | succ k ih => rw [Function.iterate_succ_apply, Function.iterate_succ_apply, ih, toNat_bit]

theorem isTable_of_map {table : Array UInt32}
    (h : table.toList.map UInt32.toNat = (List.range 256).map (natBit p.toNat)^[8]) :
    IsTable p table := by
  intro b
  have hlength : table.size = 256 := by
    have := congrArg List.length h
    rwa [List.length_map, List.length_map, List.length_range, Array.length_toList] at this
  have hb : b.toNat < table.size := hlength ▸ b.toNat_lt
  have hentry := congrArg (fun entries => entries[b.toNat]?) h
  simp only [List.getElem?_map, Array.getElem?_toList, Array.getElem?_eq_getElem hb,
    List.getElem?_range (hlength ▸ hb), Option.map_some, Option.some.injEq] at hentry
  rw [← UInt32.toNat_inj, Array.getD_eq_getD_getElem?, Array.getElem?_eq_getElem hb,
    Option.getD_some, hentry, toNat_iterate_eq, UInt8.toNat_toUInt32]

/-! ### What a check finds -/

/-- The high bit of the register is that of the polynomial, if it was added. -/
theorem bit_injective (hp : p.toNat.testBit 31 = true) : Function.Injective (bit p) := by
  intro x y hxy
  have htop : ∀ z : UInt32, (bit p z).toNat.testBit 31 = z.toNat.testBit 0 := by
    intro z
    have hz : z.toNat.testBit 32 = false := Nat.testBit_lt_two_pow z.toNat_lt
    unfold bit
    cases z.toNat.testBit 0
    · rw [if_neg Bool.false_ne_true, toNat_shiftRight_one, Nat.testBit_shiftRight]
      exact hz
    · rw [if_pos rfl, UInt32.toNat_xor, Nat.testBit_xor, toNat_shiftRight_one,
        Nat.testBit_shiftRight, hp, hz]
      rfl
  have hlow : x.toNat.testBit 0 = y.toNat.testBit 0 := by rw [← htop, ← htop, hxy]
  have hshift : x >>> 1 = y >>> 1 := by
    unfold bit at hxy
    rw [hlow] at hxy
    split at hxy
    · exact UInt32.xor_left_inj p |>.mp hxy
    · exact hxy
  rw [← UInt32.toNat_inj]
  apply Nat.eq_of_testBit_eq
  intro i
  cases i with
  | zero => exact hlow
  | succ i =>
    have := congrArg (fun z : UInt32 => z.toNat.testBit i) hshift
    rwa [toNat_shiftRight_one, toNat_shiftRight_one, Nat.testBit_shiftRight,
      Nat.testBit_shiftRight, Nat.add_comm] at this

theorem iterate_bit_injective (hp : p.toNat.testBit 31 = true) (k : ℕ) :
    Function.Injective (bit p)^[k] := (bit_injective hp).iterate k

theorem foldl_byte_injective (hp : p.toNat.testBit 31 = true) (data : List UInt8) :
    Function.Injective fun x => data.foldl (byte p) x := by
  induction data with
  | nil => exact fun _ _ h => h
  | cons b data ih =>
    intro x y hxy
    exact UInt32.xor_left_inj _ |>.mp (iterate_bit_injective hp 8 (ih hxy))

/-- Bytes as a number, the low one first. -/
def value (data : List UInt8) : ℕ := Nat.ofDigits 256 (data.map UInt8.toNat)

theorem value_cons (b : UInt8) (data : List UInt8) :
    value (b :: data) = b.toNat + 256 * value data := by
  rw [value, List.map_cons, Nat.ofDigits_cons]
  rfl

theorem value_lt (data : List UInt8) : value data < 256 ^ data.length := by
  have := @Nat.ofDigits_lt_base_pow_length 256 (data.map UInt8.toNat) (by decide)
    (List.forall_mem_map.mpr fun b _ => b.toNat_lt)
  rwa [List.length_map] at this

theorem value_injective {data data' : List UInt8} (hlen : data.length = data'.length)
    (h : value data = value data') : data = data' := by
  induction data generalizing data' with
  | nil => exact (List.length_eq_zero_iff.mp hlen.symm).symm
  | cons b data ih =>
    obtain ⟨b', data', rfl⟩ := List.exists_cons_of_length_eq_add_one hlen.symm
    rw [value_cons, value_cons] at h
    have hb := b.toNat_lt
    have hb' := b'.toNat_lt
    have hfirst : b = b' := UInt8.toNat_inj.mp (by omega)
    rw [hfirst, ih (Nat.succ.inj hlen) (by omega)]

/-- Up to four bytes are added to the register at once. -/
theorem foldl_byte (p : UInt32) {data : List UInt8} (hle : data.length ≤ 4) (x : UInt32) :
    data.foldl (byte p) x = (bit p)^[8 * data.length] (x ^^^ UInt32.ofNat (value data)) := by
  induction data generalizing x with
  | nil => exact (UInt32.xor_zero).symm
  | cons b data ih =>
    rw [List.length_cons] at hle
    have hthree : data.length ≤ 3 := by omega
    have hlt : value data < 2 ^ 24 :=
      lt_of_lt_of_le (value_lt data) (Nat.pow_le_pow_right (by decide) hthree)
    have hhigh : (UInt32.ofNat (256 * value data)).toNat = 256 * value data := by
      rw [UInt32.toNat_ofNat', Nat.mod_eq_of_lt (by omega)]
    have hsplit : UInt32.ofNat (value (b :: data)) =
        b.toUInt32 ^^^ UInt32.ofNat (256 * value data) := by
      rw [← UInt32.toNat_inj, UInt32.toNat_xor, hhigh, UInt8.toNat_toUInt32, UInt32.toNat_ofNat',
        value_cons, Nat.mod_eq_of_lt (by have := b.toNat_lt; omega)]
      apply Nat.eq_of_testBit_eq
      intro i
      have hb := b.toNat_lt
      rw [Nat.testBit_xor, Nat.add_comm, show 256 = 2 ^ 8 from rfl,
        Nat.testBit_two_pow_mul_add _ hb, Nat.testBit_two_pow_mul]
      by_cases hi : i < 8
      · simp [hi, Nat.not_le.mpr hi]
      · have : b.toNat.testBit i = false :=
          Nat.testBit_lt_two_pow (lt_of_lt_of_le hb (Nat.pow_le_pow_right (by decide) (by omega)))
        simp [hi, Nat.le_of_not_lt hi, this]
    have hshift : (bit p)^[8] (UInt32.ofNat (256 * value data)) = UInt32.ofNat (value data) := by
      rw [← UInt32.toNat_inj, toNat_iterate_bit p, hhigh, UInt32.toNat_ofNat',
        Nat.shiftRight_eq_div_pow, Nat.mod_eq_of_lt (by omega)]
      · omega
      · intro i hi
        rw [hhigh, show 256 = 2 ^ 8 from rfl, Nat.testBit_two_pow_mul]
        simp [hi]
    rw [List.foldl_cons, ih (by omega), byte, List.length_cons, Nat.mul_succ,
      Function.iterate_add_apply, hsplit, ← UInt32.xor_assoc,
      iterate_bit_xor p 8 (x ^^^ b.toUInt32), hshift]

/-- A check finds every change within four bytes in a row. -/
theorem foldl_byte_ne (hp : p.toNat.testBit 31 = true) (x : UInt32) (before after : List UInt8)
    {data data' : List UInt8} (hlen : data.length = data'.length) (hle : data.length ≤ 4)
    (hne : data ≠ data') :
    (before ++ data ++ after).foldl (byte p) x ≠ (before ++ data' ++ after).foldl (byte p) x := by
  intro heq
  rw [List.foldl_append, List.foldl_append, List.foldl_append, List.foldl_append] at heq
  have hregister := foldl_byte_injective hp after heq
  have hle' : data'.length ≤ 4 := hlen ▸ hle
  rw [foldl_byte p hle, foldl_byte p hle', ← hlen] at hregister
  have hvalue := UInt32.xor_right_inj _ |>.mp (iterate_bit_injective hp _ hregister)
  have hlt : ∀ {data : List UInt8}, data.length ≤ 4 →
      (UInt32.ofNat (value data)).toNat = value data := by
    intro data hle
    rw [UInt32.toNat_ofNat', Nat.mod_eq_of_lt]
    exact lt_of_lt_of_le (value_lt data) (Nat.pow_le_pow_right (by decide) hle)
  exact hne (value_injective hlen (by rw [← hlt hle, ← hlt hle', hvalue]))

end CxxDeps.Library.Crc
