import CxxDeps.Audio.Aac

/-! The receiver of AAC on any payload. The loop of RFC 3016 does not read the last byte,
and where just one is left it takes nothing, hands out an empty unit and goes round for
ever. The loop of RFC 3640 tests a unit as if it began behind the AU headers read so far,
and hands out one that ends behind the payload. -/

namespace CxxDeps.Audio

open Rtp Library

/-! ### RFC 3016 -/

/-- Behind some access units one byte is left. The last case is a length that wraps. -/
inductive Stray : List UInt8 → Prop
  | byte (b : UInt8) : Stray [b]
  | unit {k : ℕ} {v : UInt8} {data rest : List UInt8} : v ≠ 0xFF →
      data.length = (k * 0xFF + v.toNat) % 2 ^ 32 → Stray rest →
      Stray (List.replicate k 0xFF ++ v :: (data ++ rest))
  | wrapped {k : ℕ} (b : UInt8) : (k + 2) * 0xFF % 2 ^ 32 = 0 →
      Stray (List.replicate (k + 1) 0xFF ++ [b])

theorem Stray.ne_nil {rest : List UInt8} (h : Stray rest) : rest ≠ [] := by
  cases h <;> simp

/-- A run of `0xFF` ends before a smaller byte that is not the last, or before the last
byte. -/
theorem run_cases {rest : List UInt8} (h : rest ≠ []) :
    (∃ k v data, v ≠ 0xFF ∧ data ≠ [] ∧ rest = List.replicate k 0xFF ++ v :: data) ∨
      ∃ k b, rest = List.replicate k (0xFF : UInt8) ++ [b] := by
  induction rest with
  | nil => exact absurd rfl h
  | cons b rest ih =>
    rcases eq_or_ne rest [] with rfl | hne
    · exact .inr ⟨0, b, rfl⟩
    by_cases hb : b = 0xFF
    · subst hb
      rcases ih hne with ⟨k, v, data, hv, hd, rfl⟩ | ⟨k, b, rfl⟩
      · exact .inl ⟨k + 1, v, data, hv, hd, rfl⟩
      · exact .inr ⟨k + 1, b, rfl⟩
    · exact .inl ⟨0, b, rest, hb, hne, rfl⟩

theorem sizeLoop_end (k : ℕ) (b : UInt8) (c : ℕ) (v : UInt8) (taken : ℕ) :
    sizeLoop (List.replicate k 0xFF ++ [b]) c v taken =
      (c + k, if k = 0 then v else 0xFF, taken + k) := by
  induction k generalizing c v taken with
  | zero => rfl
  | succ k ih =>
    have hshape : ∃ b' bs, List.replicate k 0xFF ++ [b] = b' :: bs := by
      cases k with
      | zero => exact ⟨b, [], rfl⟩
      | succ k => exact ⟨0xFF, _, rfl⟩
    obtain ⟨b', bs, hbs⟩ := hshape
    have hrest := ih (c + 1) 0xFF (taken + 1)
    rw [List.replicate_succ, List.cons_append]
    rw [hbs] at hrest ⊢
    rw [sizeLoop, if_neg (by decide), hrest]
    simp only [ite_self, Prod.mk.injEq, Nat.add_one_ne_zero, if_false, true_and]
    omega

section

variable {payload : List UInt8} {pos : ℕ}

theorem rfc3016Round_inRange {a : Access} {pos' : ℕ}
    (h : rfc3016Round payload pos = some (a, pos')) :
    a.InRange ∧ pos ≤ pos' ∧ pos' ≤ payload.length := by
  unfold rfc3016Round at h
  dsimp only at h
  split_ifs at h with h₁ h₂
  cases h
  simp only [Access.InRange]
  omega

/-- A unit that is there. -/
theorem rfc3016Round_unit {k : ℕ} {v : UInt8} {data : List UInt8} (hv : v ≠ 0xFF)
    (hd : data ≠ []) (hrest : payload.drop pos = List.replicate k 0xFF ++ v :: data) :
    rfc3016Round payload pos =
      if data.length < (k * 0xFF + v.toNat) % 2 ^ 32 then none
      else some (⟨payload.length, pos + (k + 1), pos + (k + 1) + (k * 0xFF + v.toNat) % 2 ^ 32⟩,
        pos + (k + 1) + (k * 0xFF + v.toNat) % 2 ^ 32) := by
  have hlen := congrArg List.length hrest
  simp only [List.length_drop, List.length_append, List.length_replicate, List.length_cons] at hlen
  rw [rfc3016Round, if_pos (by omega), hrest, sizeLoop_run k hv hd]
  simp only [Nat.zero_add]
  refine if_congr ?_ rfl rfl
  omega

/-- The run goes on to the last byte. -/
theorem rfc3016Round_run {k : ℕ} {b : UInt8}
    (hrest : payload.drop pos = List.replicate (k + 1) 0xFF ++ [b]) :
    rfc3016Round payload pos =
      if 1 < (k + 2) * 0xFF % 2 ^ 32 then none
      else some (⟨payload.length, pos + (k + 1), pos + (k + 1) + (k + 2) * 0xFF % 2 ^ 32⟩,
        pos + (k + 1) + (k + 2) * 0xFF % 2 ^ 32) := by
  have hlen := congrArg List.length hrest
  simp only [List.length_drop, List.length_append, List.length_replicate,
    List.length_singleton] at hlen
  have hff : (0xFF : UInt8).toNat = 0xFF := rfl
  have hau : ((k + 1) * 0xFF + 0xFF) % 2 ^ 32 = (k + 2) * 0xFF % 2 ^ 32 := by
    rw [← Nat.succ_mul]
  rw [rfc3016Round, if_pos (by omega), hrest, sizeLoop_end]
  simp only [Nat.zero_add, Nat.add_one_ne_zero, if_false, hff, hau]
  refine if_congr ?_ rfl rfl
  omega

/-- One byte is left: the round comes back to where it began. -/
theorem rfc3016Round_last {b : UInt8} (hrest : payload.drop pos = [b]) :
    rfc3016Round payload pos = some (⟨payload.length, pos, pos⟩, pos) := by
  have hlen := congrArg List.length hrest
  simp only [List.length_drop, List.length_singleton] at hlen
  rw [rfc3016Round, if_pos (by omega), hrest]
  simp only [sizeLoop]
  exact if_neg (by
    show ¬ pos + 0 + 0 > payload.length
    omega)

/-- Where more than one byte is left, a round that goes on moves ahead. -/
theorem rfc3016Round_advances {a : Access} {pos' : ℕ}
    (h : rfc3016Round payload pos = some (a, pos')) (hne : pos + 1 ≠ payload.length) :
    pos < pos' := by
  have hpos : pos < payload.length := by
    by_contra hle
    rw [rfc3016Round, if_neg hle] at h
    cases h
  have hrest : payload.drop pos ≠ [] := by
    rw [ne_eq, List.drop_eq_nil_iff]
    omega
  rcases run_cases hrest with ⟨k, v, data, hv, hd, hrest⟩ | ⟨k, b, hrest⟩
  · rw [rfc3016Round_unit hv hd hrest] at h
    split_ifs at h
    cases h
    omega
  cases k with
  | zero =>
    have hlen := congrArg List.length hrest
    simp only [List.length_drop, List.length_append, List.length_replicate,
      List.length_singleton] at hlen
    omega
  | succ k =>
    rw [rfc3016Round_run hrest] at h
    split_ifs at h
    cases h
    omega

theorem drop_unit {k : ℕ} {v : UInt8} {data : List UInt8}
    (h : payload.drop pos = List.replicate k 0xFF ++ v :: data) (n : ℕ) :
    payload.drop (pos + (k + 1) + n) = data.drop n := by
  have hskip : (List.replicate k 0xFF ++ v :: data).drop (k + 1) = data := by
    rw [← List.drop_drop, List.drop_left' List.length_replicate]
    rfl
  rw [← List.drop_drop, ← List.drop_drop, h, hskip]

/-- The rounds come to a last byte exactly where the payload is stray. -/
theorem reaches_last_iff :
    (∃ q, Reached (rfc3016Round payload) pos q ∧ q + 1 = payload.length) ↔
      Stray (payload.drop pos) := by
  constructor
  · rintro ⟨q, hq, hlast⟩
    induction hq using Relation.ReflTransGen.head_induction_on with
    | refl =>
      have hlen : (payload.drop q).length = 1 := by
        rw [List.length_drop]
        omega
      obtain ⟨b, hb⟩ := List.length_eq_one_iff.mp hlen
      rw [hb]
      exact .byte b
    | @head pos t hgo _ ih =>
      obtain ⟨a, ha⟩ := hgo
      have hne : payload.drop pos ≠ [] := by
        intro h0
        have hle := List.drop_eq_nil_iff.mp h0
        rw [rfc3016Round, if_neg (by omega)] at ha
        cases ha
      rcases run_cases hne with ⟨k, v, data, hv, hd, hrest⟩ | ⟨k, b, hrest⟩
      · rw [rfc3016Round_unit hv hd hrest] at ha
        split_ifs at ha with hlt
        cases ha
        have hdrop := drop_unit hrest ((k * 0xFF + v.toNat) % 2 ^ 32)
        rw [hdrop] at ih
        rw [hrest, ← List.take_append_drop ((k * 0xFF + v.toNat) % 2 ^ 32) data]
        exact .unit hv (by rw [List.length_take]; omega) ih
      cases k with
      | zero =>
        rw [hrest]
        exact .byte b
      | succ k =>
        rw [rfc3016Round_run hrest] at ha
        split_ifs at ha with hlt
        cases ha
        have hlen := congrArg List.length hrest
        simp only [List.length_drop, List.length_append, List.length_replicate,
          List.length_singleton] at hlen
        have hleft := List.length_pos_iff.mpr ih.ne_nil
        rw [List.length_drop] at hleft
        rw [hrest]
        exact .wrapped b (by omega)
  · intro h
    generalize hrest : payload.drop pos = rest at h
    induction h generalizing pos with
    | byte b =>
      have hlen := congrArg List.length hrest
      simp only [List.length_drop, List.length_singleton] at hlen
      exact ⟨pos, .refl _ pos, by omega⟩
    | @unit k v data rest hv hdata hs ih =>
      have hd : data ++ rest ≠ [] := by simp [hs.ne_nil]
      have hround := rfc3016Round_unit hv hd hrest
      rw [if_neg (by rw [List.length_append]; omega)] at hround
      have hdrop := drop_unit hrest ((k * 0xFF + v.toNat) % 2 ^ 32)
      rw [List.drop_left' hdata] at hdrop
      obtain ⟨q, hq, hlast⟩ := ih hdrop
      exact ⟨q, .head hround hq, hlast⟩
    | @wrapped k b hw =>
      have hlen := congrArg List.length hrest
      simp only [List.length_drop, List.length_append, List.length_replicate,
        List.length_singleton] at hlen
      have hround := rfc3016Round_run hrest
      rw [hw, if_neg (by decide), Nat.add_zero] at hround
      exact ⟨pos + (k + 1), .head hround (.refl _ _), by omega⟩

/-- The loop is safe exactly where it never comes to a last byte. -/
theorem rfc3016_safe_iff (payload : List UInt8) :
    SafeLoop (rfc3016Round payload) id Access.InRange 0 ↔ ¬ Stray payload := by
  have hreach : (∃ q, Reached (rfc3016Round payload) 0 q ∧ q + 1 = payload.length) ↔
      Stray payload := reaches_last_iff
  rw [← hreach]
  constructor
  · rintro hsafe ⟨q, hq, hlast⟩
    have hlen : (payload.drop q).length = 1 := by
      rw [List.length_drop]
      omega
    obtain ⟨b, hb⟩ := List.length_eq_one_iff.mp hlen
    exact not_ends_of_fixed (rfc3016Round_last hb) (hq.ends_iff.mp hsafe.ends)
  · intro hno
    have hne : ∀ q, Reached (rfc3016Round payload) 0 q → q + 1 ≠ payload.length :=
      fun q hq hlast => hno ⟨q, hq, hlast⟩
    exact .of_advances (n := payload.length)
      (fun t a u h => (rfc3016Round_inRange h).2.2)
      (fun t ht a u h => rfc3016Round_advances h (hne t ht))
      (fun t _ a u h => (rfc3016Round_inRange h).1)

end

/-! ### RFC 3640 -/

section

variable (payload : List UInt8) (c : ℕ)

/-- The sizes in the first `i` AU headers, taken together. -/
def auSizes (i : ℕ) : ℕ := ((List.range i).map fun j => auSize payload (2 + 2 * j)).sum

@[simp] theorem auSizes_zero : auSizes payload 0 = 0 := rfl

@[simp] theorem auSizes_succ (i : ℕ) :
    auSizes payload (i + 1) = auSizes payload i + auSize payload (2 + 2 * i) := by
  rw [auSizes, List.range_succ, List.map_append, List.sum_append]
  simp [auSizes]

/-- The units up to some header fit behind the headers up to that one, but not behind
all headers. -/
def Misplaced : Prop :=
  ∃ i < c, 2 + 2 * (i + 1) + auSizes payload (i + 1) ≤ payload.length ∧
    payload.length < 2 + 2 * c + auSizes payload (i + 1)

/-- The variables of the loop where header `i` is next. -/
def auPos (i : ℕ) : AuPos := ⟨i, 2 + 2 * i, auSizes payload i⟩

variable {payload c}

theorem rfc3640Round_auPos {i : ℕ} :
    rfc3640Round payload c (auPos payload i) =
      if i < c ∧ 2 + 2 * (i + 1) + auSizes payload (i + 1) ≤ payload.length then
        some (⟨payload.length, 2 + c * 2 + auSizes payload i,
          2 + c * 2 + auSizes payload i + auSize payload (2 + 2 * i)⟩, auPos payload (i + 1))
      else none := by
  have hnext : auPos payload (i + 1) =
      ⟨i + 1, 2 + 2 * i + 2, auSizes payload i + auSize payload (2 + 2 * i)⟩ := by
    rw [auPos, auSizes_succ]
    congr 1
  rw [hnext, auSizes_succ, auPos, rfc3640Round]
  dsimp only
  by_cases hi : i < c
  · rw [if_pos hi]
    by_cases hfit : payload.length < 2 + 2 * i + 2 + auSizes payload i + auSize payload (2 + 2 * i)
    · rw [if_pos hfit, if_neg (by omega)]
    · rw [if_neg hfit, if_pos ⟨hi, by omega⟩]
  · rw [if_neg hi, if_neg (fun h => hi h.1)]

theorem reached_auPos {p : AuPos} (h : Reached (rfc3640Round payload c) (auPos payload 0) p) :
    ∃ i, p = auPos payload i := by
  refine h.invariant (I := fun p => ∃ i, p = auPos payload i) ⟨0, rfl⟩ ?_
  rintro t a u ⟨i, rfl⟩ ht
  rw [rfc3640Round_auPos] at ht
  split_ifs at ht
  cases ht
  exact ⟨i + 1, rfl⟩

/-- A header is reached if the units before it fit. -/
theorem auPos_reached {i : ℕ} (hi : i ≤ c)
    (hfit : 2 + 2 * i + auSizes payload i ≤ payload.length) :
    Reached (rfc3640Round payload c) (auPos payload 0) (auPos payload i) := by
  induction i with
  | zero => exact .refl _ _
  | succ i ih =>
    have hprev : 2 + 2 * i + auSizes payload i ≤ payload.length := by
      rw [auSizes_succ] at hfit
      omega
    have hround := @rfc3640Round_auPos payload c i
    rw [if_pos ⟨hi, hfit⟩] at hround
    exact (ih (by omega) hprev).tail hround

theorem rfc3640_safe_iff :
    SafeLoop (rfc3640Round payload c) AuPos.pos Access.InRange ⟨0, 2, 0⟩ ↔
      ¬ Misplaced payload c := by
  have hstart : (⟨0, 2, 0⟩ : AuPos) = auPos payload 0 := rfl
  rw [hstart]
  constructor
  · rintro hsafe ⟨i, hi, hfit, hlong⟩
    have hprev : 2 + 2 * i + auSizes payload i ≤ payload.length := by
      rw [auSizes_succ] at hfit
      omega
    have hround := @rfc3640Round_auPos payload c i
    rw [if_pos ⟨hi, hfit⟩] at hround
    have hrange := (hsafe.gives _ (auPos_reached hi.le hprev) _ _ hround).2
    rw [auSizes_succ] at hlong
    simp only at hrange
    omega
  · intro hno
    refine .of_advances (n := payload.length) ?_ ?_ ?_
    · intro t a u h
      unfold rfc3640Round at h
      dsimp only at h
      split_ifs at h
      cases h
      dsimp only
      omega
    · intro t _ a u h
      unfold rfc3640Round at h
      dsimp only at h
      split_ifs at h
      cases h
      dsimp only
      omega
    · intro t ht a u h
      obtain ⟨i, rfl⟩ := reached_auPos ht
      rw [rfc3640Round_auPos] at h
      split_ifs at h with hfit
      cases h
      have hlast : ¬ payload.length < 2 + 2 * c + auSizes payload (i + 1) :=
        fun hlong => hno ⟨i, hfit.1, hfit.2, hlong⟩
      rw [auSizes_succ] at hlast
      simp only [Access.InRange]
      omega

end

/-- The loops come to an end, move ahead and hand out ranges of the payload exactly
where no single byte is left behind the units of RFC 3016, and where no unit of RFC 3640
ends behind the payload and would not if it began behind its own header. -/
theorem aac_safe_iff (payload : List UInt8) :
    (SafeLoop (rfc3016Round payload) id Access.InRange 0 ↔ ¬ Stray payload) ∧
      ∀ c ∈ auHeaders payload,
        (SafeLoop (rfc3640Round payload c) AuPos.pos Access.InRange ⟨0, 2, 0⟩ ↔
          ¬ Misplaced payload c) :=
  ⟨rfc3016_safe_iff payload, fun _ _ => rfc3640_safe_iff⟩

/-- A payload with one AU header and two bytes. -/
theorem aac_safe_payload :
    auHeaders [0x00, 0x10, 0x00, 0x10, 0x21, 0x17] = some 1 ∧
      (SafeLoop (rfc3016Round [0x00, 0x10, 0x00, 0x10, 0x21, 0x17]) id Access.InRange 0 ↔
        ¬ Stray [0x00, 0x10, 0x00, 0x10, 0x21, 0x17]) ∧
      (SafeLoop (rfc3640Round [0x00, 0x10, 0x00, 0x10, 0x21, 0x17] 1) AuPos.pos Access.InRange
        ⟨0, 2, 0⟩ ↔ ¬ Misplaced [0x00, 0x10, 0x00, 0x10, 0x21, 0x17] 1) :=
  have hc : auHeaders [0x00, 0x10, 0x00, 0x10, 0x21, 0x17] = some 1 := by decide
  have h := aac_safe_iff [0x00, 0x10, 0x00, 0x10, 0x21, 0x17]
  ⟨hc, h.1, h.2 1 hc⟩

/-- One byte keeps the first loop going for ever, and the second one hands out the byte
behind a payload of two AU headers. -/
theorem aac_unsafe :
    (∀ n r, processRfc3016Frame n r ⟨true, 97, 0, 0, 1, [0x00]⟩ = none) ∧
      auHeaders [0x00, 0x20, 0x00, 0x08, 0x00, 0x00] = some 2 ∧
      rfc3640Round [0x00, 0x20, 0x00, 0x08, 0x00, 0x00] 2 ⟨0, 2, 0⟩ =
        some (⟨6, 6, 7⟩, ⟨1, 4, 1⟩) ∧
      ¬ Access.InRange ⟨6, 6, 7⟩ := by
  refine ⟨fun n r => ?_, by decide, by decide, by decide⟩
  have hfixed : rfc3016Round [0x00] 0 = some (⟨1, 0, 0⟩, 0) := by decide
  cases hloop : loop (rfc3016Round [0x00]) n 0 with
  | none => rw [processRfc3016Frame, hloop]; rfl
  | some units => exact absurd ⟨n, units, hloop⟩ (not_ends_of_fixed hfixed)

end CxxDeps.Audio
