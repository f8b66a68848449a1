import CxxDeps.Hypertext.Connection
import CxxDeps.Library.Framing

/-! Messages with keep-alives between them, cut into reads anywhere. -/

namespace CxxDeps.Hypertext

open Library Sys

/-- What a peer sends: a message, or a byte of a keep-alive. -/
inductive Piece
  | message (m : Sent)
  | blank (c : UInt8)
  deriving DecidableEq, Repr

namespace Piece

def wire : Piece → Text
  | message m => m.wire
  | blank c => [c]

/-- What the receiver is to do with it. -/
def events : Piece → List Event
  | message m => [.message m.message]
  | blank _ => []

/-- A SIP message has header lines. -/
def WellFormed (kind : Kind) : Piece → Prop
  | message m => m.WellFormed ∧ (kind = .sip → m.fields ≠ [])
  | blank c => c = 0x0D ∨ c = 0x0A

end Piece

/-- Blank bytes alone, `k` of them, are all that is there. -/
def BlankOk (kind : Kind) (k : ℕ) (bytes : Text) : Prop :=
  k = 0 ∨ kind = .sip ∧ bytes.length < 4

/-- Of a message that begins after `k` blank bytes only a part is there. -/
def PartOk (kind : Kind) (k : ℕ) (bytes : Text) (m : Sent) : Prop :=
  m.ReadableIn (bytes.drop k) ∧
    (k = 0 ∨ kind = .sip ∧
      (bytes.length < 4 ∨ k + m.head.length + 4 ≤ bytes.length ∧ m.WithheldIn bytes))

/-- The loop is right about the bytes of a round, of which the first `k` are blank, and
about those of the rounds after it. -/
def Readable (kind : Kind) : ℕ → List Piece → Text → Prop
  | k, [], bytes => BlankOk kind k bytes
  | k, .blank _ :: rest, bytes =>
    if bytes.length ≤ k then BlankOk kind k bytes else Readable kind (k + 1) rest bytes
  | k, .message m :: rest, bytes =>
    if k + m.wire.length ≤ bytes.length then
      m.DeclaredIn bytes ∧ Readable kind 0 rest (bytes.drop (k + m.wire.length))
    else PartOk kind k bytes m

/-- A read that brings some bytes, leaves the ring buffer room, and is read right. -/
def Clear (kind : Kind) (s : Framing Piece UInt8) (data : Text) : Prop :=
  data ≠ [] ∧ (s.unread ++ data).length < kind.capacity ∧ Readable kind 0 s.rest (s.unread ++ data)

theorem Piece.wire_ne_nil {kind : Kind} {piece : Piece} (h : piece.WellFormed kind) :
    piece.wire ≠ [] := by
  cases piece with
  | message m => simp [wire, Sent.wire, headerEnd]
  | blank c => simp [wire]

theorem Piece.isBlank {kind : Kind} {c : UInt8} (h : (blank c).WellFormed kind) :
    Message.isBlank c = true := by
  rcases h with rfl | rfl <;> decide

/-! ### One round of the loop -/

namespace Connection

variable {kind : Kind} {buf bytes : Text} {pos : ℕ}

theorem readLoop_stop (hbuf : buf.drop pos = bytes)
    (hparse : Message.parse bytes bytes.length = some (0, {})) (n : ℕ) (con : Connection) :
    readLoop kind buf (n + 1) pos bytes.length con = some (con.readOn kind, []) := by
  rw [readLoop]
  split_ifs
  · rfl
  · rw [hbuf, hparse, Option.bind_some]
    rfl

/-- A round that takes some of the bytes. -/
theorem readLoop_round (hbuf : buf.drop pos = bytes) (hsize : buf.length < 2 ^ 64) {r : ℕ}
    {message : Message} (hparse : Message.parse bytes bytes.length = some ((r : ℤ), message))
    (h0 : 0 < r) (hr : r ≤ bytes.length) (n : ℕ) {con : Connection}
    (hrb : RingBuffer.Holds kind.capacity con.recvRingBuffer (objects bytes)) :
    ∃ rb, RingBuffer.Holds kind.capacity rb (objects (bytes.drop r)) ∧
      readLoop kind buf (n + 1) pos bytes.length con =
        (readLoop kind buf n (pos + r) (bytes.drop r).length { con with recvRingBuffer := rb }).map
          fun q => (q.1, kind.deliver message ++ q.2) := by
  obtain ⟨rb, hremove, hholds⟩ := hrb.remove h0 (by rwa [length_objects])
  rw [objects_drop] at hholds
  refine ⟨rb, hholds, ?_⟩
  have hpos : bytes.length ≤ buf.length := by
    rw [← hbuf, List.length_drop]
    omega
  rw [readLoop, if_neg (by omega), hbuf, hparse, Option.bind_some]
  dsimp only
  rw [if_neg (by omega), if_neg (by omega), Int.toNat_natCast, hremove, Option.bind_some,
    sizeT_sub hr (by omega), List.length_drop]

/-- A round that takes a message that is there, with what is blank in front of it. -/
theorem readLoop_take {m : Sent} (hm : (Piece.message m).WellFormed kind) {b t : Text}
    (hb : ∀ c ∈ b, Message.isBlank c = true) (hbuf : buf.drop pos = b ++ (m.wire ++ t))
    (hsize : buf.length < 2 ^ 64) (hread : m.DeclaredIn (b ++ (m.wire ++ t))) (n : ℕ)
    {con : Connection}
    (hrb : RingBuffer.Holds kind.capacity con.recvRingBuffer (objects (b ++ (m.wire ++ t)))) :
    ∃ rb, RingBuffer.Holds kind.capacity rb (objects t) ∧
      readLoop kind buf (n + 1) pos (b ++ (m.wire ++ t)).length con =
        (readLoop kind buf n (pos + (b.length + m.wire.length)) t.length
          { con with recvRingBuffer := rb }).map fun q => (q.1, .message m.message :: q.2) := by
  have hne : 0 < m.wire.length := List.length_pos_of_ne_nil (Piece.wire_ne_nil hm)
  have hall : b.length + m.wire.length ≤ (b ++ (m.wire ++ t)).length := by
    simp only [List.length_append]
    omega
  have hfront : (b ++ (m.wire ++ t)).drop (b.length + m.wire.length) = t := by
    rw [← List.drop_drop, List.drop_left, List.drop_left]
  have hdeliver : kind.deliver m.message = [.message m.message] := by
    cases kind with
    | http => rfl
    | sip =>
      have := List.length_pos_of_ne_nil (hm.2 rfl)
      simp [Kind.deliver, Kind.handsOver, Sent.message, this]
  obtain ⟨rb, hholds, hloop⟩ :=
    readLoop_round hbuf hsize (hm.1.parse_wire hb hread) (by omega) hall n hrb
  rw [hfront] at hholds hloop
  refine ⟨rb, hholds, ?_⟩
  rw [hloop, hdeliver]
  rfl

/-- A round that takes only what is blank, and hands nothing over. -/
theorem readLoop_skip (hkind : kind = .sip) {b t : Text} (hb : b ≠ [])
    (hbuf : buf.drop pos = b ++ t) (hsize : buf.length < 2 ^ 64)
    (hparse : Message.parse (b ++ t) (b ++ t).length = some ((b.length : ℤ), {})) (n : ℕ)
    {con : Connection}
    (hrb : RingBuffer.Holds kind.capacity con.recvRingBuffer (objects (b ++ t))) :
    ∃ rb, RingBuffer.Holds kind.capacity rb (objects t) ∧
      readLoop kind buf (n + 1) pos (b ++ t).length con =
        readLoop kind buf n (pos + b.length) t.length { con with recvRingBuffer := rb } := by
  obtain ⟨rb, hholds, hloop⟩ := readLoop_round hbuf hsize hparse (List.length_pos_of_ne_nil hb)
    (List.prefix_append b t).length_le n hrb
  rw [List.drop_left] at hholds hloop
  refine ⟨rb, hholds, ?_⟩
  rw [hloop, hkind]
  simp [Kind.deliver, Kind.handsOver]

/-- The loop stops when nothing but blank bytes is left. -/
theorem readLoop_blank {b : Text} (hb : ∀ c ∈ b, Message.isBlank c = true)
    (hok : BlankOk kind b.length b) (hbuf : buf.drop pos = b) (hsize : buf.length < 2 ^ 64)
    {n : ℕ} (hn : b.length < n) {con : Connection}
    (hrb : RingBuffer.Holds kind.capacity con.recvRingBuffer (objects b)) :
    ∃ rb, RingBuffer.Holds kind.capacity rb (objects []) ∧
      readLoop kind buf n pos b.length con =
        some (({ con with recvRingBuffer := rb } : Connection).readOn kind, []) := by
  obtain ⟨n, rfl⟩ : ∃ k, n = k + 1 := ⟨n - 1, by omega⟩
  have hnone : Message.parse [] 0 = some (0, {}) := Message.parse_short rfl (by decide)
  by_cases hne : b = []
  · subst hne
    exact ⟨con.recvRingBuffer, hrb, readLoop_stop hbuf hnone n con⟩
  · have hlen := List.length_pos_of_ne_nil hne
    obtain ⟨hkind, hshort⟩ : kind = .sip ∧ b.length < 4 := by
      rcases hok with h | h
      · omega
      · exact h
    have hparse : Message.parse (b ++ []) (b ++ []).length = some ((b.length : ℤ), {}) := by
      rw [List.append_nil]
      exact Message.parse_short (Message.leading_blank hb) hshort
    rw [← List.append_nil b] at hbuf hrb
    obtain ⟨rb, hholds, hloop⟩ := readLoop_skip hkind hne hbuf hsize hparse n hrb
    obtain ⟨n, rfl⟩ : ∃ k, n = k + 1 := ⟨n - 1, by omega⟩
    have hend : buf.drop (pos + b.length) = [] := by
      rw [← List.drop_drop, hbuf, List.drop_left]
    rw [List.append_nil] at hloop
    refine ⟨rb, hholds, ?_⟩
    rw [hloop]
    exact readLoop_stop hend hnone n _

/-- The loop stops at a message of which only a part is there, and has taken what is
blank in front of it. -/
theorem readLoop_part {m : Sent} (hm : m.WellFormed) {b tail t t' : Text}
    (hb : ∀ c ∈ b, Message.isBlank c = true) (hcut : tail ++ t = m.wire ++ t')
    (hpart : tail.length < m.wire.length) (hok : PartOk kind b.length (b ++ tail) m)
    (hbuf : buf.drop pos = b ++ tail) (hsize : buf.length < 2 ^ 64) {n : ℕ}
    (hn : (b ++ tail).length < n) {con : Connection}
    (hrb : RingBuffer.Holds kind.capacity con.recvRingBuffer (objects (b ++ tail))) :
    ∃ rb, RingBuffer.Holds kind.capacity rb (objects tail) ∧
      readLoop kind buf n pos (b ++ tail).length con =
        some (({ con with recvRingBuffer := rb } : Connection).readOn kind, []) := by
  obtain ⟨n, rfl⟩ : ∃ k, n = k + 1 := ⟨n - 1, by omega⟩
  obtain ⟨hread, hblank⟩ := hok
  rw [List.drop_left] at hread
  have hnone := hm.parse_part hcut hpart hread
  by_cases hne : b = []
  · subst hne
    exact ⟨con.recvRingBuffer, hrb, readLoop_stop hbuf hnone n con⟩
  · have hlen := List.length_pos_of_ne_nil hne
    have hall : (b ++ tail).length = b.length + tail.length := List.length_append
    obtain ⟨hkind, hskip⟩ := hblank.resolve_left (by omega)
    have hparse : Message.parse (b ++ tail) (b ++ tail).length = some ((b.length : ℤ), {}) := by
      rcases hskip with hshort | ⟨hend, hmore⟩
      · exact Message.parse_short (hm.leading hb hcut) hshort
      · exact hm.parse_withheld hb hcut (by omega) hmore
    obtain ⟨rb, hholds, hloop⟩ := readLoop_skip hkind hne hbuf hsize hparse n hrb
    obtain ⟨n, rfl⟩ : ∃ k, n = k + 1 := ⟨n - 1, by omega⟩
    have hrest : buf.drop (pos + b.length) = tail := by
      rw [← List.drop_drop, hbuf, List.drop_left]
    refine ⟨rb, hholds, ?_⟩
    rw [hloop]
    exact readLoop_stop hrest hnone n _

/-! ### A read -/

/-- The loop takes the pieces that are there; `b` is what is blank and was not taken yet. -/
theorem readLoop_complete {rest : List Piece} (hwf : ∀ piece ∈ rest, piece.WellFormed kind)
    {b tail : Text} (hb : ∀ c ∈ b, Message.isBlank c = true) (hbuf : buf.drop pos = b ++ tail)
    (hsize : buf.length < 2 ^ 64) (hcut : tail <+: rest.flatMap Piece.wire)
    (hread : Readable kind b.length rest (b ++ tail)) {n : ℕ} (hn : (b ++ tail).length < n)
    (con : Connection)
    (hrb : RingBuffer.Holds kind.capacity con.recvRingBuffer (objects (b ++ tail))) :
    ∃ rb, RingBuffer.Holds kind.capacity rb
        (objects (tail.drop ((complete Piece.wire rest tail).flatMap Piece.wire).length)) ∧
      readLoop kind buf n pos (b ++ tail).length con =
        some (({ con with recvRingBuffer := rb } : Connection).readOn kind,
          (complete Piece.wire rest tail).flatMap Piece.events) := by
  induction rest generalizing b tail pos n con with
  | nil =>
    obtain rfl : tail = [] := List.prefix_nil.mp hcut
    rw [List.append_nil] at hbuf hread hn hrb ⊢
    exact readLoop_blank hb hread hbuf hsize hn hrb
  | cons piece rest ih =>
    obtain ⟨hpiece, hrest⟩ := List.forall_mem_cons.mp hwf
    rw [List.flatMap_cons] at hcut
    cases piece with
    | blank c =>
      cases tail with
      | nil =>
        rw [List.append_nil] at hbuf hread hn hrb ⊢
        rw [Readable, if_pos (Nat.le_refl _)] at hread
        exact readLoop_blank hb hread hbuf hsize hn hrb
      | cons x tail =>
        obtain ⟨rfl, htail⟩ := List.cons_prefix_cons.mp hcut
        have hmore : ¬ (b ++ x :: tail).length ≤ b.length := by simp
        rw [Readable, if_neg hmore] at hread
        -- the byte joins what is blank in front
        have hmove : b ++ x :: tail = b ++ [x] ++ tail := by simp
        have hb' : ∀ c ∈ b ++ [x], Message.isBlank c = true := by
          intro c hc
          rcases List.mem_append.mp hc with h | h
          · exact hb c h
          · exact List.mem_singleton.mp h ▸ Piece.isBlank hpiece
        have htake : complete Piece.wire (.blank x :: rest) (x :: tail) =
            .blank x :: complete Piece.wire rest tail :=
          complete_append_left Piece.wire (.blank x) rest tail
        rw [hmove] at hbuf hread hn hrb ⊢
        rw [htake]
        exact ih hrest hb' hbuf htail (by simpa using hread) hn con hrb
    | message m =>
      by_cases hthere : m.wire.length ≤ tail.length
      · obtain ⟨t, rfl⟩ : m.wire <+: tail :=
          List.prefix_of_prefix_length_le (List.prefix_append _ _) hcut hthere
        have hall : (b ++ (m.wire ++ t)).length = b.length + m.wire.length + t.length := by
          simp only [List.length_append]
          omega
        have hfront : (b ++ (m.wire ++ t)).drop (b.length + m.wire.length) = t := by
          rw [← List.drop_drop, List.drop_left, List.drop_left]
        rw [Readable, if_pos (by omega), hfront] at hread
        obtain ⟨n, rfl⟩ : ∃ k, n = k + 1 := ⟨n - 1, by omega⟩
        obtain ⟨rb, hholds, hloop⟩ := readLoop_take hpiece hb hbuf hsize hread.1 n hrb
        have hbuf' : buf.drop (pos + (b.length + m.wire.length)) = [] ++ t := by
          rw [← List.drop_drop, hbuf, hfront, List.nil_append]
        have hcut' : t <+: rest.flatMap Piece.wire := (List.prefix_append_right_inj _).mp hcut
        have hn' : ([] ++ t).length < n := by
          have hne : 0 < m.wire.length := List.length_pos_of_ne_nil (Piece.wire_ne_nil hpiece)
          rw [List.nil_append]
          omega
        obtain ⟨rb', hholds', hloop'⟩ := ih hrest (b := []) (List.forall_mem_nil _) hbuf' hcut'
          hread.2 hn' { con with recvRingBuffer := rb } hholds
        have htake : complete Piece.wire (.message m :: rest) (m.wire ++ t) =
            .message m :: complete Piece.wire rest t :=
          complete_append_left Piece.wire (.message m) rest t
        refine ⟨rb', ?_, ?_⟩
        · rw [htake, List.flatMap_cons, List.length_append, ← List.drop_drop]
          simpa [Piece.wire] using hholds'
        · rw [List.nil_append] at hloop'
          rw [hloop, hloop', htake, Option.map_some]
          rfl
      · obtain ⟨future, hfuture⟩ := hcut
        have hnot : ¬ b.length + m.wire.length ≤ (b ++ tail).length := by
          rw [List.length_append]
          omega
        rw [Readable, if_neg hnot] at hread
        have htake : complete Piece.wire (.message m :: rest) tail = [] :=
          complete_of_lt Piece.wire (u := .message m) (Nat.lt_of_not_le hthere) rest
        rw [htake]
        exact readLoop_part hpiece.1 hb hfuture (by omega) hread hbuf hsize hn hrb

/-- The connection stands for the stream: it reads, and holds the bytes that were not
taken. -/
def Follows (kind : Kind) (s : Framing Piece UInt8) (con : Connection) : Prop :=
  (∀ piece ∈ s.rest, piece.WellFormed kind) ∧ con.active = true ∧ con.reading = true ∧
    RingBuffer.Holds kind.capacity con.recvRingBuffer (objects s.unread)

theorem readOn_follows {s : Framing Piece UInt8} {con : Connection}
    (hwf : ∀ piece ∈ s.rest, piece.WellFormed kind) (hactive : con.active = true)
    (hrb : RingBuffer.Holds kind.capacity con.recvRingBuffer (objects s.unread)) :
    Follows kind s (con.readOn kind) := by
  cases kind with
  | http => exact ⟨hwf, hactive, rfl, hrb⟩
  | sip => exact ⟨hwf, hactive, hactive, hrb⟩

/-- A clear read takes the pieces that are there. -/
theorem step_follows {s : Framing Piece UInt8} {con : Connection} {data : Text}
    (h : Follows kind s con) (hclear : Clear kind s data)
    (hcut : s.unread ++ data <+: s.rest.flatMap Piece.wire) :
    ∃ s' con' os, Framing.step Piece.wire Piece.events s data = some (s', os) ∧
      step kind con data = some (con', os) ∧ Follows kind s' con' := by
  obtain ⟨hwf, hactive, hreading, hrb⟩ := h
  obtain ⟨hdata, hroom, hread⟩ := hclear
  obtain ⟨rb, hwrite, hholds, hread0, hsome, hpeek⟩ := hrb.write_peek hdata hroom
  have hcapacity : kind.capacity < 2 ^ 64 := by cases kind <;> decide
  obtain ⟨rb', hholds', hloop⟩ :=
    readLoop_complete hwf (b := []) (List.forall_mem_nil _)
      (List.drop_zero : (s.unread ++ data).drop 0 = _) (by omega) hcut hread (Nat.lt_succ_self _)
      { con with reading := false, recvRingBuffer := rb } hholds
  refine ⟨_, ({ con with reading := false, recvRingBuffer := rb' } : Connection).readOn kind, _,
    rfl, ?_, ?_⟩
  · rw [step, hreading, if_pos rfl, handleRead]
    simp only [Bool.false_eq_true, if_false, hwrite, Option.bind_some, Bool.not_true, hread0,
      if_neg (fun h : kind = .sip ∧ _ => hsome h.2), hpeek, ofObjects_objects]
    exact hloop
  · apply readOn_follows
    · intro piece hpiece
      exact hwf piece (List.mem_of_mem_drop hpiece)
    · exact hactive
    · exact hholds'

end Connection

instance (kind : Kind) (k : ℕ) (bytes : Text) : Decidable (BlankOk kind k bytes) :=
  inferInstanceAs (Decidable (_ ∨ kind = .sip ∧ bytes.length < 4))

instance (kind : Kind) (k : ℕ) (bytes : Text) (m : Sent) : Decidable (PartOk kind k bytes m) :=
  inferInstanceAs (Decidable (m.ReadableIn _ ∧
    (_ ∨ kind = .sip ∧ (_ ∨ k + m.head.length + 4 ≤ bytes.length ∧ m.WithheldIn bytes))))

instance Readable.decidable (kind : Kind) :
    (k : ℕ) → (pieces : List Piece) → (bytes : Text) → Decidable (Readable kind k pieces bytes)
  | k, [], bytes => inferInstanceAs (Decidable (BlankOk kind k bytes))
  | k, .blank _ :: rest, bytes =>
    have := Readable.decidable kind (k + 1) rest bytes
    inferInstanceAs (Decidable
      (if bytes.length ≤ k then BlankOk kind k bytes else Readable kind (k + 1) rest bytes))
  | k, .message m :: rest, bytes =>
    have := Readable.decidable kind 0 rest (bytes.drop (k + m.wire.length))
    inferInstanceAs (Decidable (if k + m.wire.length ≤ bytes.length then
      m.DeclaredIn bytes ∧ Readable kind 0 rest (bytes.drop (k + m.wire.length))
      else PartOk kind k bytes m))

instance (kind : Kind) (s : Framing Piece UInt8) (data : Text) : Decidable (Clear kind s data) :=
  inferInstanceAs (Decidable (data ≠ [] ∧ _ ∧ Readable kind 0 s.rest (s.unread ++ data)))

end CxxDeps.Hypertext
