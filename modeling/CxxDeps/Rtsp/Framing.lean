import CxxDeps.Library.Framing
import CxxDeps.Rtsp.Connection

/-! Requests and binary frames that share a connection, cut into reads anywhere. The
loop of `handle_read` counts the bytes before a frame twice. Where the reads keep away
from that, from the content lengths that `parse` looks for among all bytes, and from targets
that `uri::parse` does not take, every piece is taken when its last byte has arrived. -/

namespace CxxDeps.Rtsp

open Hypertext Library Sys

/-- What a client sends. -/
inductive Piece
  | request (m : Sent)
  | frame (channel : UInt8) (payload : List UInt8)
  deriving DecidableEq, Repr

namespace Piece

def wire : Piece → List UInt8
  | request m => m.wire
  | frame channel payload =>
    0x24 :: channel :: (toBe16 (UInt16.ofNat payload.length) ++ payload)

/-- A request that closes the connection. -/
def Closes (piece : Piece) : Bool :=
  match piece with
  | request m => m.message.matchMethod (text "TEARDOWN")
  | frame .. => false

/-- What `on_message` does besides. -/
def reply (request : Message) : List Event :=
  if request.matchMethod (text "TEARDOWN") then [.destroy]
  else if isKnown request then []
  else [.methodNotAllowed (cseq request)]

/-- What the receiver is to do with it. -/
def events : Piece → List Event
  | request m => .request m.message :: reply m.message
  | frame channel payload => [.binary channel payload]

def WellFormed : Piece → Prop
  | request m => m.WellFormed ∧ m.filed1.head? ≠ some 0x24
  | frame _ payload => payload.length < 2048

/-- The loop is right about the piece that begins at `pos` of the peeked bytes, of which
`bytes` are left: a frame is at the front and more than its header is peeked, or it is
not there and so little of it has come that the loop stops, or so much that the bytes
before it do not make the difference negative. -/
def ReadableAt (pos : ℕ) (bytes : List UInt8) : Piece → Prop
  | request m => m.ReadableIn bytes
  | frame _ payload =>
    pos = 0 ∧ 4 < bytes.length ∨
      bytes.length < 4 + payload.length ∧ (bytes.length ≤ 4 ∨ pos + 4 ≤ bytes.length)

/-- `uri::parse` is defined for the target of an `OPTIONS` request, and for that of a request of
another method that is not known and is logged. -/
def Answerable (y : UInt8) (debug : Bool) : Piece → Prop
  | request m =>
    if m.message.matchMethod (text "OPTIONS") then (Uri.parse y m.message.filed2).isSome = true
    else debug = true → isKnown m.message = true ∨ (m.message.toText y).isSome = true
  | frame .. => True

end Piece

section Clear

variable (y : UInt8) (debug : Bool)

/-- The loop is right about each piece that begins among the peeked bytes. -/
def Readable : ℕ → List Piece → List UInt8 → Prop
  | _, [], _ => True
  | pos, piece :: rest, bytes =>
    piece.ReadableAt pos bytes ∧
      (piece.wire.length ≤ bytes.length → piece.Answerable y debug ∧
        Readable (pos + piece.wire.length) rest (bytes.drop piece.wire.length))

/-- A read of an open connection that brings some bytes, leaves the ring buffer
room, and is read right. -/
def Clear (s : Framing Piece UInt8) (data : List UInt8) : Prop :=
  (∀ piece ∈ s.taken, piece.Closes = false) ∧ data ≠ [] ∧
    (s.unread ++ data).length < 102400 ∧ Readable y debug 0 s.rest (s.unread ++ data)

end Clear

/-! ### One round of the loop -/

namespace Piece

variable {piece : Piece}

theorem wire_ne_nil (h : piece.WellFormed) : piece.wire ≠ [] := by
  cases piece with
  | request m =>
    obtain ⟨c, s, hfirst⟩ := List.exists_cons_of_ne_nil h.1.filed1_ne
    simp [wire, Sent.wire, Sent.head, Sent.firstLine, hfirst]
  | frame channel payload => simp [wire]

/-- A request does not begin with a dollar sign. -/
theorem request_magic {m : Sent} (h : (request m).WellFormed) {c : UInt8} {bytes t t' : List UInt8}
    (hcut : c :: bytes ++ t = m.wire ++ t') : c ≠ 0x24 := by
  obtain ⟨x, s, hfirst⟩ := List.exists_cons_of_ne_nil h.1.filed1_ne
  have hx : x ≠ 0x24 := by
    intro hx
    exact h.2 (by rw [hfirst, hx]; rfl)
  simp only [Sent.wire, Sent.head, Sent.firstLine, hfirst, List.cons_append,
    List.cons.injEq] at hcut
  exact hcut.1 ▸ hx

end Piece

namespace Connection

section Round

variable {y : UInt8} {piece : Piece} {buf bytes t t' : List UInt8} {pos : ℕ}

theorem getElem?_of_drop {c : UInt8} (hbuf : buf.drop pos = c :: bytes) : buf[pos]? = some c := by
  rw [← List.head?_drop, hbuf, List.head?_cons]

/-- The header of a frame of which more is there. -/
theorem frame_header {channel : UInt8} {payload : List UInt8} (hbuf : buf.drop pos = bytes)
    (hcut : bytes ++ t = (Piece.frame channel payload).wire ++ t') (hlong : 4 < bytes.length) :
    ∃ hi lo, buf[pos]? = some 0x24 ∧ (buf.drop (pos + 1)).take 3 = [channel, hi, lo] ∧
      toBe16 (UInt16.ofNat payload.length) = [hi, lo] := by
  obtain ⟨a, b, c, d, rest, rfl⟩ : ∃ a b c d rest, bytes = a :: b :: c :: d :: rest := by
    match bytes, hlong with
    | a :: b :: c :: d :: rest, _ => exact ⟨a, b, c, d, rest, rfl⟩
  simp only [Piece.wire, toBe16, List.cons_append, List.cons.injEq] at hcut
  obtain ⟨rfl, rfl, rfl, rfl, -⟩ := hcut
  refine ⟨_, _, getElem?_of_drop hbuf, ?_, rfl⟩
  rw [← List.drop_drop, hbuf]
  rfl

/-- The length in a frame's header. -/
theorem frame_length {payload : List UInt8} {hi lo : UInt8} (h : payload.length < 2048)
    (hbe : toBe16 (UInt16.ofNat payload.length) = [hi, lo]) :
    (be16 hi lo).toNat = payload.length := by
  have hw : be16 hi lo = UInt16.ofNat payload.length := by
    simp only [toBe16, List.cons.injEq] at hbe
    obtain ⟨rfl, rfl, -⟩ := hbe
    exact be16_toBe16 _
  rw [hw, UInt16.toNat_ofNat', Nat.mod_eq_of_lt (by omega)]

/-- The loop stops at a piece that is not there yet. -/
theorem readLoop_wait (hwf : piece.WellFormed) (hbuf : buf.drop pos = bytes)
    (hsize : buf.length < 2 ^ 64) (hcut : bytes ++ t = piece.wire ++ t')
    (hpart : bytes.length < piece.wire.length) (hread : piece.ReadableAt pos bytes) (n : ℕ)
    (con : Connection) : readLoop y buf (n + 1) pos bytes.length con = some (con.readOn, []) := by
  cases bytes with
  | nil => rw [readLoop, List.length_nil, if_pos rfl]
  | cons c bytes =>
    rw [readLoop, if_neg (by simp), getElem?_of_drop hbuf, Option.bind_some]
    cases piece with
    | request m =>
      have hparse := hwf.1.parse_part hcut hpart hread
      rw [if_neg (Piece.request_magic hwf hcut), hbuf, hparse, Option.bind_some]
      rfl
    | frame channel payload =>
      have hc : c = 0x24 := by
        simp only [Piece.wire, List.cons_append, List.cons.injEq] at hcut
        exact hcut.1
      rw [if_pos hc]
      by_cases hshort : (c :: bytes).length ≤ 4
      · rw [if_pos hshort]
      · obtain ⟨hi, lo, -, hheader, hbe⟩ := frame_header hbuf hcut (by omega)
        have hlen := frame_length hwf hbe
        have hpos : pos + (c :: bytes).length = buf.length := by
          have := congrArg List.length hbuf
          simp only [List.length_drop, List.length_cons] at this ⊢
          omega
        have hwire : (Piece.frame channel payload).wire.length = 4 + payload.length := by
          simp [Piece.wire]
          omega
        have hdiff : sizeT (((c :: bytes).length : ℤ) - pos - 4) =
            (c :: bytes).length - (pos + 4) := by
          rw [← sizeT_sub (by rcases hread with h | h <;> omega) (by omega)]
          congr 1
          push_cast
          ring
        rw [if_neg hshort, hheader]
        dsimp only
        rw [hlen, hdiff, if_pos (by omega)]

/-- The connection when a piece is taken and the ring buffer and the address are what they are
then. -/
def after (con : Connection) (piece : Piece) (rb : RingBuffer 1) (url : Uri) : Connection :=
  { con with active := con.active && !piece.Closes, recvRingBuffer := rb, url }

/-- Two methods that differ do not both match. -/
theorem matchMethod_ne {m : Message} {a b : Text} (h : m.matchMethod a = true)
    (hne : icasecompare a b = false) : m.matchMethod b = false := by
  unfold Message.matchMethod at h ⊢
  rw [icasecompare, beq_iff_eq] at h
  rw [icasecompare, h]
  exact hne

theorem isKnown_of_matchMethod {m : Message} {a : Text} (ha : a ∈ methods)
    (h : m.matchMethod a = true) : isKnown m = true := List.any_eq_true.mpr ⟨a, ha, h⟩

/-- A request that can be answered is handled. -/
theorem onMessage_request {m : Sent} (con : Connection)
    (h : (Piece.request m).Answerable y con.debug) (rb : RingBuffer 1) :
    ∃ handled url, con.onMessage y m.message = some handled ∧
      { handled.1 with recvRingBuffer := rb } = con.after (.request m) rb url ∧
      handled.1.recvRingBuffer = con.recvRingBuffer ∧ handled.2 = (Piece.request m).events := by
  simp only [Piece.Answerable] at h
  by_cases hoptions : m.message.matchMethod (text "OPTIONS") = true
  · rw [if_pos hoptions] at h
    obtain ⟨url, hurl⟩ := Option.isSome_iff_exists.mp h
    have hteardown := matchMethod_ne (b := text "TEARDOWN") hoptions (by decide)
    have hknown := isKnown_of_matchMethod (by decide) hoptions
    refine ⟨({ con with url }, [.request m.message]), url, ?_, ?_, rfl, ?_⟩
    · rw [onMessage, if_pos hoptions, hurl, Option.map_some]
    · simp [after, Piece.Closes, hteardown]
    · simp [Piece.events, Piece.reply, hteardown, hknown]
  rw [if_neg hoptions] at h
  by_cases hteardown : m.message.matchMethod (text "TEARDOWN") = true
  · refine ⟨({ con with active := false }, [.request m.message, .destroy]), con.url, ?_, ?_, rfl,
      ?_⟩
    · rw [onMessage, if_neg hoptions, if_pos hteardown]
    · simp [after, Piece.Closes, hteardown]
    · simp [Piece.events, Piece.reply, hteardown]
  rw [Bool.not_eq_true] at hteardown
  have hafter : { con with recvRingBuffer := rb } = con.after (.request m) rb con.url := by
    simp [after, Piece.Closes, hteardown]
  by_cases hknown : isKnown m.message = true
  · refine ⟨(con, [.request m.message]), con.url, ?_, hafter, rfl, ?_⟩
    · rw [onMessage, if_neg hoptions, if_neg (by simp [hteardown]), if_pos hknown]
    · simp [Piece.events, Piece.reply, hteardown, hknown]
  · have hlogged : (con.debug && (m.message.toText y).isNone) = false := by
      rw [Bool.and_eq_false_imp]
      intro hdebug
      rw [Option.isNone_eq_false_iff]
      exact (h hdebug).resolve_left hknown
    refine ⟨(con, [.request m.message, .methodNotAllowed (cseq m.message)]), con.url, ?_, hafter,
      rfl, ?_⟩
    · rw [onMessage, if_neg hoptions, if_neg (by simp [hteardown]), if_neg hknown,
        if_neg (by simp [hlogged])]
    · simp [Piece.events, Piece.reply, hteardown, hknown]

/-- The loop takes a piece that is there, and goes on after it. -/
theorem readLoop_take (hwf : piece.WellFormed) (hbuf : buf.drop pos = piece.wire ++ t)
    (hsize : buf.length < 2 ^ 64) (hread : piece.ReadableAt pos (piece.wire ++ t)) (n : ℕ)
    {con : Connection} (hanswer : piece.Answerable y con.debug)
    (hrb : RingBuffer.Holds 102400 con.recvRingBuffer (objects (piece.wire ++ t))) :
    ∃ rb url, RingBuffer.Holds 102400 rb (objects t) ∧
      readLoop y buf (n + 1) pos (piece.wire ++ t).length con =
        (readLoop y buf n (pos + piece.wire.length) t.length (con.after piece rb url)).map
          fun q => (q.1, piece.events ++ q.2) := by
  have hne : 0 < piece.wire.length := List.length_pos_of_ne_nil (Piece.wire_ne_nil hwf)
  have hall : (piece.wire ++ t).length = piece.wire.length + t.length := List.length_append
  have hpos : pos + (piece.wire ++ t).length = buf.length := by
    have := congrArg List.length hbuf
    rw [List.length_drop] at this
    omega
  obtain ⟨rb, hremove, hholds⟩ := hrb.remove hne (by rw [length_objects]; omega)
  rw [objects_drop, List.drop_left] at hholds
  have hrest : sizeT (((piece.wire ++ t).length : ℤ) - piece.wire.length) = t.length := by
    rw [sizeT_sub (by omega) (by omega)]
    omega
  obtain ⟨c, bytes, hcons⟩ : ∃ c bytes, piece.wire ++ t = c :: bytes :=
    List.exists_cons_of_length_pos (by omega)
  have hmagic : buf[pos]? = some c := getElem?_of_drop (hbuf.trans hcons)
  cases piece with
  | request m =>
    obtain ⟨handled, url, hhandled, hafter, hring, hevents⟩ := onMessage_request con hanswer rb
    refine ⟨rb, url, hholds, ?_⟩
    have hcut : c :: bytes ++ [] = m.wire ++ t := by rw [List.append_nil, ← hcons]; rfl
    have hparse : Message.parse (m.wire ++ t) (m.wire ++ t).length =
        some ((m.wire.length : ℤ), m.message) := by
      have hdeclared := Sent.ReadableIn.declared hread
      simpa using hwf.1.parse_wire (b := []) (List.forall_mem_nil _) hdeclared
    rw [readLoop, if_neg (by omega), hmagic, Option.bind_some,
      if_neg (Piece.request_magic hwf hcut), hbuf]
    simp only [Piece.wire] at hparse hne hremove hrest ⊢
    rw [hparse, Option.bind_some]
    dsimp only
    rw [if_neg (by omega), if_neg (by omega), Int.toNat_natCast, hhandled, Option.bind_some, hring,
      hremove, Option.bind_some, hrest]
    dsimp only
    rw [hafter, hevents]
  | frame channel payload =>
    have hwire : (Piece.frame channel payload).wire.length = 4 + payload.length := by
      simp [Piece.wire]
      omega
    have hfront : pos = 0 ∧ 4 < ((Piece.frame channel payload).wire ++ t).length := by
      rcases hread with h | h
      · exact h
      · omega
    obtain ⟨rfl, hlong⟩ := hfront
    obtain ⟨hi, lo, hdollar, hheader, hbe⟩ :=
      frame_header hbuf (List.append_nil ((Piece.frame channel payload).wire ++ t)) hlong
    have hc : c = 0x24 := Option.some.inj (hmagic.symm.trans hdollar)
    have hlen := frame_length hwf hbe
    have hdiff : sizeT ((((Piece.frame channel payload).wire ++ t).length : ℤ) - (0 : ℕ) - 4) =
        ((Piece.frame channel payload).wire ++ t).length - 4 := by
      rw [← sizeT_sub (by omega) (by omega)]
      congr 1
    have hpacket : (buf.drop (0 + 4)).take payload.length = payload := by
      rw [List.drop_zero] at hbuf
      rw [hbuf, Piece.wire, hbe]
      simp
    refine ⟨rb, con.url, hholds, ?_⟩
    rw [readLoop, if_neg (by omega), hmagic, Option.bind_some, if_pos hc, if_neg (by omega),
      hheader]
    dsimp only
    have hwf' : payload.length < 2048 := hwf
    rw [hlen, hdiff, if_neg (by omega), if_neg (by omega), if_neg (by omega), hpacket,
      show 0 + 4 + payload.length = (Piece.frame channel payload).wire.length by omega, hremove,
      Option.bind_some, hrest]
    have hafter : { con with recvRingBuffer := rb } =
        con.after (.frame channel payload) rb con.url := by
      simp [after, Piece.Closes]
    dsimp only
    rw [hafter]
    rfl

end Round

/-! ### A read -/

/-- The loop takes the pieces that are there. -/
theorem readLoop_complete {rest : List Piece} (hwf : ∀ piece ∈ rest, piece.WellFormed)
    {buf bytes : List UInt8} {pos : ℕ} (hbuf : buf.drop pos = bytes)
    (hsize : buf.length < 2 ^ 64) (hcut : bytes <+: rest.flatMap Piece.wire)
    {y : UInt8} (con : Connection) (hread : Readable y con.debug pos rest bytes) {n : ℕ}
    (hrb : RingBuffer.Holds 102400 con.recvRingBuffer (objects bytes)) (hn : bytes.length < n) :
    ∃ con', readLoop y buf n pos bytes.length con =
        some (con', (complete Piece.wire rest bytes).flatMap Piece.events) ∧
      con'.debug = con.debug ∧ con'.reading = con'.active ∧
      con'.active = (con.active && (complete Piece.wire rest bytes).all fun p => !p.Closes) ∧
      RingBuffer.Holds 102400 con'.recvRingBuffer
        (objects (bytes.drop ((complete Piece.wire rest bytes).flatMap Piece.wire).length)) := by
  induction rest generalizing pos bytes n con with
  | nil =>
    obtain ⟨n, rfl⟩ : ∃ k, n = k + 1 := ⟨n - 1, by omega⟩
    obtain rfl : bytes = [] := List.prefix_nil.mp hcut
    rw [readLoop, List.length_nil, if_pos rfl]
    exact ⟨con.readOn, rfl, rfl, rfl, (Bool.and_true _).symm, hrb⟩
  | cons piece rest ih =>
    obtain ⟨n, rfl⟩ : ∃ k, n = k + 1 := ⟨n - 1, by omega⟩
    obtain ⟨hpiece, hrest⟩ := List.forall_mem_cons.mp hwf
    rw [List.flatMap_cons] at hcut
    by_cases hthere : piece.wire.length ≤ bytes.length
    · obtain ⟨t, rfl⟩ : piece.wire <+: bytes :=
        List.prefix_of_prefix_length_le (List.prefix_append _ _) hcut hthere
      have hread' := hread.2 hthere
      rw [List.drop_left] at hread'
      obtain ⟨rb, url, hholds, hloop⟩ :=
        readLoop_take hpiece hbuf hsize hread.1 n hread'.1 hrb
      have hbuf' : buf.drop (pos + piece.wire.length) = t := by
        rw [← List.drop_drop, hbuf, List.drop_left]
      have hne : 0 < piece.wire.length := List.length_pos_of_ne_nil (Piece.wire_ne_nil hpiece)
      rw [List.length_append] at hn
      obtain ⟨con', hrun, hdebug, hreading, hactive, hring⟩ :=
        ih hrest hbuf' ((List.prefix_append_right_inj _).mp hcut) (con.after piece rb url) hread'.2
          hholds (Nat.lt_of_lt_of_le (Nat.lt_add_of_pos_left hne) (Nat.le_of_lt_succ hn))
      have htake := complete_append_left Piece.wire piece rest t
      refine ⟨con', ?_, hdebug, hreading, ?_, ?_⟩
      · rw [hloop, hrun, htake, Option.map_some, List.flatMap_cons]
      · rw [hactive, htake, List.all_cons, ← Bool.and_assoc]
        rfl
      · rw [htake, List.flatMap_cons, List.length_append, ← List.drop_drop, List.drop_left]
        exact hring
    · obtain ⟨future, hfuture⟩ := hcut
      have hwait := readLoop_wait (y := y) hpiece hbuf hsize hfuture (by omega) hread.1 n con
      have htake := complete_of_lt Piece.wire (Nat.lt_of_not_le hthere) rest
      rw [htake, hwait]
      exact ⟨con.readOn, rfl, rfl, rfl, (Bool.and_true _).symm, hrb⟩

/-- The connection stands for the stream: it reads unless it was closed, and holds the
bytes that were not taken. -/
def Follows (debug : Bool) (s : Framing Piece UInt8) (con : Connection) : Prop :=
  (∀ piece ∈ s.rest, piece.WellFormed) ∧ con.debug = debug ∧ con.reading = con.active ∧
    con.active = (s.taken.all fun p => !p.Closes) ∧
    RingBuffer.Holds 102400 con.recvRingBuffer (objects s.unread)

theorem follows_start (debug : Bool) {pieces : List Piece}
    (hwf : ∀ piece ∈ pieces, piece.WellFormed) : Follows debug (.new pieces) (.start debug) :=
  ⟨hwf, rfl, rfl, rfl, rfl, RingBuffer.unread_new 1 102400⟩

/-- A clear read takes the pieces that are there. -/
theorem step_follows {y : UInt8} {debug : Bool} {s : Framing Piece UInt8} {con : Connection}
    {data : List UInt8} (h : Follows debug s con) (hclear : Clear y debug s data)
    (hcut : s.unread ++ data <+: s.rest.flatMap Piece.wire) :
    ∃ s' con' os, Framing.step Piece.wire Piece.events s data = some (s', os) ∧
      step y con data = some (con', os) ∧ Follows debug s' con' := by
  obtain ⟨hwf, hdebug, hreading, hactive, hrb⟩ := h
  obtain ⟨hopen, hdata, hroom, hread⟩ := hclear
  have htrue : con.active = true := by
    rw [hactive, List.all_eq_true]
    intro piece hpiece
    rw [hopen piece hpiece, Bool.not_false]
  obtain ⟨rb, hwrite, hholds, hread0, hsome, hpeek⟩ := hrb.write_peek hdata hroom
  obtain ⟨con', hloop, hdebug', hreading', hactive', hring⟩ :=
    readLoop_complete hwf (List.drop_zero : (s.unread ++ data).drop 0 = _) (by omega) hcut
      { con with reading := false, recvRingBuffer := rb } (hdebug ▸ hread) hholds
      (Nat.lt_succ_self _)
  refine ⟨_, con', _, rfl, ?_, ?_, hdebug'.trans hdebug, hreading', ?_, hring⟩
  · rw [step, hreading, htrue, if_pos rfl, handleRead]
    simp only [Bool.false_eq_true, if_false, hwrite, Option.bind_some, Bool.not_true, hread0,
      if_neg hsome, hpeek, ofObjects_objects]
    exact hloop
  · intro piece hpiece
    exact hwf piece (List.mem_of_mem_drop hpiece)
  · rw [hactive', Framing.take, List.all_append, ← hactive]

end Connection

/-- Where each read is clear, the pieces of which all bytes have arrived were handed over,
each once and in order, whatever the cuts; nothing was read outside, and the ring buffer
holds the bytes after these pieces. Once the whole stream is there these are all pieces. -/
theorem rtsp_framing (y : UInt8) (debug : Bool) {pieces : List Piece}
    (hwf : ∀ piece ∈ pieces, piece.WellFormed) {reads : List (List UInt8)}
    (hcut : reads.flatten <+: pieces.flatMap Piece.wire)
    (hclear : RunOk (Framing.step Piece.wire Piece.events) (Clear y debug) (.new pieces) reads) :
    ∃ con events, run (Connection.step y) (.start debug) reads = some (con, events) ∧
      events = (complete Piece.wire pieces reads.flatten).flatMap Piece.events ∧
      con.recvRingBuffer.unread = objects (reads.flatten.drop
        ((complete Piece.wire pieces reads.flatten).flatMap Piece.wire).length) ∧
      (reads.flatten = pieces.flatMap Piece.wire → events = pieces.flatMap Piece.events) := by
  obtain ⟨con, hrun, -, -, -, -, hring⟩ := Framing.run_refines (Connection.Follows debug)
    (fun s con data h hok hnext => Connection.step_follows h hok hnext)
    (fun piece hpiece => Piece.wire_ne_nil (hwf piece hpiece))
    (Connection.follows_start debug hwf) hcut hclear
  refine ⟨con, _, hrun, rfl, hring.2, ?_⟩
  intro hall
  rw [hall, complete_flatMap]

instance (pos : ℕ) (bytes : List UInt8) : (piece : Piece) → Decidable (piece.ReadableAt pos bytes)
  | .request m => inferInstanceAs (Decidable (m.ReadableIn bytes))
  | .frame _ payload =>
    inferInstanceAs (Decidable (_ ∨ bytes.length < 4 + payload.length ∧ (_ ∨ _)))

instance (y : UInt8) (debug : Bool) : (piece : Piece) → Decidable (piece.Answerable y debug)
  | .request m => inferInstanceAs (Decidable (if m.message.matchMethod (text "OPTIONS") then
      (Uri.parse y m.message.filed2).isSome = true
    else debug = true → isKnown m.message = true ∨ (m.message.toText y).isSome = true))
  | .frame .. => inferInstanceAs (Decidable True)

instance Readable.decidable (y : UInt8) (debug : Bool) :
    (pos : ℕ) → (pieces : List Piece) → (bytes : List UInt8) →
      Decidable (Readable y debug pos pieces bytes)
  | _, [], _ => inferInstanceAs (Decidable True)
  | pos, piece :: rest, bytes =>
    have := Readable.decidable y debug (pos + piece.wire.length) rest
      (bytes.drop piece.wire.length)
    inferInstanceAs (Decidable (piece.ReadableAt pos bytes ∧
      (_ → piece.Answerable y debug ∧ _)))

instance (y : UInt8) (debug : Bool) (s : Framing Piece UInt8) (data : List UInt8) :
    Decidable (Clear y debug s data) :=
  inferInstanceAs (Decidable ((∀ piece ∈ s.taken, piece.Closes = false) ∧ data ≠ [] ∧ _ ∧ _))

/-- A request without a body. -/
private def optionsRequest : Sent where
  filed1 := text "OPTIONS"
  filed2 := text "*"
  filed3 := text "RTSP/1.0"
  fields := [(text "CSeq", text " 1")]
  body := []

private theorem wellFormed_frame {channel : UInt8} {payload : List UInt8}
    (h : payload.length < 2048) : (Piece.frame channel payload).WellFormed := h

private theorem optionsRequest_wellFormed : (Piece.request optionsRequest).WellFormed where
  left := {
    filed1_ne := by decide
    filed1_token := token_of_all (by decide)
    filed2_ne := by decide
    filed2_token := token_of_all (by decide)
    filed3_ne := by decide
    filed3_line := by decide
    filed3_trim := by decide
    name_ne := List.forall_mem_singleton.mpr (by decide)
    name_token := List.forall_mem_singleton.mpr ⟨by decide, token_of_all (by decide)⟩
    value_line := List.forall_mem_singleton.mpr (by decide)
    length_number := List.forall_mem_singleton.mpr fun h => absurd h (by rw [Sent.IsLength]; decide)
    length_declared := .inr rfl }
  right := by decide

/-- Two frames and a request between them, in three reads that cut the request and the
second frame. -/
theorem rtsp_framing_cut :
    ∃ con events,
      run (Connection.step 0) (.start true) [[0x24, 0, 0, 2, 7, 8, 0x4F, 0x50],
        (Piece.request optionsRequest).wire.drop 2 ++ [0x24, 1, 0], [1, 9]] = some (con, events) ∧
      events = [.binary 0 [7, 8], .request optionsRequest.message, .binary 1 [9]] := by
  have hwf : ∀ piece ∈ [.frame 0 [7, 8], .request optionsRequest, .frame 1 [9]],
      Piece.WellFormed piece := by
    simp only [List.forall_mem_cons]
    exact ⟨wellFormed_frame (by decide), optionsRequest_wellFormed, wellFormed_frame (by decide),
      List.forall_mem_nil _⟩
  have hcut : [[0x24, 0, 0, 2, 7, 8, 0x4F, 0x50],
      (Piece.request optionsRequest).wire.drop 2 ++ [0x24, 1, 0], [1, 9]].flatten <+:
      [.frame 0 [7, 8], .request optionsRequest, .frame 1 [9]].flatMap Piece.wire := by
    decide +kernel
  obtain ⟨con, events, hrun, -, -, hall⟩ := rtsp_framing 0 true hwf hcut (by decide +kernel)
  exact ⟨con, events, hrun, hall (by decide +kernel)⟩

/-- A frame behind a request, with another request after it, in one read: as many bytes are
removed with the frame as there were before it, and the second request is lost. -/
theorem rtsp_request_lost :
    ¬ ∀ pieces : List Piece, (∀ piece ∈ pieces, piece.WellFormed) → ∀ reads : List (List UInt8),
      (∀ data ∈ reads, data ≠ [] ∧ data.length ≤ 10240) →
      reads.flatten = pieces.flatMap Piece.wire →
      ∃ con, run (Connection.step 0) (.start false) reads =
        some (con, pieces.flatMap Piece.events) := by
  intro h
  have hwf : ∀ piece ∈ [.request optionsRequest, .frame 0 [7, 8], .request optionsRequest],
      Piece.WellFormed piece := by
    simp only [List.forall_mem_cons]
    exact ⟨optionsRequest_wellFormed, wellFormed_frame (by decide), optionsRequest_wellFormed,
      List.forall_mem_nil _⟩
  obtain ⟨con, hrun⟩ := h _ hwf
    [[Piece.request optionsRequest, .frame 0 [7, 8], .request optionsRequest].flatMap Piece.wire]
    (List.forall_mem_singleton.mpr (by decide +kernel)) (by simp)
  have hlost : (run (Connection.step 0) (.start false) [[Piece.request optionsRequest,
      .frame 0 [7, 8], .request optionsRequest].flatMap Piece.wire]).map (fun r => r.2.length) =
      some 2 := by
    decide +kernel
  have hthree : ([Piece.request optionsRequest, .frame 0 [7, 8], .request optionsRequest].flatMap
      Piece.events).length = 3 := by decide
  rw [hrun, Option.map_some, hthree] at hlost
  cases hlost

end CxxDeps.Rtsp
