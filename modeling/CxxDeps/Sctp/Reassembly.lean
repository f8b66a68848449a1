import CxxDeps.Sctp.Effects
import CxxDeps.Sctp.Fragmentation

/-! The receiving half of a stream. Chunks of the messages posted arrive in any order
and any number of times; the messages come out in the order posted. A message of
more than `MAX_CHUNKS_PER_MESSAGE` fragments is never complete, and stops those
behind it. -/

namespace CxxDeps.Sctp

open Library

/-! ### One message -/

/-- The fragments that a message holds are those of `p`, and `begin_tsn` is that of
its first one once that is there. -/
structure Holds (p : Posted) (msg : Message) : Prop where
  pieces : ∀ (tsn : UInt32) (block : Block), msg.blocks[tsn]? = some block →
    ∃ i, ∃ part, (payloads p.data)[i]? = some part ∧ tsn = p.tsn + UInt32.ofNat i ∧
      block.isBegin = (i == 0) ∧ block.isEnd = (i + 1 == (payloads p.data).length) ∧
      block.chunk.payload = part
  begins : ∀ (tsn : UInt32) (block : Block), msg.blocks[tsn]? = some block → block.isBegin →
    msg.beginTsn = tsn

/-- Fragments have different TSNs while they are at most `2 ^ 32`. -/
theorem tsn_injective {n i j : ℕ} {tsn : UInt32} (hn : n ≤ 2 ^ 32) (hi : i < n) (hj : j < n)
    (h : tsn + UInt32.ofNat i = tsn + UInt32.ofNat j) : i = j := by
  have h' : UInt32.ofNat i = UInt32.ofNat j := by
    have := congrArg (· - tsn) h
    simpa [UInt32.add_comm tsn] using this
  have h'' := congrArg UInt32.toNat h'
  rwa [UInt32.toNat_ofNat', UInt32.toNat_ofNat', Nat.mod_eq_of_lt (by omega),
    Nat.mod_eq_of_lt (by omega)] at h''

theorem ofNat_succ_tsn (tsn : UInt32) (i : ℕ) :
    tsn + UInt32.ofNat i + 1 = tsn + UInt32.ofNat (i + 1) := by
  rw [UInt32.ofNat_add, UInt32.add_assoc]
  rfl

/-- A message without a begin fragment is not complete. -/
theorem completedLoop_of_no_begin {blocks : Blocks}
    (h : ∀ (tsn : UInt32) (block : Block), blocks[tsn]? = some block → block.isBegin = false)
    (m : ℕ) (tsn : UInt32) : completedLoop blocks m tsn false = false := by
  induction m generalizing tsn with
  | zero => rfl
  | succ m ih =>
    rw [completedLoop]
    cases hb : blocks[tsn]? with
    | none => rfl
    | some block => simp [h tsn block hb, ih]

/-- At a begin fragment the loops need not have seen one before. -/
theorem loops_at_begin {blocks : Blocks} {tsn : UInt32} {block : Block}
    (hb : blocks[tsn]? = some block) (hbegin : block.isBegin = true) (m : ℕ) (buf : List UInt8) :
    completedLoop blocks m tsn false = completedLoop blocks m tsn true ∧
      serializeLoop blocks m tsn false buf = serializeLoop blocks m tsn true buf := by
  cases m <;> simp [completedLoop, serializeLoop, hb, hbegin]

section

variable {p : Posted} {msg : Message} (h : Holds p msg)
  (hn : (payloads p.data).length ≤ 2 ^ 32)
include h hn

/-- Fragment `i`, if its TSN is there. -/
theorem Holds.block {i : ℕ} {block : Block} (hi : i < (payloads p.data).length)
    (hb : msg.blocks[p.tsn + UInt32.ofNat i]? = some block) :
    block.isBegin = (i == 0) ∧ block.isEnd = (i + 1 == (payloads p.data).length) ∧
      (payloads p.data)[i]? = some block.chunk.payload := by
  obtain ⟨j, part, hj, htsn, hbegin, hend, hpayload⟩ := h.pieces _ block hb
  obtain rfl := tsn_injective hn hi (List.getElem?_eq_some_iff.mp hj).1 htsn
  exact ⟨hbegin, hend, hpayload ▸ hj⟩

/-- From fragment `i` on, a complete message serializes to the rest of the data. -/
theorem Holds.serialize_from {m i : ℕ} (hi : i < (payloads p.data).length)
    (hc : completedLoop msg.blocks m (p.tsn + UInt32.ofNat i) true = true) (buf : List UInt8) :
    (payloads p.data).length ≤ i + m ∧
      serializeLoop msg.blocks m (p.tsn + UInt32.ofNat i) true buf =
        some (buf ++ ((payloads p.data).drop i).flatten) := by
  induction m generalizing i buf with
  | zero => cases hc
  | succ m ih =>
    rw [completedLoop] at hc
    rw [serializeLoop]
    cases hb : msg.blocks[p.tsn + UInt32.ofNat i]? with
    | none => simp [hb] at hc
    | some block =>
      obtain ⟨-, hend, hpart⟩ := h.block hn hi hb
      have hdrop : (payloads p.data).drop i =
          block.chunk.payload :: (payloads p.data).drop (i + 1) :=
        List.drop_eq_getElem?_toList_append.trans (by rw [hpart]; rfl)
      simp only [hb, Bool.true_or, if_true] at hc ⊢
      by_cases hlast : i + 1 = (payloads p.data).length
      · -- the end fragment
        have htrue : block.isEnd = true := by simp [hend, hlast]
        rw [if_pos htrue, hdrop, List.drop_eq_nil_of_le (by omega)]
        exact ⟨by omega, by simp⟩
      · have hfalse : ¬ block.isEnd = true := by simp [hend, hlast]
        rw [if_neg hfalse] at hc ⊢
        rw [ofNat_succ_tsn] at hc ⊢
        obtain ⟨hle, hser⟩ := ih (by omega) hc (buf ++ block.chunk.payload)
        rw [hser, hdrop]
        exact ⟨by omega, by simp⟩

/-- A complete message has at most `maxChunksPerMessage` fragments and serializes to
the data posted. -/
theorem Holds.serialize_of_completed (hc : msg.isCompleted = true) :
    (payloads p.data).length ≤ maxChunksPerMessage ∧ msg.serialize = some p.data := by
  have hpos := payloads_length_pos p.data
  -- the begin fragment is there
  obtain ⟨tsn, block, hb, hbegin⟩ : ∃ (tsn : UInt32) (block : Block),
      msg.blocks[tsn]? = some block ∧ block.isBegin = true := by
    by_contra hno
    have hnone : ∀ (tsn : UInt32) (block : Block), msg.blocks[tsn]? = some block →
        block.isBegin = false := by
      intro tsn block hb
      cases hbegin : block.isBegin with
      | false => rfl
      | true => exact absurd ⟨tsn, block, hb, hbegin⟩ hno
    rw [Message.isCompleted, completedLoop_of_no_begin hnone] at hc
    cases hc
  obtain ⟨i, part, -, htsn, hzero, -⟩ := h.pieces tsn block hb
  obtain rfl : i = 0 := by simpa [hbegin] using hzero.symm
  have hfirst : msg.beginTsn = p.tsn + UInt32.ofNat 0 := (h.begins tsn block hb hbegin).trans htsn
  rw [htsn] at hb
  -- so it does not matter that the loops start before it was seen
  obtain ⟨hseen, hseen'⟩ := loops_at_begin hb hbegin maxChunksPerMessage []
  rw [Message.isCompleted, hfirst, hseen] at hc
  obtain ⟨hle, hser⟩ := h.serialize_from hn hpos hc []
  refine ⟨by omega, ?_⟩
  rw [Message.serialize, hfirst, hseen', hser, List.drop_zero, payloads_flatten, List.nil_append]

/-- A message with all its fragments, and not too many, is complete. -/
theorem Holds.completed (hmax : (payloads p.data).length ≤ maxChunksPerMessage)
    (hall : ∀ i < (payloads p.data).length, p.tsn + UInt32.ofNat i ∈ msg.blocks) :
    msg.isCompleted = true := by
  have hget {i : ℕ} (hi : i < (payloads p.data).length) :
      ∃ block, msg.blocks[p.tsn + UInt32.ofNat i]? = some block :=
    ⟨_, Std.ExtTreeMap.getElem?_eq_some_getElem (hall i hi)⟩
  have hloop (m i : ℕ) (seen : Bool) (hi : i < (payloads p.data).length)
      (hm : (payloads p.data).length ≤ i + m) (hseen : seen = true ∨ i = 0) :
      completedLoop msg.blocks m (p.tsn + UInt32.ofNat i) seen = true := by
    induction m generalizing i seen with
    | zero => omega
    | succ m ih =>
      obtain ⟨block, hb⟩ := hget hi
      obtain ⟨hbegin, hend, -⟩ := h.block hn hi hb
      have hseen' : (seen || block.isBegin) = true := by
        rcases hseen with hs | hz
        · simp [hs]
        · simp [hbegin, hz]
      rw [completedLoop, hb]
      dsimp only
      rw [hseen']
      by_cases hlast : i + 1 = (payloads p.data).length
      · simp [hend, hlast]
      · rw [if_neg (by simp [hend, hlast]), ofNat_succ_tsn]
        exact ih (i + 1) true (by omega) (by omega) (.inl rfl)
  obtain ⟨block, hb⟩ := hget (payloads_length_pos p.data)
  obtain ⟨hbegin, -⟩ := h.block hn (payloads_length_pos p.data) hb
  rw [Message.isCompleted, h.begins _ block hb (by simp [hbegin])]
  exact hloop _ 0 false (payloads_length_pos p.data) (by omega) (.inr rfl)

end

theorem holds_new (p : Posted) (sid ssn : UInt16) (initTsn : UInt32) :
    Holds p { Message.new initTsn with streamId := sid, ssn := ssn } :=
  ⟨fun tsn block hb => by simp [Message.new] at hb, fun tsn block hb => by simp [Message.new] at hb⟩

/-- Fragment `i` of a message, as a chunk and as the block it becomes. -/
theorem mem_chunks {sid : UInt16} {k : ℕ} {p : Posted} {f : Fragment} (h : f ∈ p.chunks sid k) :
    ∃ i part, (payloads p.data)[i]? = some part ∧
      f.2 = ⟨p.tsn + UInt32.ofNat i, sid, UInt16.ofNat k, p.ppid, part⟩ ∧
      (Block.ofChunk f.1 f.2).isBegin = (i == 0) ∧
      (Block.ofChunk f.1 f.2).isEnd = (i + 1 == (payloads p.data).length) := by
  obtain ⟨i, hi⟩ := List.mem_iff_getElem?.mp h
  rw [Posted.chunks, getElem?_fragments] at hi
  obtain ⟨part, hpart, rfl⟩ := Option.map_eq_some_iff.mp hi
  exact ⟨i, part, hpart, rfl, (isBegin_ofChunk _ _ _).trans (Bool.true_and _), isEnd_ofChunk _ _ _⟩

/-- A fragment of the message may be put into it. -/
theorem Holds.put {p : Posted} {msg : Message} {sid : UInt16} {k : ℕ} {f : Fragment}
    (h : Holds p msg) (hf : f ∈ p.chunks sid k) (now : ℤ) : Holds p (msg.put now f.1 f.2) := by
  obtain ⟨i, part, hpart, hchunk, hbegin, hend⟩ := mem_chunks hf
  have htsn : f.2.tsn = p.tsn + UInt32.ofNat i := by rw [hchunk]
  have hpieces : ∀ (tsn : UInt32) (block : Block), (msg.put now f.1 f.2).blocks[tsn]? = some block →
      ∃ i, ∃ part, (payloads p.data)[i]? = some part ∧ tsn = p.tsn + UInt32.ofNat i ∧
        block.isBegin = (i == 0) ∧ block.isEnd = (i + 1 == (payloads p.data).length) ∧
        block.chunk.payload = part := by
    intro tsn block hb
    rw [Message.getElem?_put] at hb
    split_ifs at hb with hc
    · obtain rfl := Option.some.inj hb
      exact ⟨i, part, hpart, hc.1.symm.trans htsn, hbegin, hend, by simp [Block.ofChunk, hchunk]⟩
    · exact h.pieces tsn block hb
  refine ⟨hpieces, fun tsn block hb hblock => ?_⟩
  have hput : (msg.put now f.1 f.2).beginTsn =
      if (Block.ofChunk f.1 f.2).isBegin then f.2.tsn else msg.beginTsn := rfl
  rw [hput]
  split_ifs with hfirst
  · -- both are the begin fragment
    obtain ⟨j, -, -, htsnj, hzero, -⟩ := hpieces tsn block hb
    obtain rfl : j = 0 := by simpa [hblock] using hzero.symm
    obtain rfl : i = 0 := by simpa [hfirst] using hbegin.symm
    rw [htsn, htsnj]
  · rw [Message.getElem?_put] at hb
    split_ifs at hb with hc
    · exact absurd (Option.some.inj hb ▸ hblock) hfirst
    · exact h.begins tsn block hb hblock

/-! ### The receiver -/

/-- The loop of the receiver: `next_message` until it has none. -/
def Stream.takeReady : ℕ → Stream → Stream × List Message
  | 0, stream => (stream, [])
  | n + 1, stream =>
    match stream.nextMessage with
    | none => (stream, [])
    | some (msg, stream) =>
      let r := takeReady n stream
      (r.1, msg :: r.2)

/-- A chunk arrives: it is inserted and the messages that are ready are delivered. -/
def Stream.arrive (stream : Stream) (a : ℤ × Fragment) :
    Option (Stream × List (Option (List UInt8))) :=
  let stream := (stream.insert a.1 a.2.1 a.2.2).1
  let r := stream.takeReady (stream.messages.size + 1)
  some (r.1, r.2.map Message.serialize)

theorem run_arrive_exists (stream : Stream) (arrivals : List (ℤ × Fragment)) :
    ∃ stream' out, run Stream.arrive stream arrivals = some (stream', out) := by
  induction arrivals generalizing stream with
  | nil => exact ⟨stream, [], rfl⟩
  | cons a arrivals ih =>
    obtain ⟨stream', out, h⟩ := ih _
    exact ⟨stream', _, run_cons_eq_some.mpr ⟨_, _, out, rfl, h, rfl⟩⟩

/-- After the chunks `seen`, the first `d` messages of the plan were delivered, and the
stream holds every other fragment seen. -/
structure Receiving (sid : UInt16) (plan : List Posted) (seen : List Fragment) (d : ℕ)
    (stream : Stream) : Prop where
  id : stream.streamId = sid
  next : stream.nextRecvSsn = UInt16.ofNat d
  small : ∀ p ∈ plan.take d, (payloads p.data).length ≤ maxChunksPerMessage
  le : d ≤ plan.length
  filed : Filed sid (fun _ _ _ => True) stream.messages
  holds : ∀ (ssn : UInt16) (msg : Message), stream.messages[ssn]? = some msg →
    ∃ (k : ℕ) (p : Posted), plan[k]? = some p ∧ ssn = UInt16.ofNat k ∧ Holds p msg
  keeps : ∀ (k : ℕ) (p : Posted), plan[k]? = some p → d ≤ k → ∀ f ∈ seen, f ∈ p.chunks sid k →
    ∃ msg, stream.messages[UInt16.ofNat k]? = some msg ∧ f.2.tsn ∈ msg.blocks

/-- SSNs do not repeat among fewer than `2 ^ 16` messages. -/
theorem ssn_injective {n j k : ℕ} (hn : n < 65536) (hj : j ≤ n) (hk : k ≤ n)
    (h : UInt16.ofNat j = UInt16.ofNat k) : j = k := by
  have := congrArg UInt16.toNat h
  rwa [UInt16.toNat_ofNat', UInt16.toNat_ofNat', Nat.mod_eq_of_lt (by omega),
    Nat.mod_eq_of_lt (by omega)] at this

section

variable {sid : UInt16} {plan : List Posted} {seen : List Fragment} {d : ℕ} {stream : Stream}
  (hplan : plan.length < 65536)
  (hcount : ∀ p ∈ plan, (payloads p.data).length ≤ 2 ^ 32)
include hplan

/-- The message under the SSN of message `k` is made of its fragments. -/
theorem Receiving.holds_at (h : Receiving sid plan seen d stream) {k : ℕ} {p : Posted}
    {msg : Message} (hp : plan[k]? = some p) (hm : stream.messages[UInt16.ofNat k]? = some msg) :
    Holds p msg := by
  obtain ⟨j, q, hq, hssn, hholds⟩ := h.holds _ msg hm
  obtain rfl := ssn_injective hplan (List.getElem?_eq_some_iff.mp hp).1.le
    (List.getElem?_eq_some_iff.mp hq).1.le hssn
  rw [hp] at hq
  exact Option.some.inj hq ▸ hholds

theorem Receiving.insert (h : Receiving sid plan seen d stream) {f : Fragment}
    (hf : Piece sid plan f) (now : ℤ) :
    Receiving sid plan (seen ++ [f]) d (stream.insert now f.1 f.2).1 := by
  obtain ⟨k, p, hp, hmem⟩ := hf
  obtain ⟨i, part, -, hchunk, -⟩ := mem_chunks hmem
  have hid := h.id
  subst hid
  have hssn : f.2.streamSequence = UInt16.ofNat k := by rw [hchunk]
  have hid' : f.2.streamId = stream.streamId := by rw [hchunk]
  obtain ⟨hself, -⟩ := Stream.getElem?_file_self now f.1 h.filed hid'
  set msg₀ := stream.messages[f.2.streamSequence]?.getD { Message.new stream.initTsn with
    streamId := stream.streamId, ssn := f.2.streamSequence } with hmsg₀
  have hother {ssn : UInt16} (hne : f.2.streamSequence ≠ ssn) :
      (stream.insert now f.1 f.2).1.messages[ssn]? = stream.messages[ssn]? := by
    rw [Stream.insert, Stream.getElem?_file, if_neg hne]
  have hholds₀ : Holds p msg₀ := by
    rw [hmsg₀]
    cases hm : stream.messages[f.2.streamSequence]? with
    | none => exact holds_new p _ _ _
    | some m => exact h.holds_at hplan hp (hssn ▸ hm)
  refine ⟨rfl, h.next, h.small, h.le, h.filed.file trivial, ?_, ?_⟩
  · intro ssn msg hm
    by_cases hs : f.2.streamSequence = ssn
    · subst hs
      rw [Stream.insert, hself] at hm
      exact ⟨k, p, hp, hssn, Option.some.inj hm ▸ hholds₀.put hmem now⟩
    · exact h.holds ssn msg (hother hs ▸ hm)
  · intro j q hq hj g hg hgmem
    by_cases hs : f.2.streamSequence = UInt16.ofNat j
    · refine ⟨msg₀.put now f.1 f.2, by rw [← hs]; exact hself, ?_⟩
      rw [← Std.ExtTreeMap.isSome_getElem?_iff_mem, Message.getElem?_put]
      split_ifs with hc
      · rfl
      · rcases List.mem_append.mp hg with hg | hg
        · -- it was there before
          obtain ⟨m, hm, hin⟩ := h.keeps j q hq hj g hg hgmem
          rw [hmsg₀, hs, hm]
          exact Std.ExtTreeMap.isSome_getElem?_iff_mem.mpr hin
        · rw [List.mem_singleton.mp hg] at hc ⊢
          have hin : f.2.tsn ∈ msg₀.blocks := by
            by_contra hnot
            exact hc ⟨rfl, hnot⟩
          exact Std.ExtTreeMap.isSome_getElem?_iff_mem.mpr hin
    · rcases List.mem_append.mp hg with hg | hg
      · rw [hother hs]
        exact h.keeps j q hq hj g hg hgmem
      · -- the chunk is of message `j`
        obtain ⟨_, _, -, hgchunk, -⟩ := mem_chunks hgmem
        rw [← List.mem_singleton.mp hg, hgchunk] at hs
        exact absurd rfl hs

include hcount

/-- The next message is the next one of the plan. -/
theorem Receiving.nextMessage (h : Receiving sid plan seen d stream) {msg : Message}
    {stream' : Stream} (hnext : stream.nextMessage = some (msg, stream')) :
    ∃ p, plan[d]? = some p ∧ msg.serialize = some p.data ∧
      Receiving sid plan seen (d + 1) stream' := by
  obtain ⟨hm, hc, rfl⟩ := Stream.nextMessage_eq_some hnext
  obtain ⟨k, p, hp, hssn, hholds⟩ := h.holds _ msg hm
  have hk := (List.getElem?_eq_some_iff.mp hp).1
  obtain rfl := ssn_injective hplan h.le hk.le (h.next.symm.trans hssn)
  obtain ⟨hsmall, hser⟩ :=
    hholds.serialize_of_completed (hcount p (List.mem_of_getElem? hp)) hc
  refine ⟨p, hp, hser, h.id, ?_, ?_, hk, h.filed.erase _, ?_, ?_⟩
  · rw [UInt16.ofNat_add]
    exact congrArg (· + 1) h.next
  · intro q hq
    rw [List.take_add_one, hp, Option.toList_some, List.mem_append, List.mem_singleton] at hq
    rcases hq with hq | rfl
    · exact h.small q hq
    · exact hsmall
  · intro ssn m hms
    rw [Std.ExtTreeMap.getElem?_erase] at hms
    split at hms
    · cases hms
    · exact h.holds ssn m hms
  · intro j q hq hj f hf hfmem
    obtain ⟨m, hmj, hin⟩ := h.keeps j q hq (by omega) f hf hfmem
    refine ⟨m, ?_, hin⟩
    rw [Std.ExtTreeMap.getElem?_erase, if_neg, hmj]
    rw [Std.LawfulEqCmp.compare_eq_iff_eq, h.next]
    intro heq
    have := ssn_injective hplan h.le (List.getElem?_eq_some_iff.mp hq).1.le heq
    omega

/-- The loop delivers the messages of the plan from `d` on. -/
theorem Receiving.takeReady (n : ℕ) (h : Receiving sid plan seen d stream) :
    ∃ d', Receiving sid plan seen d' (stream.takeReady n).1 ∧
      (plan.take d).map (some ∘ Posted.data) ++ (stream.takeReady n).2.map Message.serialize =
        (plan.take d').map (some ∘ Posted.data) := by
  induction n generalizing d stream with
  | zero => exact ⟨d, h, by simp [Stream.takeReady]⟩
  | succ n ih =>
    rw [Stream.takeReady]
    cases hnext : stream.nextMessage with
    | none => exact ⟨d, h, by simp⟩
    | some r =>
      obtain ⟨msg, stream'⟩ := r
      obtain ⟨p, hp, hser, h'⟩ := h.nextMessage hplan hcount hnext
      obtain ⟨d', hd', heq⟩ := ih h'
      refine ⟨d', hd', ?_⟩
      rw [← heq, List.take_add_one, hp]
      simp [hser]

end

/-- The loop stops when nothing is ready. -/
theorem takeReady_blocked {n : ℕ} {stream : Stream} (h : stream.messages.size < n) :
    (stream.takeReady n).1.nextMessage = none := by
  induction n generalizing stream with
  | zero => omega
  | succ n ih =>
    rw [Stream.takeReady]
    cases hnext : stream.nextMessage with
    | none => exact hnext
    | some r =>
      obtain ⟨msg, stream'⟩ := r
      obtain ⟨hm, -, rfl⟩ := Stream.nextMessage_eq_some hnext
      have hmem : stream.nextRecvSsn ∈ stream.messages :=
        Std.ExtTreeMap.isSome_getElem?_iff_mem.mp (by simp [hm])
      have hsize := Std.ExtTreeMap.size_erase (t := stream.messages) (k := stream.nextRecvSsn)
      rw [Std.ExtTreeMap.contains_iff_mem.mpr hmem, if_pos rfl] at hsize
      have hpos : stream.messages.size ≠ 0 := by
        intro h0
        have hempty := Std.ExtTreeMap.isEmpty_iff.mp
          (Std.ExtTreeMap.isEmpty_eq_size_beq_zero.trans (beq_iff_eq.mpr h0))
        rw [hempty] at hmem
        simp at hmem
      exact ih (hsize ▸ (by omega))

/-- A run of arrivals. -/
theorem Receiving.run_arrive {sid : UInt16} {plan : List Posted} (hplan : plan.length < 65536)
    (hcount : ∀ p ∈ plan, (payloads p.data).length ≤ 2 ^ 32) {arrivals : List (ℤ × Fragment)}
    (harr : ∀ a ∈ arrivals, Piece sid plan a.2) {seen : List Fragment} {d : ℕ}
    {stream stream' : Stream} {out : List (Option (List UInt8))}
    (h : Receiving sid plan seen d stream) (hidle : stream.nextMessage = none)
    (hrun : run Stream.arrive stream arrivals = some (stream', out)) :
    ∃ d', Receiving sid plan (seen ++ arrivals.map Prod.snd) d' stream' ∧
      stream'.nextMessage = none ∧
      (plan.take d).map (some ∘ Posted.data) ++ out = (plan.take d').map (some ∘ Posted.data) := by
  induction arrivals generalizing seen d stream out with
  | nil =>
    obtain ⟨rfl, rfl⟩ := Prod.mk.inj (Option.some.inj hrun)
    exact ⟨d, by simpa using h, hidle, by simp⟩
  | cons a arrivals ih =>
    obtain ⟨ha, harr⟩ := List.forall_mem_cons.mp harr
    obtain ⟨s, o, o', hstep, hrest, rfl⟩ := run_cons_eq_some.mp hrun
    obtain ⟨rfl, rfl⟩ := Prod.mk.inj (Option.some.inj hstep)
    obtain ⟨d₁, h₁, heq₁⟩ := (h.insert hplan ha a.1).takeReady hplan hcount _
    obtain ⟨d₂, h₂, hidle₂, heq₂⟩ := ih harr h₁ (takeReady_blocked (Nat.lt_succ_self _)) hrest
    refine ⟨d₂, by simpa using h₂, hidle₂, ?_⟩
    rw [← heq₂, ← heq₁, List.append_assoc]

/-- A receiver that waits, with every fragment arrived, waits at the end or at a
message with too many fragments. -/
theorem Receiving.waits {sid : UInt16} {plan : List Posted} (hplan : plan.length < 65536)
    (hcount : ∀ p ∈ plan, (payloads p.data).length ≤ 2 ^ 32) {seen : List Fragment} {d : ℕ}
    {stream : Stream} (h : Receiving sid plan seen d stream) (hidle : stream.nextMessage = none)
    (hall : ∀ f, Piece sid plan f → f ∈ seen) {p : Posted} (hp : plan[d]? = some p) :
    maxChunksPerMessage < (payloads p.data).length := by
  by_contra hle
  have hn := hcount p (List.mem_of_getElem? hp)
  -- fragment `i` of the message has arrived and is held
  have hheld : ∀ i < (payloads p.data).length,
      ∃ msg, stream.messages[UInt16.ofNat d]? = some msg ∧ p.tsn + UInt32.ofNat i ∈ msg.blocks := by
    intro i hi
    obtain ⟨f, hf⟩ : ∃ f, (p.chunks sid d)[i]? = some f := by
      rw [Posted.chunks, getElem?_fragments, List.getElem?_eq_getElem hi]
      exact ⟨_, rfl⟩
    have hmem := List.mem_of_getElem? hf
    obtain ⟨msg, hm, hin⟩ := h.keeps d p hp le_rfl f (hall f ⟨d, p, hp, hmem⟩) hmem
    rw [Posted.chunks, getElem?_fragments] at hf
    obtain ⟨part, -, rfl⟩ := Option.map_eq_some_iff.mp hf
    exact ⟨msg, hm, hin⟩
  obtain ⟨msg, hm, -⟩ := hheld 0 (payloads_length_pos p.data)
  have hcompleted := (h.holds_at hplan hp hm).completed hn (by omega) fun i hi => by
    obtain ⟨msg', hm', hin⟩ := hheld i hi
    rw [hm] at hm'
    exact Option.some.inj hm' ▸ hin
  rw [Stream.nextMessage, h.next, hm] at hidle
  simp [hcompleted] at hidle

theorem takeWhile_eq_take {α : Type*} {p : α → Bool} {l : List α} {d : ℕ} (hd : d ≤ l.length)
    (hsmall : ∀ a ∈ l.take d, p a = true) (hstop : ∀ a, l[d]? = some a → p a = false) :
    l.takeWhile p = l.take d := by
  induction l generalizing d with
  | nil => simp
  | cons a l ih =>
    cases d with
    | zero => simp [hstop a rfl]
    | succ d =>
      rw [List.take_succ_cons] at hsmall ⊢
      obtain ⟨ha, hl⟩ := List.forall_mem_cons.mp hsmall
      rw [List.takeWhile_cons, if_pos ha,
        ih (by simpa using hd) hl fun b hb => hstop b (by simpa using hb)]

/-- What a receiver has delivered, for a plan. -/
theorem delivered_of_plan {sid : UInt16} {plan : List Posted} (hplan : plan.length < 65536)
    (hsize : ∀ p ∈ plan, p.data.length ≤ 1200 * 2 ^ 32) {arrivals : List (ℤ × Fragment)}
    (harr : ∀ a ∈ arrivals, Piece sid plan a.2) {initTsn : UInt32} {stream : Stream}
    {out : List (Option (List UInt8))}
    (hrun : run Stream.arrive { streamId := sid, initTsn } arrivals = some (stream, out)) :
    out <+: (plan.map Posted.data).map some ∧
      ((∀ f, Piece sid plan f → f ∈ arrivals.map Prod.snd) →
        out = ((plan.map Posted.data).takeWhile (·.length ≤ 307200)).map some) := by
  have hcount : ∀ p ∈ plan, (payloads p.data).length ≤ 2 ^ 32 := fun p hp =>
    (payloads_length_le_iff (by decide) p.data).mpr (hsize p hp)
  have hbytes (p : Posted) :
      (payloads p.data).length ≤ maxChunksPerMessage ↔ p.data.length ≤ 307200 :=
    payloads_length_le_iff (by decide) p.data
  have h₀ : Receiving sid plan [] 0 { streamId := sid, initTsn } :=
    ⟨rfl, rfl, nofun, Nat.zero_le _, filed_empty, fun ssn msg hm => by simp at hm,
      fun _ _ _ _ f hf => by simp at hf⟩
  obtain ⟨d, h, hidle, hout⟩ := h₀.run_arrive hplan hcount harr (by simp [Stream.nextMessage]) hrun
  rw [List.take_zero, List.map_nil, List.nil_append] at hout
  rw [hout, List.map_map]
  refine ⟨(List.take_prefix d plan).map _, fun hall => ?_⟩
  have htake : (plan.map Posted.data).takeWhile (·.length ≤ 307200) =
      (plan.map Posted.data).take d := by
    apply takeWhile_eq_take (by simpa using h.le)
    · intro m hm
      rw [← List.map_take] at hm
      obtain ⟨p, hp, rfl⟩ := List.mem_map.mp hm
      exact decide_eq_true ((hbytes p).mp (h.small p hp))
    · intro m hm
      rw [List.getElem?_map] at hm
      obtain ⟨p, hp, rfl⟩ := Option.map_eq_some_iff.mp hm
      have hbig := h.waits hplan hcount hidle (fun f hf => by simpa using hall f hf) hp
      apply decide_eq_false
      rw [← hbytes p]
      omega
  rw [htake, ← List.map_take, List.map_map]

/-- The messages delivered are a prefix of those accepted, and once every chunk has
arrived, they are all those before the first of more than 307200 bytes, which is
256 fragments. -/
theorem delivered_in_order {sid : UInt16} {initTsn initTsn' : UInt32} {acts : List SenderAct}
    {sender receiver : Stream} {es : List Emission} {arrivals : List (ℤ × Fragment)}
    {out : List (Option (List UInt8))}
    (hsent : run Stream.emit { streamId := sid, initTsn } acts = some (sender, es))
    (hcount : (accepted es).length < 65536)
    (hsize : ∀ m ∈ accepted es, m.length ≤ 1200 * 2 ^ 32)
    (harr : ∀ a ∈ arrivals, a.2 ∈ emitted es)
    (hrecv : run Stream.arrive { streamId := sid, initTsn := initTsn' } arrivals =
      some (receiver, out)) :
    out <+: (accepted es).map some ∧
      ((∀ f ∈ emitted es, f ∈ arrivals.map Prod.snd) →
        out = ((accepted es).takeWhile (·.length ≤ 307200)).map some) := by
  obtain ⟨plan, hplan⟩ := exists_plan hsent
  rw [hplan.accepted] at hcount hsize ⊢
  obtain ⟨happend, hall⟩ := delivered_of_plan (by simpa using hcount)
    (fun p hp => hsize _ (List.mem_map_of_mem hp)) (fun a ha => hplan.sound _ (harr a ha)) hrecv
  exact ⟨happend, fun h => hall fun f hf => h f (hplan.complete f hf)⟩

/-- Two messages, the second of which arrives first, and again at the end. -/
theorem delivered_in_order_swapped :
    ∃ sender es receiver out,
      run Stream.emit { streamId := 3, initTsn := 5 }
        [.send 0 8 [1] .binary, .send 0 9 [2, 3] .binary] = some (sender, es) ∧
      run Stream.arrive { streamId := 3, initTsn := 8 }
        [(0, 3, ⟨9, 3, 1, .binary, [2, 3]⟩), (1, 3, ⟨8, 3, 0, .binary, [1]⟩),
          (2, 3, ⟨9, 3, 1, .binary, [2, 3]⟩)] = some (receiver, out) ∧
      out = [some [1], some [2, 3]] := by
  have hsent := Eq.symm (Option.some_get (show (run Stream.emit { streamId := 3, initTsn := 5 }
    [.send 0 8 [1] .binary, .send 0 9 [2, 3] .binary]).isSome by decide +kernel))
  have hrecv := Eq.symm (Option.some_get (show (run Stream.arrive { streamId := 3, initTsn := 8 }
    [(0, 3, ⟨9, 3, 1, .binary, [2, 3]⟩), (1, 3, ⟨8, 3, 0, .binary, [1]⟩),
      (2, 3, ⟨9, 3, 1, .binary, [2, 3]⟩)]).isSome by decide +kernel))
  obtain ⟨-, hall⟩ := delivered_in_order hsent (by decide +kernel) (by decide +kernel)
    (by decide +kernel) hrecv
  refine ⟨_, _, _, _, hsent, hrecv, ?_⟩
  rw [hall (by decide +kernel)]
  decide +kernel

/-- One message on a new stream. -/
private theorem emit_one (data : List UInt8) :
    ∃ sender es, run Stream.emit { streamId := 0, initTsn := 0 } [.send 0 0 data .binary] =
        some (sender, es) ∧ accepted es = [data] ∧
      emitted es = Posted.chunks 0 0 ⟨0, .binary, data⟩ := by
  refine ⟨_, _, rfl, ?_, ?_⟩ <;> simp [Stream.send, accepted, emitted, Posted.chunks]

/-- A message of more than 256 fragments is withheld for good. -/
private theorem long_message_withheld (data : List UInt8) (hlong : 307200 < data.length)
    (hsize : data.length ≤ 1200 * 2 ^ 32) :
    ∃ sender receiver es arrivals, run Stream.emit { streamId := 0, initTsn := 0 }
        [.send 0 0 data .binary] = some (sender, es) ∧ accepted es = [data] ∧
      (∀ f, f ∈ emitted es ↔ f ∈ arrivals.map Prod.snd) ∧
      run Stream.arrive { streamId := 0, initTsn := 0 } arrivals = some (receiver, []) := by
  set p : Posted := ⟨0, .binary, data⟩
  obtain ⟨sender, es, hsent, haccepted, hemitted⟩ := emit_one data
  have hpiece : ∀ f, Piece 0 [p] f ↔ f ∈ emitted es := by
    intro f
    rw [hemitted, ← List.nil_append [p], piece_append]
    simp [Piece, p]
  set arrivals := (emitted es).map fun f => ((0 : ℤ), f) with harrivals
  have hall : ∀ f, f ∈ emitted es ↔ f ∈ arrivals.map Prod.snd := by simp [harrivals]
  obtain ⟨receiver, out, hrecv⟩ := run_arrive_exists { streamId := 0, initTsn := 0 } arrivals
  obtain ⟨-, hdelivered⟩ := delivered_of_plan (by simp)
    (fun q hq => by rw [List.mem_singleton.mp hq]; exact hsize)
    (fun a ha => (hpiece a.2).mpr ((hall a.2).mpr (List.mem_map_of_mem ha))) hrecv
  have hnone : out = [] := by
    rw [hdelivered fun f hf => (hall f).mp ((hpiece f).mp hf)]
    have hbig : ¬ data.length ≤ 307200 := by omega
    simp [p, hbig]
  exact ⟨sender, receiver, es, arrivals, hsent, haccepted, hall, hnone ▸ hrecv⟩

/-- Of a message of `2 ^ 32 + 2` fragments the last one has the TSN of the second, so
that the first and the last make a message. -/
private theorem far_fragments_meet {n : ℕ} (hn : n = 1200 * (2 ^ 32 + 1) + 1) :
    ∃ sender receiver es arrivals, run Stream.emit { streamId := 0, initTsn := 0 }
        [.send 0 0 (List.replicate n 0) .binary] = some (sender, es) ∧
      accepted es = [List.replicate n 0] ∧ (∀ a ∈ arrivals, a.2 ∈ emitted es) ∧
      run Stream.arrive { streamId := 0, initTsn := 0 } arrivals =
        some (receiver, [some (List.replicate 1201 0)]) := by
  have hlen : (List.replicate n (0 : UInt8)).length = n := List.length_replicate
  obtain ⟨sender, es, hsent, haccepted, hemitted⟩ := emit_one (List.replicate n 0)
  have hparts : (payloads (List.replicate n 0)).length = 2 ^ 32 + 2 := by
    have hle : (payloads (List.replicate n 0)).length ≤ 2 ^ 32 + 2 := by
      rw [payloads_length_le_iff (by decide)]
      omega
    have hnot : ¬ (payloads (List.replicate n 0)).length ≤ 2 ^ 32 + 1 := by
      rw [payloads_length_le_iff (by decide)]
      omega
    omega
  have hpart {i : ℕ} (hi : 1200 * i < n) : (payloads (List.replicate n 0))[i]? =
      some (List.replicate (min 1200 (n - 1200 * i)) 0) := by
    rw [payloads, if_neg (by simp only [fragmentSize]; omega), splitData, fragmentSize,
      getElem?_splitLoop (by decide) le_rfl (by omega), List.drop_replicate, List.take_replicate]
  set first : Fragment := (flagsBegin, ⟨0, 0, 0, .binary, List.replicate 1200 0⟩) with hfirst
  set last : Fragment := (flagsEnd, ⟨1, 0, 0, .binary, List.replicate 1 0⟩) with hlast
  have hmemFirst : first ∈ emitted es := by
    rw [hemitted]
    apply List.mem_of_getElem? (i := 0)
    rw [Posted.chunks, getElem?_fragments, hpart (by omega), hparts, Nat.min_eq_left (by omega)]
    rfl
  have hmemLast : last ∈ emitted es := by
    have hone : min 1200 (n - 1200 * (2 ^ 32 + 1)) = 1 := by omega
    rw [hemitted]
    apply List.mem_of_getElem? (i := 2 ^ 32 + 1)
    rw [Posted.chunks, getElem?_fragments, hpart (by omega), hparts, hone]
    rfl
  have hout : (run Stream.arrive { streamId := 0, initTsn := 0 } [(0, first), (0, last)]).map
      Prod.snd = some [some (List.replicate 1201 0)] := by
    rw [hfirst, hlast]
    decide +kernel
  obtain ⟨⟨receiver, out⟩, hrecv, rfl⟩ := Option.map_eq_some_iff.mp hout
  exact ⟨sender, receiver, es, [(0, first), (0, last)], hsent, haccepted,
    List.forall_mem_cons.mpr ⟨hmemFirst, List.forall_mem_singleton.mpr hmemLast⟩, hrecv⟩

/-- Messages that are too long are not delivered, or not as they were sent. -/
theorem long_messages_break :
    (¬ ∀ (acts : List SenderAct) (sender receiver : Stream) (es : List Emission)
      (arrivals : List (ℤ × Fragment)) (out : List (Option (List UInt8))),
      run Stream.emit { streamId := 0, initTsn := 0 } acts = some (sender, es) →
      (accepted es).length < 65536 → (∀ a ∈ arrivals, a.2 ∈ emitted es) →
      run Stream.arrive { streamId := 0, initTsn := 0 } arrivals = some (receiver, out) →
      (∀ f ∈ emitted es, f ∈ arrivals.map Prod.snd) → out = (accepted es).map some) ∧
    ¬ ∀ (acts : List SenderAct) (sender receiver : Stream) (es : List Emission)
      (arrivals : List (ℤ × Fragment)) (out : List (Option (List UInt8))),
      run Stream.emit { streamId := 0, initTsn := 0 } acts = some (sender, es) →
      (accepted es).length < 65536 → (∀ a ∈ arrivals, a.2 ∈ emitted es) →
      run Stream.arrive { streamId := 0, initTsn := 0 } arrivals = some (receiver, out) →
      out <+: (accepted es).map some := by
  constructor
  · intro h
    have hlen : ∀ n, (List.replicate n (0 : UInt8)).length = n := fun n => List.length_replicate
    obtain ⟨sender, receiver, es, arrivals, hsent, haccepted, hall, hrecv⟩ :=
      long_message_withheld (List.replicate 307201 0) (by rw [hlen]; omega)
        (by rw [hlen]; omega)
    have hclaim := h _ sender receiver es arrivals [] hsent
      (by rw [haccepted, List.length_singleton]; omega)
      (fun a ha => (hall a.2).mpr (List.mem_map_of_mem ha)) hrecv fun f => (hall f).mp
    rw [haccepted] at hclaim
    cases hclaim
  · intro h
    obtain ⟨n, hn⟩ : ∃ n, n = 1200 * (2 ^ 32 + 1) + 1 := ⟨_, rfl⟩
    obtain ⟨sender, receiver, es, arrivals, hsent, haccepted, harr, hrecv⟩ :=
      far_fragments_meet hn
    have hclaim := h _ sender receiver es arrivals _ hsent
      (by rw [haccepted, List.length_singleton]; omega) harr hrecv
    rw [haccepted] at hclaim
    have hlengths := hclaim.map (Option.map List.length)
    simp only [List.map_cons, List.map_nil, Option.map_some, List.length_replicate] at hlengths
    have hwrong : 1201 = n := by simpa using hlengths
    omega

end CxxDeps.Sctp
