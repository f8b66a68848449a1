import CxxDeps.Library.Run
import CxxDeps.Sctp.Store

/-! The sending half of a stream. Whatever is acknowledged or sent again in between,
the chunks that a stream emits are the fragments of the messages it accepted, and
message number `k` goes out under SSN `k`. -/

namespace CxxDeps.Sctp

open Library

/-! ### Splitting a message -/

theorem splitLoop_flatten {size : ℕ} (hsize : 0 < size) :
    ∀ {n : ℕ} {data : List UInt8}, data.length ≤ n → (splitLoop size n data).flatten = data
  | 0, data, h => by
    rw [List.eq_nil_of_length_eq_zero (Nat.le_zero.mp h)]
    rfl
  | n + 1, [], _ => rfl
  | n + 1, b :: bs, h => by
    have hdrop : ((b :: bs).drop size).length ≤ n := by
      simp only [List.length_drop, List.length_cons] at h ⊢
      omega
    rw [splitLoop, List.flatten_cons, splitLoop_flatten hsize hdrop, List.take_append_drop]

theorem splitLoop_length_le_iff {size : ℕ} (hsize : 0 < size) :
    ∀ {n m : ℕ} {data : List UInt8}, data.length ≤ n →
      ((splitLoop size n data).length ≤ m ↔ data.length ≤ size * m)
  | 0, m, data, h => by
    rw [List.eq_nil_of_length_eq_zero (Nat.le_zero.mp h)]
    simp [splitLoop]
  | n + 1, m, [], _ => by simp [splitLoop]
  | n + 1, 0, b :: bs, _ => by simp [splitLoop]
  | n + 1, m + 1, b :: bs, h => by
    have hdrop : ((b :: bs).drop size).length ≤ n := by
      simp only [List.length_drop, List.length_cons] at h ⊢
      omega
    rw [splitLoop, List.length_cons, Nat.add_le_add_iff_right,
      splitLoop_length_le_iff hsize hdrop, List.length_drop, Nat.mul_succ]
    omega

/-- Chunk `i` of a split. -/
theorem getElem?_splitLoop {size : ℕ} (hsize : 0 < size) {n i : ℕ} {data : List UInt8}
    (hn : data.length ≤ n) (hi : size * i < data.length) :
    (splitLoop size n data)[i]? = some ((data.drop (size * i)).take size) := by
  induction n generalizing i data with
  | zero => omega
  | succ n ih =>
    cases data with
    | nil => simp at hi
    | cons b bs =>
      cases i with
      | zero => simp [splitLoop]
      | succ i =>
        have hdrop : ((b :: bs).drop size).length ≤ n := by
          simp only [List.length_drop, List.length_cons] at hn ⊢
          omega
        rw [splitLoop, List.getElem?_cons_succ, ih hdrop, List.drop_drop, Nat.mul_succ,
          Nat.add_comm]
        rw [List.length_drop]
        rw [Nat.mul_succ] at hi
        omega

theorem payloads_flatten (data : List UInt8) : (payloads data).flatten = data := by
  rw [payloads]
  split
  · simp
  · exact splitLoop_flatten (by decide) le_rfl

theorem payloads_length_pos (data : List UInt8) : 0 < (payloads data).length := by
  rw [payloads]
  split
  · exact Nat.one_pos
  · next h =>
    apply List.length_pos_iff.mpr
    intro hnil
    have hflat : (splitData data).flatten = data := splitLoop_flatten (by decide) le_rfl
    rw [hnil] at hflat
    simp [← hflat, fragmentSize] at h

/-- A message of `m` fragments has at most `1200 * m` bytes. -/
theorem payloads_length_le_iff {m : ℕ} (hm : 0 < m) (data : List UInt8) :
    (payloads data).length ≤ m ↔ data.length ≤ 1200 * m := by
  rw [payloads]
  split
  · next h =>
    simp only [fragmentSize] at h
    simp only [List.length_singleton]
    constructor <;> intro _ <;> omega
  · exact splitLoop_length_le_iff (by decide) le_rfl

/-- Fragment `i` of a message. -/
theorem getElem?_fragments (sid ssn : UInt16) (ppid : Ppid) (tsn : UInt32) (first : Bool)
    (parts : List (List UInt8)) (i : ℕ) :
    (fragments sid ssn ppid tsn first parts)[i]? = parts[i]?.map fun part =>
      (fragmentFlags (first && i == 0) (i + 1 == parts.length),
        ⟨tsn + UInt32.ofNat i, sid, ssn, ppid, part⟩) := by
  induction parts generalizing tsn first i with
  | nil => rfl
  | cons part parts ih =>
    cases i with
    | zero => cases parts <;> simp [fragments]
    | succ i =>
      have htsn : tsn + 1 + UInt32.ofNat i = tsn + UInt32.ofNat (i + 1) := by
        rw [UInt32.ofNat_add, UInt32.add_assoc, UInt32.add_comm 1]
        rfl
      simp [fragments, ih, htsn]

/-! ### What a sender emits -/

/-- An accepted message, with the TSN of its first fragment. -/
structure Posted where
  tsn : UInt32
  ppid : Ppid
  data : List UInt8

/-- The chunks of message number `k` of stream `sid`. -/
def Posted.chunks (sid : UInt16) (k : ℕ) (p : Posted) : List Fragment :=
  fragments sid (UInt16.ofNat k) p.ppid p.tsn true (payloads p.data)

/-- The fragment is one of the messages posted. -/
def Piece (sid : UInt16) (plan : List Posted) (f : Fragment) : Prop :=
  ∃ (k : ℕ) (p : Posted), plan[k]? = some p ∧ f ∈ p.chunks sid k

/-- What can happen to the sending half of a stream. The TSN of a message is any,
because all streams take theirs from one counter. -/
inductive SenderAct
  | send (now : ℤ) (tsn : UInt32) (data : List UInt8) (ppid : Ppid)
  | processSack (sack : SackChunk)
  | resendMessages

/-- The message that an act posts, if it is accepted, and the chunks it emits. -/
structure Emission where
  message : Option (List UInt8) := none
  chunks : List Fragment

def Stream.emit (stream : Stream) : SenderAct → Option (Stream × List Emission)
  | .send now tsn data ppid =>
    let r := stream.send now tsn data ppid
    some (r.1, [{ message := if r.2.2.2 then some data else none, chunks := r.2.2.1 }])
  | .processSack sack => some (stream.processSack sack, [])
  | .resendMessages => some (stream.resendMessages.1, [{ chunks := stream.resendMessages.2 }])

/-- The messages accepted. -/
def accepted (es : List Emission) : List (List UInt8) := es.filterMap Emission.message

/-- The chunks emitted. -/
def emitted (es : List Emission) : List Fragment := es.flatMap Emission.chunks

/-- The emissions so far are the messages of a plan: those accepted, and no fragment
but theirs. The stream holds only fragments of the plan to send again. -/
structure Follows (sid : UInt16) (plan : List Posted) (stream : Stream) (es : List Emission) :
    Prop where
  id : stream.streamId = sid
  next : stream.nextSendSsn = UInt16.ofNat plan.length
  sent : Filed sid (fun _ _ block => Piece sid plan block.fragment) stream.sentMessages
  accepted : accepted es = plan.map Posted.data
  sound : ∀ f ∈ emitted es, Piece sid plan f
  complete : ∀ f, Piece sid plan f → f ∈ emitted es

theorem Piece.mono {sid : UInt16} {plan : List Posted} {f : Fragment} (p : Posted)
    (h : Piece sid plan f) : Piece sid (plan ++ [p]) f := by
  obtain ⟨k, q, hq, hf⟩ := h
  refine ⟨k, q, ?_, hf⟩
  rw [List.getElem?_append_left (List.getElem?_eq_some_iff.mp hq).1, hq]

/-- A fragment of a longer plan is of the plan, or of the message added. -/
theorem piece_append {sid : UInt16} {plan : List Posted} {p : Posted} {f : Fragment} :
    Piece sid (plan ++ [p]) f ↔ Piece sid plan f ∨ f ∈ p.chunks sid plan.length := by
  constructor
  · rintro ⟨k, q, hq, hf⟩
    by_cases hk : k < plan.length
    · rw [List.getElem?_append_left hk] at hq
      exact .inl ⟨k, q, hq, hf⟩
    · rw [List.getElem?_append_right (by omega)] at hq
      obtain ⟨hlt, rfl⟩ := List.getElem?_eq_some_iff.mp hq
      have hk' : k = plan.length := by
        simp only [List.length_singleton] at hlt
        omega
      subst hk'
      simp only [Nat.sub_self, List.getElem_cons_zero] at hf
      exact .inr hf
  · rintro (h | h)
    · exact h.mono p
    · exact ⟨plan.length, p, by simp, h⟩

/-- The flags of a fragment are all that a block keeps of them. -/
theorem fragment_ofChunk (first last : Bool) (chunk : DataChunk) :
    (Block.ofChunk (fragmentFlags first last) chunk).fragment =
      (fragmentFlags first last, chunk) := by
  cases first <;> cases last <;> rfl

theorem isBegin_ofChunk (first last : Bool) (chunk : DataChunk) :
    (Block.ofChunk (fragmentFlags first last) chunk).isBegin = first := by
  cases first <;> cases last <;> rfl

theorem isEnd_ofChunk (first last : Bool) (chunk : DataChunk) :
    (Block.ofChunk (fragmentFlags first last) chunk).isEnd = last := by
  cases first <;> cases last <;> rfl

theorem flags_of_mem_fragments {sid ssn : UInt16} {ppid : Ppid} {tsn : UInt32} {first : Bool}
    {parts : List (List UInt8)} {f : Fragment} (h : f ∈ fragments sid ssn ppid tsn first parts) :
    ∃ a b, f.1 = fragmentFlags a b := by
  obtain ⟨i, hi⟩ := List.mem_iff_getElem?.mp h
  rw [getElem?_fragments] at hi
  obtain ⟨part, -, rfl⟩ := Option.map_eq_some_iff.mp hi
  exact ⟨_, _, rfl⟩

/-- Filing the chunks of a message keeps the stream to the plan. -/
theorem foldl_save {sid : UInt16} {plan : List Posted} (now : ℤ) {chunks : List Fragment}
    (hc : ∀ f ∈ chunks, Piece sid plan f) {stream : Stream} (hid : stream.streamId = sid)
    (h : Filed sid (fun _ _ block => Piece sid plan block.fragment) stream.sentMessages) :
    let s := chunks.foldl (Stream.saveSentMessage now) stream
    s.streamId = sid ∧ s.nextSendSsn = stream.nextSendSsn ∧
      Filed sid (fun _ _ block => Piece sid plan block.fragment) s.sentMessages := by
  induction chunks generalizing stream with
  | nil => exact ⟨hid, rfl, h⟩
  | cons f chunks ih =>
    obtain ⟨hf, hc⟩ := List.forall_mem_cons.mp hc
    have hid' : (stream.saveSentMessage now f).streamId = sid := hid
    refine ih hc hid' ?_
    subst hid
    refine h.file ?_
    obtain ⟨k, p, hp, hmem⟩ := hf
    obtain ⟨a, b, hflags⟩ := flags_of_mem_fragments hmem
    rw [hflags, fragment_ofChunk, ← hflags]
    exact ⟨k, p, hp, hmem⟩

/-- Every act extends the plan by the message it posts, if any. -/
theorem Follows.step {sid : UInt16} {plan : List Posted} {stream stream' : Stream}
    {es es' : List Emission} {a : SenderAct} (h : Follows sid plan stream es)
    (ha : stream.emit a = some (stream', es')) :
    ∃ plan', Follows sid plan' stream' (es ++ es') := by
  cases a with
  | send now tsn data ppid =>
    obtain ⟨rfl, rfl⟩ := Prod.mk.inj (Option.some.inj ha)
    rw [Stream.send]
    split
    · refine ⟨plan, h.id, h.next, h.sent, ?_, ?_, ?_⟩
      · simpa [Sctp.accepted] using h.accepted
      · simpa [emitted] using h.sound
      · simpa [emitted] using h.complete
    · set p : Posted := ⟨tsn, ppid, data⟩
      have hchunks : fragments stream.streamId stream.nextSendSsn ppid tsn true (payloads data) =
          p.chunks sid plan.length := by
        rw [h.id, h.next]
        rfl
      have hpiece : ∀ f ∈ p.chunks sid plan.length, Piece sid (plan ++ [p]) f :=
        fun f hf => piece_append.mpr (.inr hf)
      have hsent : Filed sid (fun _ _ block => Piece sid (plan ++ [p]) block.fragment)
          stream.sentMessages :=
        ⟨h.sent.ids, fun ssn msg hm tsn block hb => (h.sent.blocks ssn msg hm tsn block hb).mono p⟩
      have hid' : { stream with nextSendSsn := stream.nextSendSsn + 1 }.streamId = sid := h.id
      obtain ⟨hid, hnext, hfiled⟩ := foldl_save now hpiece hid' hsent
      rw [hchunks]
      refine ⟨plan ++ [p], hid, ?_, hfiled, ?_, ?_, ?_⟩
      · rw [hnext, List.length_append, UInt16.ofNat_add]
        exact congrArg (· + 1) h.next
      · simp [Sctp.accepted, ← h.accepted, p]
      · intro f hf
        simp only [emitted, List.flatMap_append, List.mem_append] at hf
        rcases hf with hf | hf
        · exact (h.sound f hf).mono p
        · exact hpiece f (by simpa using hf)
      · intro f hf
        simp only [emitted, List.flatMap_append, List.mem_append]
        rcases piece_append.mp hf with hf | hf
        · exact .inl (h.complete f hf)
        · exact .inr (by simpa using hf)
  | processSack sack =>
    obtain ⟨rfl, rfl⟩ := Prod.mk.inj (Option.some.inj ha)
    rw [List.append_nil]
    refine ⟨plan, h.id, h.next, h.sent.keepBlocks ?_, h.accepted, h.sound, h.complete⟩
    intro ssn tsn block block' hP hkeep
    split at hkeep
    · cases hkeep
    · exact Option.some.inj hkeep ▸ hP
  | resendMessages =>
    obtain ⟨rfl, rfl⟩ := Prod.mk.inj (Option.some.inj ha)
    refine ⟨plan, h.id, h.next, h.sent.keepBlocks ?_, ?_, ?_, ?_⟩
    · intro ssn tsn block block' hP hkeep
      rw [Block.resent] at hkeep
      split at hkeep
      · cases hkeep
      · exact Option.some.inj hkeep ▸ hP
    · simpa [Sctp.accepted] using h.accepted
    · intro f hf
      simp only [emitted, List.flatMap_append, List.mem_append] at hf
      rcases hf with hf | hf
      · exact h.sound f hf
      · simp only [List.flatMap_cons, List.flatMap_nil, List.append_nil] at hf
        obtain ⟨entry, hentry, hf⟩ := List.mem_flatMap.mp hf
        obtain ⟨block, hblock, rfl⟩ := List.mem_map.mp hf
        exact h.sent.blocks _ _ (Std.ExtTreeMap.mem_toList_iff_getElem?_eq_some.mp hentry) _ _
          (Std.ExtTreeMap.mem_toList_iff_getElem?_eq_some.mp hblock)
    · intro f hf
      simp only [emitted, List.flatMap_append, List.mem_append]
      exact .inl (h.complete f hf)

/-- Whatever happens to the sending half of a new stream, its emissions follow a
plan. -/
theorem exists_plan {sid : UInt16} {initTsn : UInt32} {as : List SenderAct} {stream : Stream}
    {es : List Emission}
    (h : run Stream.emit { streamId := sid, initTsn } as = some (stream, es)) :
    ∃ plan, Follows sid plan stream es := by
  refine run_relation (fun stream es => ∃ plan, Follows sid plan stream es) ?_ [] ?_ h
  · rintro s out a s' o ⟨plan, hplan⟩ ha
    exact hplan.step ha
  · exact ⟨[], rfl, rfl, filed_empty, rfl, nofun, fun f ⟨k, p, hp, _⟩ => by simp at hp⟩

end CxxDeps.Sctp
