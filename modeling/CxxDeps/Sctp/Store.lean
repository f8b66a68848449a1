import CxxDeps.Sctp.Stream

/-! The maps of messages of a stream, as an invariant: every message is filed under
its SSN and belongs to the stream, and every fragment meets a condition. All the
operations on these maps keep it. -/

namespace CxxDeps.Sctp

open Library

/-- The messages of stream `sid`, with a condition on the fragments under each SSN
and TSN. -/
structure Filed (sid : UInt16) (P : UInt16 → UInt32 → Block → Prop) (ms : Messages) : Prop where
  ids : ∀ (ssn : UInt16) (msg : Message), ms[ssn]? = some msg → msg.streamId = sid ∧ msg.ssn = ssn
  blocks : ∀ (ssn : UInt16) (msg : Message), ms[ssn]? = some msg →
    ∀ (tsn : UInt32) (block : Block), msg.blocks[tsn]? = some block → P ssn tsn block

variable {sid : UInt16} {P : UInt16 → UInt32 → Block → Prop} {ms : Messages}

theorem filed_empty : Filed sid P ∅ where
  ids ssn msg h := by simp at h
  blocks ssn msg h := by simp at h

theorem Filed.erase (h : Filed sid P ms) (ssn : UInt16) : Filed sid P (ms.erase ssn) := by
  have hsub : ∀ (k : UInt16) (msg : Message),
      (ms.erase ssn)[k]? = some msg → ms[k]? = some msg := by
    intro k msg hk
    rw [Std.ExtTreeMap.getElem?_erase] at hk
    split at hk
    · cases hk
    · exact hk
  exact ⟨fun k msg hk => h.ids k msg (hsub k msg hk),
    fun k msg hk => h.blocks k msg (hsub k msg hk)⟩

/-- The fragment of a chunk is in a message once the chunk was put there. -/
theorem Message.getElem?_put (now : ℤ) (flags : ChunkFlags) (chunk : DataChunk) (msg : Message)
    (tsn : UInt32) :
    (msg.put now flags chunk).blocks[tsn]? =
      if chunk.tsn = tsn ∧ chunk.tsn ∉ msg.blocks then some (Block.ofChunk flags chunk)
      else msg.blocks[tsn]? := by
  simp only [put, Std.ExtTreeMap.getElem?_insertIfNew, Std.LawfulEqCmp.compare_eq_iff_eq]

/-- Where `file` puts a chunk. -/
theorem Stream.getElem?_file (now : ℤ) (flags : ChunkFlags) (chunk : DataChunk) (stream : Stream)
    (ms : Messages) (ssn : UInt16) :
    (stream.file now flags chunk ms).1[ssn]? =
      if chunk.streamSequence = ssn then
        some ((ms[ssn]?.getD { Message.new stream.initTsn with
          streamId := stream.streamId, ssn := ssn }).insert now flags chunk).1
      else ms[ssn]? := by
  simp only [file, Std.ExtTreeMap.getElem?_insert, Std.LawfulEqCmp.compare_eq_iff_eq]
  split
  · next h => rw [h]
  · rfl

/-- The message that a chunk of the stream is put into. -/
theorem Stream.getElem?_file_self (now : ℤ) (flags : ChunkFlags) {chunk : DataChunk}
    {stream : Stream} (h : Filed stream.streamId P ms) (hid : chunk.streamId = stream.streamId) :
    (stream.file now flags chunk ms).1[chunk.streamSequence]? =
        some ((ms[chunk.streamSequence]?.getD { Message.new stream.initTsn with
          streamId := stream.streamId, ssn := chunk.streamSequence }).put now flags chunk) ∧
      (stream.file now flags chunk ms).2 = true := by
  have hinsert (msg : Message) (hm : msg.streamId = stream.streamId ∧
      msg.ssn = chunk.streamSequence) :
      msg.insert now flags chunk = (msg.put now flags chunk, true) := by
    rw [Message.insert, if_neg (by simp [hid, hm.1]), if_neg (by simp [hm.2])]
  have hget : ∀ msg, ms[chunk.streamSequence]?.getD { Message.new stream.initTsn with
      streamId := stream.streamId, ssn := chunk.streamSequence } = msg →
      msg.streamId = stream.streamId ∧ msg.ssn = chunk.streamSequence := by
    intro msg hmsg
    cases hm : ms[chunk.streamSequence]? with
    | none => rw [hm] at hmsg; exact hmsg ▸ ⟨rfl, rfl⟩
    | some m => rw [hm] at hmsg; exact hmsg ▸ h.ids _ m hm
  rw [getElem?_file, if_pos rfl, hinsert _ (hget _ rfl)]
  exact ⟨rfl, by rw [file, hinsert _ (hget _ rfl)]⟩

theorem Filed.file {now : ℤ} {flags : ChunkFlags} {chunk : DataChunk} {stream : Stream}
    (h : Filed stream.streamId P ms)
    (hP : P chunk.streamSequence chunk.tsn (Block.ofChunk flags chunk)) :
    Filed stream.streamId P (stream.file now flags chunk ms).1 := by
  -- what a message under the SSN of the chunk looks like before and after
  have hnew : ∀ msg, ms[chunk.streamSequence]?.getD { Message.new stream.initTsn with
      streamId := stream.streamId, ssn := chunk.streamSequence } = msg →
      (msg.streamId = stream.streamId ∧ msg.ssn = chunk.streamSequence) ∧
        ∀ (tsn : UInt32) (block : Block), msg.blocks[tsn]? = some block →
          P chunk.streamSequence tsn block := by
    intro msg hmsg
    cases hm : ms[chunk.streamSequence]? with
    | none =>
      rw [hm] at hmsg
      exact hmsg ▸ ⟨⟨rfl, rfl⟩, fun tsn block hb => by simp [Message.new] at hb⟩
    | some m =>
      rw [hm] at hmsg
      exact hmsg ▸ ⟨h.ids _ m hm, h.blocks _ m hm⟩
  have hinsert : ∀ msg : Message, (msg.streamId = stream.streamId ∧
      msg.ssn = chunk.streamSequence) →
      (∀ (tsn : UInt32) (block : Block), msg.blocks[tsn]? = some block →
        P chunk.streamSequence tsn block) →
      ((msg.insert now flags chunk).1.streamId = stream.streamId ∧
        (msg.insert now flags chunk).1.ssn = chunk.streamSequence) ∧
        ∀ (tsn : UInt32) (block : Block), (msg.insert now flags chunk).1.blocks[tsn]? = some block →
          P chunk.streamSequence tsn block := by
    intro msg hids hblocks
    rw [Message.insert]
    split_ifs
    · exact ⟨hids, hblocks⟩
    · exact ⟨hids, hblocks⟩
    · refine ⟨hids, fun tsn block hb => ?_⟩
      rw [Message.getElem?_put] at hb
      split_ifs at hb with hc
      · rw [← hc.1, ← Option.some.inj hb]
        exact hP
      · exact hblocks tsn block hb
  constructor
  · intro ssn msg hmsg
    rw [Stream.getElem?_file] at hmsg
    split_ifs at hmsg with hssn
    · subst hssn
      obtain rfl := Option.some.inj hmsg
      exact (hinsert _ (hnew _ rfl).1 (hnew _ rfl).2).1
    · exact h.ids ssn msg hmsg
  · intro ssn msg hmsg
    rw [Stream.getElem?_file] at hmsg
    split_ifs at hmsg with hssn
    · subst hssn
      obtain rfl := Option.some.inj hmsg
      exact (hinsert _ (hnew _ rfl).1 (hnew _ rfl).2).2
    · exact h.blocks ssn msg hmsg

/-- Fragments may be dropped or changed, as long as they keep the condition. -/
theorem Filed.keepBlocks {f : UInt32 → Block → Option Block} (h : Filed sid P ms)
    (hf : ∀ ssn tsn block block', P ssn tsn block → f tsn block = some block' →
      P ssn tsn block') :
    Filed sid P (updateAll (fun _ msg => msg.keepBlocks f) ms) := by
  have hmsg : ∀ (ssn : UInt16) (msg' : Message),
      (updateAll (fun _ msg => msg.keepBlocks f) ms)[ssn]? = some msg' →
      ∃ msg, ms[ssn]? = some msg ∧ msg' = { msg with blocks := updateAll f msg.blocks } := by
    intro ssn msg' hk
    rw [getElem?_updateAll] at hk
    obtain ⟨msg, hm, hkeep⟩ := Option.bind_eq_some_iff.mp hk
    refine ⟨msg, hm, ?_⟩
    simp only [Message.keepBlocks] at hkeep
    split at hkeep
    · cases hkeep
    · exact (Option.some.inj hkeep).symm
  constructor
  · intro ssn msg' hk
    obtain ⟨msg, hm, rfl⟩ := hmsg ssn msg' hk
    exact h.ids ssn msg hm
  · intro ssn msg' hk tsn block' hb
    obtain ⟨msg, hm, rfl⟩ := hmsg ssn msg' hk
    rw [getElem?_updateAll] at hb
    obtain ⟨block, hblock, hkeep⟩ := Option.bind_eq_some_iff.mp hb
    exact hf ssn tsn block block' (h.blocks ssn msg hm tsn block hblock) hkeep

/-- Whole messages may be dropped. -/
theorem Filed.filter (h : Filed sid P ms) (drop : Message → Bool) :
    Filed sid P (updateAll (fun _ msg => if drop msg then none else some msg) ms) := by
  have hsub : ∀ (ssn : UInt16) (msg : Message),
      (updateAll (fun _ msg => if drop msg then none else some msg) ms)[ssn]? = some msg →
        ms[ssn]? = some msg := by
    intro ssn msg hk
    rw [getElem?_updateAll] at hk
    obtain ⟨m, hm, hkeep⟩ := Option.bind_eq_some_iff.mp hk
    split at hkeep
    · cases hkeep
    · exact Option.some.inj hkeep ▸ hm
  exact ⟨fun k msg hk => h.ids k msg (hsub k msg hk),
    fun k msg hk => h.blocks k msg (hsub k msg hk)⟩

end CxxDeps.Sctp
