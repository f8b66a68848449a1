import CxxDeps.Library.Run
import CxxDeps.Sctp.Effects
import CxxDeps.Sctp.Store

/-! A receiving stream and a message that never becomes complete. `next_message` waits
for the message of `next_recv_ssn_`, and nothing else moves that counter: a message
that times out is erased, and the stream goes on waiting for it. -/

namespace CxxDeps.Sctp

open Library

/-- The operations of a stream. -/
inductive StreamAct
  | insert (now : ℤ) (flags : ChunkFlags) (chunk : DataChunk)
  | nextMessage
  | clearTimeoutRecvMessages (now : ℤ)
  | resendMessages
  | processSack (sack : SackChunk)
  | send (now : ℤ) (tsn : UInt32) (data : List UInt8) (ppid : Ppid)
  | close (tsn : UInt32)
  deriving DecidableEq, Repr

namespace Stream

/-- One operation, with the message that it returns. -/
def act (stream : Stream) : StreamAct → Option (Stream × List Message)
  | .insert now flags chunk => some ((stream.insert now flags chunk).1, [])
  | .nextMessage =>
    match stream.nextMessage with
    | none => some (stream, [])
    | some (msg, stream) => some (stream, [msg])
  | .clearTimeoutRecvMessages now => some (stream.clearTimeoutRecvMessages now, [])
  | .resendMessages => some (stream.resendMessages.1, [])
  | .processSack sack => some (stream.processSack sack, [])
  | .send now tsn data ppid => some ((stream.send now tsn data ppid).1, [])
  | .close tsn => some ((stream.close tsn).1, [])

/-- Message `k` is not complete. -/
def Unfinished (k : UInt16) (stream : Stream) : Prop :=
  stream.messages[k]?.all fun msg => !msg.isCompleted

instance (k : UInt16) (stream : Stream) : Decidable (stream.Unfinished k) :=
  inferInstanceAs (Decidable (_ = true))

/-- Message `j` comes after message `k`, counted from the one the stream waits for. -/
def Later (stream : Stream) (k j : UInt16) : Prop :=
  (k - stream.nextRecvSsn).toNat < (j - stream.nextRecvSsn).toNat

instance (stream : Stream) (k j : UInt16) : Decidable (stream.Later k j) :=
  inferInstanceAs (Decidable (_ < _))

/-- All the fragments of message `j` come in. -/
def Arrives (stream : Stream) (j : UInt16) (acts : List StreamAct) : Prop :=
  ∃ ppid tsn payloads, payloads ≠ [] ∧ payloads.length ≤ maxChunksPerMessage ∧
    ∀ f ∈ fragments stream.streamId j ppid tsn true payloads,
      ∃ now, StreamAct.insert now f.1 f.2 ∈ acts

/-- Message `j` is returned, if `next_message` is called often enough in the end. -/
def Returns (stream : Stream) (j : UInt16) (acts : List StreamAct) : Prop :=
  ∃ n t msgs, run act stream (acts ++ List.replicate n .nextMessage) = some (t, msgs) ∧
    j ∈ msgs.map Message.ssn

/-- The messages are returned in the order of their SSNs. -/
def InOrder (stream : Stream) (msgs : List Message) : Prop :=
  msgs.map Message.ssn =
    (List.range msgs.length).map fun i => stream.nextRecvSsn + UInt16.ofNat i

/-- Without message `k` the stream still returns the later messages, in order. -/
def MovesOn (stream : Stream) (k : UInt16) (acts : List StreamAct) : Prop :=
  (∀ j, stream.Later k j → stream.Arrives j acts → stream.Returns j acts) ∧
    ∀ t msgs, run act stream acts = some (t, msgs) → stream.InOrder msgs

/-! ### One operation -/

/-- The messages are filed under their SSNs. -/
def Sorted (stream : Stream) : Prop :=
  Filed stream.streamId (fun _ _ _ => True) stream.messages

theorem saveSentMessage_streamId (now : ℤ) (stream : Stream) (l : List Fragment) :
    (l.foldl (saveSentMessage now) stream).streamId = stream.streamId := by
  induction l generalizing stream with
  | nil => rfl
  | cons f l ih => exact ih _

theorem send_streamId (now : ℤ) (tsn : UInt32) (data : List UInt8) (ppid : Ppid)
    (stream : Stream) : (stream.send now tsn data ppid).1.streamId = stream.streamId := by
  rw [send]
  split
  · rfl
  · exact saveSentMessage_streamId now _ _

/-- What an operation does to the received messages: it returns the message that the
stream waits for, or nothing. -/
theorem act_spec {stream stream' : Stream} {a : StreamAct} {msgs : List Message}
    (hsorted : stream.Sorted) (h : stream.act a = some (stream', msgs)) :
    stream'.Sorted ∧ stream'.streamId = stream.streamId ∧
      (msgs = [] ∧ stream'.nextRecvSsn = stream.nextRecvSsn ∨
        ∃ msg, msgs = [msg] ∧ stream.messages[stream.nextRecvSsn]? = some msg ∧
          msg.isCompleted ∧ msg.ssn = stream.nextRecvSsn ∧
          stream'.nextRecvSsn = stream.nextRecvSsn + 1) := by
  cases a with
  | insert now flags chunk =>
    obtain ⟨rfl, rfl⟩ := Prod.mk.inj (Option.some.inj h)
    exact ⟨hsorted.file trivial, rfl, .inl ⟨rfl, rfl⟩⟩
  | nextMessage =>
    rw [act] at h
    split at h
    · obtain ⟨rfl, rfl⟩ := Prod.mk.inj (Option.some.inj h)
      exact ⟨hsorted, rfl, .inl ⟨rfl, rfl⟩⟩
    · next msg st hnext =>
      obtain ⟨rfl, rfl⟩ := Prod.mk.inj (Option.some.inj h)
      obtain ⟨hget, hcompleted, rfl⟩ := nextMessage_eq_some hnext
      have hssn := (hsorted.ids _ msg hget).2
      exact ⟨hsorted.erase _, rfl, .inr ⟨msg, rfl, hget, hcompleted, hssn, rfl⟩⟩
  | clearTimeoutRecvMessages now =>
    obtain ⟨rfl, rfl⟩ := Prod.mk.inj (Option.some.inj h)
    exact ⟨hsorted.filter fun msg => msg.isTimeout now stream.msgTimeout, rfl, .inl ⟨rfl, rfl⟩⟩
  | resendMessages =>
    obtain ⟨rfl, rfl⟩ := Prod.mk.inj (Option.some.inj h)
    exact ⟨hsorted, rfl, .inl ⟨rfl, rfl⟩⟩
  | processSack sack =>
    obtain ⟨rfl, rfl⟩ := Prod.mk.inj (Option.some.inj h)
    exact ⟨hsorted, rfl, .inl ⟨rfl, rfl⟩⟩
  | send now tsn data ppid =>
    obtain ⟨rfl, rfl⟩ := Prod.mk.inj (Option.some.inj h)
    have hsame := stream.send_inbox now tsn data ppid
    have hid := stream.send_streamId now tsn data ppid
    refine ⟨?_, hid, .inl ⟨rfl, hsame.nextRecvSsn⟩⟩
    rw [Sorted, hid, hsame.messages]
    exact hsorted
  | close tsn =>
    obtain ⟨rfl, rfl⟩ := Prod.mk.inj (Option.some.inj h)
    exact ⟨hsorted, rfl, .inl ⟨rfl, rfl⟩⟩

/-! ### Runs -/

/-- The stream has returned `out` since it was at `start`, in order. -/
structure Returned (start stream : Stream) (out : List Message) : Prop where
  sorted : stream.Sorted
  streamId : stream.streamId = start.streamId
  next : stream.nextRecvSsn = start.nextRecvSsn + UInt16.ofNat out.length
  ssns : start.InOrder out

theorem Returned.step {start stream stream' : Stream} {a : StreamAct} {out msgs : List Message}
    (h : Returned start stream out) (ha : stream.act a = some (stream', msgs)) :
    Returned start stream' (out ++ msgs) := by
  obtain ⟨hsorted, hid, ⟨rfl, hnext⟩ | ⟨msg, rfl, -, -, hssn, hnext⟩⟩ := act_spec h.sorted ha
  · exact ⟨hsorted, hid.trans h.streamId, by rw [List.append_nil, hnext, h.next],
      by rw [List.append_nil]; exact h.ssns⟩
  · refine ⟨hsorted, hid.trans h.streamId, ?_, ?_⟩
    · rw [hnext, h.next, List.length_append, List.length_singleton, UInt16.ofNat_add,
        UInt16.add_assoc]
      rfl
    · rw [InOrder, List.map_append, h.ssns, List.length_append, List.length_singleton,
        List.range_succ, List.map_append, List.map_singleton, List.map_singleton, hssn, h.next]

theorem returned_run {start stream : Stream} {acts : List StreamAct} {msgs : List Message}
    (hsorted : start.Sorted) (h : run act start acts = some (stream, msgs)) :
    Returned start stream msgs :=
  run_relation (Returned start) (fun _ _ _ _ _ h ha => h.step ha) []
    ⟨hsorted, rfl, by simp, rfl⟩ h

/-- As long as message `k` is not complete, the stream returns at most the messages
before it. -/
theorem returned_before_lost {start stream : Stream} {k : UInt16} {acts : List StreamAct}
    {msgs : List Message} (hsorted : start.Sorted)
    (hlost : RunOk act (fun s _ => s.Unfinished k) start acts)
    (h : run act start acts = some (stream, msgs)) :
    msgs.length ≤ (k - start.nextRecvSsn).toNat := by
  have hinv := RunOk.invariant
    (fun s out => Returned start s out ∧ out.length ≤ (k - start.nextRecvSsn).toNat)
    (fun s out a s' o hs hk ha => ⟨hs.1.step ha, ?_⟩) [] hlost
    ⟨⟨hsorted, rfl, by simp, rfl⟩, by simp⟩ h
  · exact hinv.2
  · obtain ⟨hret, hle⟩ := hs
    obtain ⟨-, -, ⟨rfl, -⟩ | ⟨msg, rfl, hget, hcompleted, -, -⟩⟩ := act_spec hret.sorted ha
    · rwa [List.append_nil]
    · -- the message that is returned is complete, so it is not message `k`
      have hne : out.length ≠ (k - start.nextRecvSsn).toNat := by
        intro heq
        have hwait : s.nextRecvSsn = k := by
          rw [hret.next, heq, UInt16.ofNat_toNat]
          grind
        rw [hwait] at hget
        rw [Unfinished, hget, Option.all_some, hcompleted] at hk
        cases hk
      rw [List.length_append, List.length_singleton]
      omega

theorem Unfinished.nextMessage {k : UInt16} {stream stream' : Stream} {msgs : List Message}
    (h : stream.Unfinished k) (ha : stream.act .nextMessage = some (stream', msgs)) :
    stream'.Unfinished k := by
  rw [act] at ha
  split at ha
  · obtain ⟨rfl, -⟩ := Prod.mk.inj (Option.some.inj ha)
    exact h
  · next msg st hnext =>
    obtain ⟨rfl, -⟩ := Prod.mk.inj (Option.some.inj ha)
    obtain ⟨-, -, rfl⟩ := nextMessage_eq_some hnext
    rw [Unfinished] at h ⊢
    rw [Std.ExtTreeMap.getElem?_erase]
    split
    · rfl
    · exact h

/-- Calling `next_message` does not complete a message. -/
theorem unfinished_calls {k : UInt16} {stream : Stream} (h : stream.Unfinished k) (n : ℕ) :
    RunOk act (fun s _ => s.Unfinished k) stream (List.replicate n .nextMessage) := by
  induction n generalizing stream with
  | zero => exact runOk_nil stream
  | succ n ih => exact ⟨h, fun r hr => ih (h.nextMessage hr)⟩

/-- A later message is not returned, however often `next_message` is called. -/
theorem not_returns {start stream : Stream} {k j : UInt16} {acts : List StreamAct}
    {msgs : List Message} (hsorted : start.Sorted) (h : run act start acts = some (stream, msgs))
    (hlost : RunOk act (fun s _ => s.Unfinished k) start acts) (hend : stream.Unfinished k)
    (hlater : start.Later k j) : ¬ start.Returns j acts := by
  rintro ⟨n, t, out, hrun, hj⟩
  have hle := returned_before_lost hsorted (hlost.append h (unfinished_calls hend n)) hrun
  rw [(returned_run hsorted hrun).ssns] at hj
  obtain ⟨i, hi, rfl⟩ := List.mem_map.mp hj
  rw [List.mem_range] at hi
  rw [Later] at hlater
  have hk := (k - start.nextRecvSsn).toNat_lt
  have hdist : start.nextRecvSsn + UInt16.ofNat i - start.nextRecvSsn = UInt16.ofNat i := by grind
  rw [hdist, UInt16.toNat_ofNat'] at hlater
  omega

theorem sorted_new (sid : UInt16) (initTsn : UInt32) : Sorted { streamId := sid, initTsn } :=
  filed_empty

/-- Whether or not the lost message has timed out, the stream moves on only if no later
message comes in. -/
theorem moves_on_iff {sid : UInt16} {initTsn : UInt32} {pre post : List StreamAct} {now : ℤ}
    {k : UInt16} {s t : Stream} {out out' : List Message}
    (hpre : run act { streamId := sid, initTsn } pre = some (s, out))
    (hpost : run act (s.clearTimeoutRecvMessages now) post = some (t, out'))
    (hlost : RunOk act (fun s _ => s.Unfinished k) { streamId := sid, initTsn }
      (pre ++ .clearTimeoutRecvMessages now :: post))
    (hend : t.Unfinished k) :
    (s.clearTimeoutRecvMessages now).MovesOn k post ↔
      ∀ j, (s.clearTimeoutRecvMessages now).Later k j →
        ¬ (s.clearTimeoutRecvMessages now).Arrives j post := by
  have hs := returned_run (sorted_new sid initTsn) hpre
  have hclear : (s.clearTimeoutRecvMessages now).Sorted :=
    hs.sorted.filter fun msg => msg.isTimeout now s.msgTimeout
  have hlost' : RunOk act (fun s _ => s.Unfinished k) (s.clearTimeoutRecvMessages now) post :=
    (hlost.append_right hpre).2 (s.clearTimeoutRecvMessages now, []) rfl
  constructor
  · intro h j hlater harrives
    exact not_returns hclear hpost hlost' hend hlater (h.1 j hlater harrives)
  · intro h
    exact ⟨fun j hlater harrives => absurd harrives (h j hlater),
      fun t msgs hrun => (returned_run hclear hrun).ssns⟩

/-- A stream that got the first fragment of message 0, which then timed out. -/
private def afterTimeout : Stream :=
  clearTimeoutRecvMessages 5000
    (insert 0 flagsBegin ⟨100, 1, 0, Ppid.binary, [1]⟩ { streamId := 1, initTsn := 100 }).1

private def partOfFirst : StreamAct := .insert 0 flagsBegin ⟨100, 1, 0, Ppid.binary, [1]⟩

/-- The whole of message 1. -/
private def wholeSecond : StreamAct :=
  .insert 6000 (flagsBegin ||| flagsEnd) ⟨102, 1, 1, Ppid.binary, [2]⟩

theorem moves_on_iff_second :
    afterTimeout.MovesOn 0 [wholeSecond] ↔
      ∀ j, afterTimeout.Later 0 j → ¬ afterTimeout.Arrives j [wholeSecond] :=
  @moves_on_iff 1 100 [partOfFirst] [wholeSecond] 5000 0 _ _ _ _ rfl rfl (by decide) (by decide)

/-- Message 0 has timed out and is still waited for, so message 1 is not returned. -/
theorem wedged_by_lost_message :
    ¬ ∀ sid initTsn pre post now k s t out out',
      run act { streamId := sid, initTsn } pre = some (s, out) →
      (s.messages[k]?.all fun msg => msg.isTimeout now s.msgTimeout) = true →
      run act (s.clearTimeoutRecvMessages now) post = some (t, out') →
      RunOk act (fun s _ => s.Unfinished k) { streamId := sid, initTsn }
        (pre ++ .clearTimeoutRecvMessages now :: post) →
      t.Unfinished k → (s.clearTimeoutRecvMessages now).MovesOn k post := by
  intro h
  have hmoves : afterTimeout.MovesOn 0 [wholeSecond] :=
    h 1 100 [partOfFirst] [wholeSecond] 5000 0 _ _ _ _ rfl (by decide) rfl (by decide) (by decide)
  have harrives : afterTimeout.Arrives 1 [wholeSecond] := by
    refine ⟨Ppid.binary, 102, [[2]], by simp, by decide, fun f hf => ⟨6000, ?_⟩⟩
    have heq : f = (flagsBegin ||| flagsEnd, ⟨102, 1, 1, Ppid.binary, [2]⟩) :=
      List.mem_singleton.mp hf
    exact heq ▸ List.mem_singleton_self _
  have hrun : run act { streamId := 1, initTsn := 100 }
      [partOfFirst, .clearTimeoutRecvMessages 5000] = some (afterTimeout, []) := rfl
  have hsorted : afterTimeout.Sorted := (returned_run (sorted_new 1 100) hrun).sorted
  have hnot : ¬ afterTimeout.Returns 1 [wholeSecond] :=
    not_returns (k := 0) hsorted rfl (by decide) (by decide) (by decide)
  exact hnot (hmoves.1 1 (by decide) harrives)

end Stream

end CxxDeps.Sctp
