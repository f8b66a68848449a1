import CxxDeps.Sctp.Handlers

/-! Which messages the operations of an association acknowledge: those that a DATA
chunk makes ready, and when the timer fires, the first message of every stream. -/

namespace CxxDeps.Sctp

open Library

/-- The event is no SACK, or the SACK of one of the messages. -/
def Vouched (msgs : List Message) (e : Event) : Prop :=
  ∀ data, e = .sendData data → ∃ chunk : Chunk, chunk.type.Named ∧ Says chunk e ∧
    (chunk.type = .sack → ∃ msg ∈ msgs, chunk = sackChunk (sackOf msg))

/-- From `s` to `s'` no other messages than these are acknowledged. -/
def Vouches (msgs : List Message) (s s' : Association) : Prop :=
  ∃ es, s'.events = s.events ++ es ∧ ∀ e ∈ es, Vouched msgs e

section

variable {msgs : List Message} {s s' s'' : Association}

theorem vouches_of_events (h : s'.events = s.events) : Vouches msgs s s' :=
  ⟨[], by simp [h], by simp⟩

theorem Vouches.refl (s : Association) : Vouches msgs s s := vouches_of_events rfl

theorem Vouches.trans (h : Vouches msgs s s') (h' : Vouches msgs s' s'') : Vouches msgs s s'' := by
  obtain ⟨es, hes, hv⟩ := h
  obtain ⟨es', hes', hv'⟩ := h'
  refine ⟨es ++ es', by rw [hes', hes, List.append_assoc], fun e he => ?_⟩
  rcases List.mem_append.mp he with he | he
  · exact hv e he
  · exact hv' e he

end

theorem vouches_emit {msgs : List Message} {e : Event} (s : Association)
    (h : ∀ data, e ≠ .sendData data) : Vouches msgs s (s.emit e) := by
  refine ⟨[e], rfl, fun e' he' data hdata => ?_⟩
  rw [List.mem_singleton.mp he'] at hdata
  exact absurd hdata (h data)

/-- Whatever is done on a cause acknowledges no other messages. -/
theorem vouches_respects (cause : Option ChunkType) (msgs : List Message) :
    Respects cause msgs (Vouches msgs) where
  refl := Vouches.refl
  trans := Vouches.trans
  quiet hevents _ := vouches_of_events hevents
  say {chunk es} s ha hsaid := by
    refine ⟨es, rfl, fun e he data _ => ⟨chunk, ha.named, hsaid e he, fun hsack => ?_⟩⟩
    unfold Answers at ha
    rw [hsack] at ha
    exact ha
  tell s hpacket _ := vouches_emit s hpacket
  close _ _ _ _ := vouches_of_events rfl

namespace Association

variable {s s' : Association}

/-- What is acknowledged when a chunk is handled. -/
theorem vouches_onChunk {now : ℤ} {header : Header} {chunk : Chunk}
    (h : s.onChunk now header chunk = some s') : Vouches (s.vouchedOn now chunk) s s' := by
  refine onChunk_respects (vouches_respects _ _) (fun _ s₁ => ?_) h
  have hstate : Vouches (s.vouchedOn now chunk) s₁ (s₁.setState now .connected) :=
    vouches_of_events rfl
  exact hstate.trans (vouches_emit _ nofun)

theorem vouches_act {a : Act} (h : s.act a = some s') : Vouches (s.vouchedBy a) s s' :=
  act_respects (vouches_respects _ _) (fun _ _ _ _ => vouches_of_events rfl) h

end Association

end CxxDeps.Sctp
