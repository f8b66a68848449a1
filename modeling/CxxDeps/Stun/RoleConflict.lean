import CxxDeps.Library.Run
import CxxDeps.Stun.RoundTrip
import CxxDeps.Stun.Transport

/-! Two transports that both start controlling, and the messages between them. A side
gives up its role only to a request whose tie-breaker, as `handle_stun_message` reads
it, is larger than its own. -/

namespace CxxDeps.Stun

open Library

inductive Party
  | first
  | second
  deriving DecidableEq, Repr

def Party.other : Party → Party
  | first => second
  | second => first

@[simp] theorem Party.other_other (p : Party) : p.other.other = p := by cases p <;> rfl

@[simp] theorem Party.other_ne (p : Party) : p.other ≠ p := by cases p <;> simp [other]

theorem Party.eq_other_of_ne {p q : Party} (h : p ≠ q) : p = q.other := by
  cases p <;> cases q <;> first | rfl | exact absurd rfl h

/-- A message in flight; `seen` once a copy of it has arrived. -/
structure Datagram where
  data : List UInt8
  reply : Bool
  seen : Bool := false
  deriving DecidableEq, Repr

/-- The transports, the messages toward each, and who has processed a request. -/
structure Net where
  transport : Party → Transport
  toward : Party → List Datagram
  asked : Party → Bool

/-- A side sends a request, or message `i` toward it arrives; a copy may stay. -/
inductive Move
  | request (p : Party) (localPriority : UInt32) (tid : Vector UInt8 12)
  | deliver (p : Party) (i : ℕ) (keep : Bool)
  deriving DecidableEq, Repr

def sends (outputs : List Output) : List (List UInt8) :=
  outputs.filterMap fun
    | .send data _ => some data
    | _ => none

/-- What is left toward `p` after message `i` has arrived. -/
def Net.after (net : Net) (p : Party) (i : ℕ) (d : Datagram) (keep : Bool) : List Datagram :=
  if keep then (net.toward p).set i { d with seen := true } else (net.toward p).eraseIdx i

/-- The net after message `i` toward `p`, which is `d`, has arrived. -/
def Net.arrive (H : Hash) (endpoint : Party → Endpoint) (net : Net) (p : Party) (i : ℕ)
    (keep : Bool) (d : Datagram) : Net :=
  let r := (net.transport p).handleStunMessage H d.data (endpoint p.other)
  { transport := fun q => if q = p then r.1 else net.transport q
    toward := fun q => if q = p then net.after p i d keep
      else net.toward q ++ (sends r.2).map fun data => ⟨data, true, false⟩
    asked := fun q => if q = p then net.asked q || !d.reply else net.asked q }

/-- One move; `endpoint` is where a side is seen by the other. -/
def Net.step (H : Hash) (endpoint : Party → Endpoint) (net : Net) :
    Move → Option (Net × List Empty)
  | .request p localPriority tid =>
    let r := (net.transport p).sendStunRequest H localPriority tid
    some
      ({ net with
          transport := fun q => if q = p then r.1 else net.transport q
          toward := fun q =>
            if q = p then net.toward q else net.toward q ++ [⟨r.2, false, false⟩] },
        [])
  | .deliver p i keep =>
    ((net.toward p)[i]?).map fun d => (net.arrive H endpoint p i keep d, [])

/-- Each side has processed a request, and every reply has been processed. -/
def Net.Settled (net : Net) : Prop :=
  ∀ p, net.asked p = true ∧ ∀ d ∈ net.toward p, d.reply = true → d.seen = true

/-- Both sides are controlling and nothing has been sent. -/
structure Net.Fresh (net : Net) : Prop where
  controlling : ∀ p, (net.transport p).iceRole = .controlling
  toward : ∀ p, net.toward p = []
  asked : ∀ p, net.asked p = false

/-- The requests of a side fit a datagram. -/
def Transport.Fits (tp : Transport) : Prop :=
  tp.iceUfragRemote.length + tp.iceUfragLocal.length ≤ 65000

/-- What `p` reads of the other side's tie-breaker is not larger than its own. -/
def Net.Firm (net : Net) (p : Party) : Prop :=
  ∀ v, readTieBreaker (toBe64 (net.transport p.other).tieBreaker) = some v →
    v ≤ (net.transport p).tieBreaker

/-! ### What the messages say -/

theorem length_toBe64 (x : UInt64) : (toBe64 x).length = 8 := rfl

theorem length_roleConflict :
    (ErrorCode.serialize ⟨4, roleConflict, Sys.text "Role Conflict"⟩).length = 20 := by decide

theorem length_xorMappedAddress_le (endpoint : Endpoint) (tid : Vector UInt8 12) :
    (xorMappedAddress endpoint tid).length ≤ 20 := by
  obtain ⟨address, port⟩ := endpoint
  cases address <;> simp [xorMappedAddress, List.length_zipWith]

namespace Transport

theorem attributes_stunRequest_length {tp : Transport} (h : tp.Fits) (localPriority : UInt32)
    (tid : Vector UInt8 12) :
    ((tp.stunRequest localPriority tid).attributes.flatMap Attribute.serialize).length + 32 ≤
      65535 := by
  have hpad (n : ℕ) : Attribute.padding n ≤ 3 := by
    simp only [Attribute.padding]
    split_ifs <;> omega
  have huser := hpad (tp.iceUfragRemote ++ [0x3A] ++ tp.iceUfragLocal).length
  simp only [Fits] at h
  simp only [stunRequest, List.flatMap_cons, List.flatMap_nil, List.length_append,
    Attribute.length_serialize, length_toBe64, length_toBe32, length_toBe16, List.length_nil,
    List.length_cons] at huser ⊢
  have h4 := hpad (2 + 2)
  have h4' := hpad 4
  have h8 := hpad 8
  have h0 := hpad 0
  omega

/-- A request is read as one, and claims the role of its sender. -/
theorem sendStunRequest_read {H : Hash} {tp : Transport} (h : tp.Fits) (localPriority : UInt32)
    (tid : Vector UInt8 12) :
    ∃ msg fp, Message.deserialize H (tp.sendStunRequest H localPriority tid).2 = some (msg, fp) ∧
      msg.type = Message.bindingRequest ∧
      msg.getAttribute Attribute.iceControlling =
        if tp.iceRole = .controlling then toBe64 tp.tieBreaker else [] := by
  have htype : Message.bindingRequest.toNat % 256 < 0x40 := by decide
  refine ⟨_, _, Message.deserialize_serialize _ htype
    (attributes_stunRequest_length h localPriority tid), rfl, ?_⟩
  cases hrole : tp.iceRole <;>
    simp [Message.getAttribute, Message.signed, Message.integrity, stunRequest, hrole,
      Attribute.username, Attribute.googNetworkInfo, Attribute.iceControlling,
      Attribute.iceControlled, Attribute.useCandidate, Attribute.priority,
      Attribute.messageIntegrity, Attribute.fingerprint]

/-- The replies are not requests. -/
theorem answer_read {H : Hash} {tp : Transport} {rsp : Message} {endpoint : Endpoint}
    {data : List UInt8} (hrsp : (∃ tid, rsp = roleConflictResponse tid) ∨
      ∃ tid ep, rsp = bindingResponse tid ep)
    (hdata : data ∈ sends (tp.answer H rsp endpoint).2) :
    ∃ msg fp, Message.deserialize H data = some (msg, fp) ∧ msg.type ≠ Message.bindingRequest := by
  obtain rfl : data = (rsp.serialize H tp.icePwdLocal).1 := by
    simpa [answer, sends] using hdata
  rcases hrsp with ⟨tid, rfl⟩ | ⟨tid, ep, rfl⟩
  · have htype : Message.bindingErrorResponse.toNat % 256 < 0x40 := by decide
    have hne : Message.bindingErrorResponse ≠ Message.bindingRequest := by decide
    refine ⟨_, _, Message.deserialize_serialize _ htype ?_, hne⟩
    simp only [roleConflictResponse, List.flatMap_cons, List.flatMap_nil, List.append_nil,
      Attribute.length_serialize, length_roleConflict]
    decide
  · have hlen := length_xorMappedAddress_le ep tid
    have htype : Message.bindingResponse.toNat % 256 < 0x40 := by decide
    have hne : Message.bindingResponse ≠ Message.bindingRequest := by decide
    refine ⟨_, _, Message.deserialize_serialize _ htype ?_, hne⟩
    simp only [bindingResponse, List.flatMap_cons, List.flatMap_nil, List.append_nil,
      Attribute.length_serialize, Attribute.padding]
    split_ifs <;> omega

theorem sends_answer (H : Hash) (tp : Transport) (rsp : Message) (endpoint : Endpoint) :
    ∃ data, sends (tp.answer H rsp endpoint).2 = [data] := ⟨_, rfl⟩

/-- A message is answered by at most one, which is not a request. -/
theorem handleStunMessage_sends (H : Hash) (tp : Transport) (buffer : List UInt8)
    (endpoint : Endpoint) :
    sends (tp.handleStunMessage H buffer endpoint).2 = [] ∨
      ∃ data msg fp, sends (tp.handleStunMessage H buffer endpoint).2 = [data] ∧
        Message.deserialize H data = some (msg, fp) ∧ msg.type ≠ Message.bindingRequest := by
  have hanswer (rsp : Message) (hrsp : (∃ tid, rsp = roleConflictResponse tid) ∨
      ∃ tid ep, rsp = bindingResponse tid ep) :
      ∃ data msg fp, sends (tp.answer H rsp endpoint).2 = [data] ∧
        Message.deserialize H data = some (msg, fp) ∧ msg.type ≠ Message.bindingRequest := by
    obtain ⟨data, hdata⟩ := sends_answer H tp rsp endpoint
    obtain ⟨msg, fp, hread, hne⟩ := answer_read hrsp (hdata ▸ List.mem_singleton_self data)
    exact ⟨data, msg, fp, hdata, hread, hne⟩
  unfold handleStunMessage
  split
  · exact .inl rfl
  · rename_i msg _ _
    split_ifs with hreq
    · have hsends : sends (tp.handleRequest H msg endpoint).2 =
          sends (tp.judge H msg endpoint).2 := rfl
      rw [hsends]
      unfold judge
      split
      · split_ifs
        · exact .inr (hanswer _ (.inl ⟨msg.transactionId, rfl⟩))
        · exact .inl rfl
      · exact .inr (hanswer _ (.inr ⟨msg.transactionId, endpoint, rfl⟩))
    · simp only [handleStunCompleted]
      split_ifs <;> exact .inl rfl
    · exact .inl rfl
    · exact .inl rfl

/-- Only requests are answered. -/
theorem handleStunMessage_sends_of_ne {H : Hash} {tp : Transport} {buffer : List UInt8}
    {msg : Message} {fp : UInt32} (endpoint : Endpoint)
    (hread : Message.deserialize H buffer = some (msg, fp))
    (hne : msg.type ≠ Message.bindingRequest) :
    sends (tp.handleStunMessage H buffer endpoint).2 = [] := by
  simp only [handleStunMessage, hread, if_neg hne, handleStunCompleted]
  split_ifs <;> rfl

/-- The same but for the role and what is left of the passwords. -/
def Kin (tp tp' : Transport) : Prop :=
  tp'.tieBreaker = tp.tieBreaker ∧ tp'.iceUfragRemote = tp.iceUfragRemote ∧
    tp'.iceUfragLocal = tp.iceUfragLocal

theorem Kin.trans {tp tp' tp'' : Transport} (h : tp.Kin tp') (h' : tp'.Kin tp'') :
    tp.Kin tp'' :=
  ⟨h'.1.trans h.1, h'.2.1.trans h.2.1, h'.2.2.trans h.2.2⟩

theorem Kin.fits {tp tp' : Transport} (h : tp.Kin tp') (hf : tp.Fits) : tp'.Fits := by
  simpa only [Fits, h.2.1, h.2.2] using hf

theorem handleStunMessage_kin (H : Hash) (tp : Transport) (buffer : List UInt8)
    (endpoint : Endpoint) : tp.Kin (tp.handleStunMessage H buffer endpoint).1 := by
  unfold handleStunMessage
  split
  · exact ⟨rfl, rfl, rfl⟩
  · rw [handleErrorResponse_eq]
    simp only [handleRequest, judge]
    split_ifs
    · split
      · split_ifs <;> exact ⟨rfl, rfl, rfl⟩
      · exact ⟨rfl, rfl, rfl⟩
    all_goals exact ⟨rfl, rfl, rfl⟩

/-- A controlled side stays controlled. -/
theorem handleStunMessage_controlled {H : Hash} {tp : Transport} (buffer : List UInt8)
    (endpoint : Endpoint) (h : tp.iceRole = .controlled) :
    (tp.handleStunMessage H buffer endpoint).1.iceRole = .controlled := by
  cases hread : Message.deserialize H buffer with
  | none => simpa [handleStunMessage, hread] using h
  | some r =>
    obtain ⟨hyields, hno⟩ := tp.handleStunMessage_iceRole endpoint hread
    by_cases hy : tp.Yields r.1
    · exact hyields hy
    · rw [hno hy, h]

/-- A request that claims to control is judged by its tie-breaker. -/
theorem yields_iff {tp : Transport} {msg : Message} {t : UInt64}
    (htype : msg.type = Message.bindingRequest)
    (hval : msg.getAttribute Attribute.iceControlling = toBe64 t) :
    tp.Yields msg ↔ tp.iceRole = .controlling ∧
      ¬∀ v, readTieBreaker (toBe64 t) = some v → v ≤ tp.tieBreaker := by
  have hne : toBe64 t ≠ [] := by simp [toBe64, toBe32]
  simp only [Yields, conflict, htype, hval, if_neg hne, true_and]
  by_cases hrole : tp.iceRole = .controlling
  · simp [hrole]
  · simp [hrole]

theorem not_yields_of_nil {tp : Transport} {msg : Message}
    (hval : msg.getAttribute Attribute.iceControlling = []) : ¬tp.Yields msg := by
  rintro ⟨-, v, hv, -⟩
  simp [conflict, hval] at hv

end Transport

/-! ### Runs -/

variable {H : Hash} {endpoint : Party → Endpoint}

/-- What holds of all that happens after `start`. -/
structure Net.Known (H : Hash) (start net : Net) : Prop where
  kin : ∀ p, (start.transport p).Kin (net.transport p)
  requests : ∀ p, ∀ d ∈ net.toward p, d.reply = false →
    ∃ msg fp, Message.deserialize H d.data = some (msg, fp) ∧
      msg.type = Message.bindingRequest ∧
      (msg.getAttribute Attribute.iceControlling = toBe64 (start.transport p.other).tieBreaker ∨
        msg.getAttribute Attribute.iceControlling = [] ∧
          (net.transport p.other).iceRole = .controlled)
  replies : ∀ p, ∀ d ∈ net.toward p, d.reply = true →
    ∃ msg fp, Message.deserialize H d.data = some (msg, fp) ∧
      msg.type ≠ Message.bindingRequest
  firm : ∀ p, start.Firm p → (net.transport p).iceRole = .controlling
  yielded : ∀ p, net.asked p = true → ¬start.Firm p →
    (net.transport p.other).iceRole = .controlling → (net.transport p).iceRole = .controlled

theorem Net.Fresh.known {start : Net} (h : start.Fresh) : start.Known H start where
  kin := fun _ => ⟨rfl, rfl, rfl⟩
  requests := fun p d hd => by simp [h.toward p] at hd
  replies := fun p d hd => by simp [h.toward p] at hd
  firm := fun p _ => h.controlling p
  yielded := fun p hasked => by simp [h.asked p] at hasked

theorem mem_after {net : Net} {p : Party} {i : ℕ} {d d' : Datagram} {keep : Bool}
    (hd : (net.toward p)[i]? = some d) (h : d' ∈ net.after p i d keep) :
    ∃ e ∈ net.toward p, d'.data = e.data ∧ d'.reply = e.reply := by
  cases keep with
  | false => exact ⟨d', List.mem_of_mem_eraseIdx h, rfl, rfl⟩
  | true =>
    rcases List.mem_or_eq_of_mem_set h with hmem | rfl
    · exact ⟨d', hmem, rfl, rfl⟩
    · exact ⟨d, List.mem_of_getElem? hd, rfl, rfl⟩

variable (endpoint) in
/-- What a message does to the side it arrives at. -/
theorem Net.Known.deliver {start net : Net} (h : start.Known H net) {p : Party} {d : Datagram}
    (hd : d ∈ net.toward p) :
    let tp := ((net.transport p).handleStunMessage H d.data (endpoint p.other)).1
    ((net.transport p).iceRole = .controlled → tp.iceRole = .controlled) ∧
      (d.reply = true → tp.iceRole = (net.transport p).iceRole) ∧
      (start.Firm p → tp.iceRole = (net.transport p).iceRole) ∧
      (d.reply = false → ¬start.Firm p → (net.transport p.other).iceRole = .controlling →
        tp.iceRole = .controlled) := by
  have htie := (h.kin p).1
  refine ⟨Transport.handleStunMessage_controlled _ _, fun hr => ?_, fun hfirm => ?_,
    fun hr hfirm hother => ?_⟩
  · obtain ⟨msg, fp, hread, hne⟩ := h.replies p d hd hr
    exact (Transport.handleStunMessage_iceRole _ _ hread).2 fun hy => hne hy.1
  · cases hr : d.reply with
    | true =>
      obtain ⟨msg, fp, hread, hne⟩ := h.replies p d hd hr
      exact (Transport.handleStunMessage_iceRole _ _ hread).2 fun hy => hne hy.1
    | false =>
      obtain ⟨msg, fp, hread, htype, hval⟩ := h.requests p d hd hr
      refine (Transport.handleStunMessage_iceRole _ _ hread).2 ?_
      rcases hval with hval | ⟨hval, -⟩
      · rw [Transport.yields_iff htype hval, htie]
        exact fun hy => hy.2 hfirm
      · exact Transport.not_yields_of_nil hval
  · obtain ⟨msg, fp, hread, htype, hval⟩ := h.requests p d hd hr
    rcases hval with hval | ⟨-, hcontrolled⟩
    · by_cases hrole : (net.transport p).iceRole = .controlling
      · refine (Transport.handleStunMessage_iceRole _ _ hread).1 ?_
        rw [Transport.yields_iff htype hval, htie]
        exact ⟨hrole, hfirm⟩
      · apply Transport.handleStunMessage_controlled
        cases hr' : (net.transport p).iceRole with
        | controlling => exact absurd hr' hrole
        | controlled => rfl
    · rw [hother] at hcontrolled
      cases hcontrolled

/-- Each move keeps what is known. -/
theorem Net.Known.step {start net net' : Net} {m : Move} {o : List Empty}
    (hfits : ∀ p, (start.transport p).Fits) (h : start.Known H net)
    (hs : net.step H endpoint m = some (net', o)) : start.Known H net' := by
  cases m with
  | request p localPriority tid =>
    cases hs
    obtain ⟨msg, fp, hread, htype, hval⟩ := Transport.sendStunRequest_read (H := H)
      ((h.kin p).fits (hfits p)) localPriority tid
    have hrole (q : Party) : (if q = p then
        ((net.transport p).sendStunRequest H localPriority tid).1
          else net.transport q).iceRole = (net.transport q).iceRole := by
      split_ifs with hq
      · rw [hq]
        rfl
      · rfl
    refine ⟨fun q => ?_, fun q d hd hr => ?_, fun q d hd hr => ?_, fun q hq => ?_,
      fun q hq hfirm hother => ?_⟩
    · by_cases hq : q = p
      · simp only [hq]
        exact (h.kin p).trans ⟨rfl, rfl, rfl⟩
      · simp only [if_neg hq]
        exact h.kin q
    · simp only [hrole] at hd ⊢
      split_ifs at hd with hq
      · exact h.requests q d hd hr
      · rcases List.mem_append.mp hd with hold | hnew
        · exact h.requests q d hold hr
        · rw [List.mem_singleton.mp hnew]
          have hp : q.other = p := by rw [Party.eq_other_of_ne hq, Party.other_other]
          refine ⟨msg, fp, hread, htype, ?_⟩
          rw [hval, hp, ← (h.kin p).1]
          cases (net.transport p).iceRole
          · exact .inl (if_pos rfl)
          · exact .inr ⟨if_neg (by simp), rfl⟩
    · simp only at hd
      split_ifs at hd with hq
      · exact h.replies q d hd hr
      · rcases List.mem_append.mp hd with hold | hnew
        · exact h.replies q d hold hr
        · rw [List.mem_singleton.mp hnew] at hr
          cases hr
    · rw [hrole]
      exact h.firm q hq
    · simp only [hrole] at hother ⊢
      exact h.yielded q hq hfirm hother
  | deliver p i keep =>
    simp only [Net.step] at hs
    cases hd : (net.toward p)[i]? with
    | none => simp [hd] at hs
    | some d =>
      simp only [hd, Option.map_some] at hs
      cases hs
      have hmem : d ∈ net.toward p := List.mem_of_getElem? hd
      obtain ⟨hmono, -, hfirm, hyield⟩ := h.deliver endpoint hmem
      simp only [Net.arrive]
      set tp := ((net.transport p).handleStunMessage H d.data (endpoint p.other)).1
      -- a role that has not changed for the better is controlled now if it was
      have hcontrolled (q : Party) (hq : (net.transport q).iceRole = .controlled) :
          (if q = p then tp else net.transport q).iceRole = .controlled := by
        split_ifs with hqp
        · rw [hqp] at hq
          exact hmono hq
        · exact hq
      have hcontrolling (q : Party)
          (hq : (if q = p then tp else net.transport q).iceRole = .controlling) :
          (net.transport q).iceRole = .controlling := by
        cases hr : (net.transport q).iceRole with
        | controlling => rfl
        | controlled =>
          rw [hcontrolled q hr] at hq
          cases hq
      have hsplit (q : Party) (d' : Datagram)
          (hd' : d' ∈ if q = p then net.after p i d keep else net.toward q ++
            (sends ((net.transport p).handleStunMessage H d.data (endpoint p.other)).2).map
              fun data => ⟨data, true, false⟩) :
          (∃ e ∈ net.toward q, d'.data = e.data ∧ d'.reply = e.reply) ∨
            d'.reply = true ∧ ∃ msg fp, Message.deserialize H d'.data = some (msg, fp) ∧
              msg.type ≠ Message.bindingRequest := by
        split_ifs at hd' with hqp
        · rw [hqp]
          exact .inl (mem_after hd hd')
        · rcases List.mem_append.mp hd' with hold | hnew
          · exact .inl ⟨d', hold, rfl, rfl⟩
          · obtain ⟨data, hdata, rfl⟩ := List.mem_map.mp hnew
            rcases (net.transport p).handleStunMessage_sends H d.data (endpoint p.other) with
              hnil | ⟨data', msg, fp, hsends, hread, hne⟩
            · simp [hnil] at hdata
            · rw [hsends, List.mem_singleton] at hdata
              rw [hdata]
              exact .inr ⟨rfl, msg, fp, hread, hne⟩
      refine ⟨fun q => ?_, fun q d' hd' hr => ?_, fun q d' hd' hr => ?_, fun q hq => ?_,
        fun q hq hfirm' hother => ?_⟩
      · by_cases hq : q = p
        · simp only [hq]
          exact (h.kin p).trans (Transport.handleStunMessage_kin H _ _ _)
        · simp only [if_neg hq]
          exact h.kin q
      · rcases hsplit q d' hd' with ⟨e, he, hdata, hreply⟩ | ⟨hreply, -⟩
        · obtain ⟨msg, fp, hread, htype, hval⟩ := h.requests q e he (hreply.symm.trans hr)
          refine ⟨msg, fp, hdata ▸ hread, htype, hval.imp_right fun hval => ?_⟩
          exact ⟨hval.1, hcontrolled _ hval.2⟩
        · rw [hr] at hreply
          cases hreply
      · rcases hsplit q d' hd' with ⟨e, he, hdata, hreply⟩ | ⟨-, msg, fp, hread, hne⟩
        · obtain ⟨msg, fp, hread, hne⟩ := h.replies q e he (hreply.symm.trans hr)
          exact ⟨msg, fp, hdata ▸ hread, hne⟩
        · exact ⟨msg, fp, hread, hne⟩
      · by_cases hqp : q = p
        · rw [hqp] at hq
          simp only [hqp, if_true]
          rw [hfirm hq]
          exact h.firm p hq
        · simp only [if_neg hqp]
          exact h.firm q hq
      · have hother' := hcontrolling q.other hother
        by_cases hqp : q = p
        · rw [hqp] at hfirm' hother' hq
          simp only [hqp, if_true]
          cases hr : d.reply with
          | false => exact hyield hr hfirm' hother'
          | true =>
            simp only [if_true, hr, Bool.not_true, Bool.or_false] at hq
            exact hmono (h.yielded p hq hfirm' hother')
        · simp only [if_neg hqp] at hq ⊢
          exact h.yielded q hq hfirm' hother'

theorem Net.Known.run {start net : Net} {moves : List Move} {o : List Empty}
    (hfits : ∀ p, (start.transport p).Fits) (h : start.Fresh)
    (hr : Library.run (Net.step H endpoint) start moves = some (net, o)) : start.Known H net :=
  run_invariant (fun _ _ _ _ hk hs => hk.step hfits hs) h.known hr

variable (endpoint) in
/-- A request, its arrival and the arrival of the reply, if there is one, leave nothing
in flight and the role of the side that asked as it was. -/
theorem Net.Known.exchange {start net : Net} (hfits : ∀ p, (start.transport p).Fits)
    (h : start.Known H net) (hempty : ∀ p, net.toward p = []) (p : Party) :
    ∃ moves net', Library.run (Net.step H endpoint) net moves = some (net', []) ∧
      (∀ q, net'.toward q = []) ∧ net'.asked p.other = true ∧ net'.asked p = net.asked p ∧
      (net'.transport p).iceRole = (net.transport p).iceRole := by
  have hne : p ≠ p.other := fun he => p.other_ne he.symm
  obtain ⟨n₁, h₁, hp₁, ho₁, hask₁, hrole₁⟩ : ∃ n₁,
      net.step H endpoint (.request p 0 (Vector.replicate 12 0)) = some (n₁, []) ∧
        n₁.toward p = [] ∧ (∃ data, n₁.toward p.other = [⟨data, false, false⟩]) ∧
        n₁.asked = net.asked ∧ (n₁.transport p).iceRole = (net.transport p).iceRole := by
    refine ⟨_, rfl, ?_,
      ⟨((net.transport p).sendStunRequest H 0 (Vector.replicate 12 0)).2, ?_⟩, rfl, ?_⟩
    · simp [hempty p]
    · simp [hempty p.other]
    · simp only [if_true]
      rfl
  obtain ⟨data, ho₁⟩ := ho₁
  have hk₁ := h.step hfits h₁
  obtain ⟨n₂, h₂, ho₂, hp₂, hasko₂, haskp₂, hrole₂⟩ : ∃ n₂,
      n₁.step H endpoint (.deliver p.other 0 false) = some (n₂, []) ∧ n₂.toward p.other = [] ∧
        (n₂.toward p = [] ∨ ∃ reply, n₂.toward p = [⟨reply, true, false⟩]) ∧
        n₂.asked p.other = true ∧ n₂.asked p = net.asked p ∧
        (n₂.transport p).iceRole = (net.transport p).iceRole := by
    refine ⟨n₁.arrive H endpoint p.other 0 false ⟨data, false, false⟩, by rw [Net.step, ho₁]; rfl,
      ?_, ?_, ?_, ?_, ?_⟩
    · simp [Net.arrive, Net.after, ho₁]
    · simp only [Net.arrive, if_neg hne, hp₁, List.nil_append]
      rcases (n₁.transport p.other).handleStunMessage_sends H data (endpoint p.other.other) with
        hnil | ⟨reply, msg, fp, hsends, -, -⟩
      · exact .inl (by rw [hnil]; rfl)
      · exact .inr ⟨reply, by rw [hsends]; rfl⟩
    · simp [Net.arrive]
    · simp only [Net.arrive, if_neg hne, hask₁]
    · simp only [Net.arrive, if_neg hne, hrole₁]
  have hk₂ := hk₁.step hfits h₂
  have hboth (n : Net) (hp : n.toward p = []) (ho : n.toward p.other = []) (q : Party) :
      n.toward q = [] := by
    by_cases hq : q = p
    · rwa [hq]
    · rwa [Party.eq_other_of_ne hq]
  rcases hp₂ with hp₂ | ⟨reply, hp₂⟩
  · refine ⟨[.request p 0 (Vector.replicate 12 0), .deliver p.other 0 false], n₂, ?_,
      hboth n₂ hp₂ ho₂, hasko₂, haskp₂, hrole₂⟩
    simp [run_cons, h₁, h₂]
  · have hmem : ⟨reply, true, false⟩ ∈ n₂.toward p := by rw [hp₂]; simp
    obtain ⟨msg, fp, hread, hnot⟩ := hk₂.replies p _ hmem rfl
    obtain ⟨-, hreply, -, -⟩ := hk₂.deliver endpoint hmem
    set n₃ := n₂.arrive H endpoint p 0 false ⟨reply, true, false⟩
    have h₃ : n₂.step H endpoint (.deliver p 0 false) = some (n₃, []) := by
      rw [Net.step, hp₂]
      rfl
    refine ⟨[.request p 0 (Vector.replicate 12 0), .deliver p.other 0 false, .deliver p 0 false],
      n₃, by simp [run_cons, h₁, h₂, h₃], hboth n₃ ?_ ?_, ?_, ?_, ?_⟩
    · simp [n₃, Net.arrive, Net.after, hp₂]
    · simp only [n₃, Net.arrive, if_neg p.other_ne, ho₂, List.nil_append,
        Transport.handleStunMessage_sends_of_ne _ hread hnot, List.map_nil]
    · simp only [n₃, Net.arrive, if_neg p.other_ne, hasko₂]
    · simp [n₃, Net.arrive, haskp₂]
    · simp only [n₃, Net.arrive, if_true, hreply rfl, hrole₂]

end CxxDeps.Stun
