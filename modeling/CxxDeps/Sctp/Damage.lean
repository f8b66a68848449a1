import CxxDeps.Library.Crc
import CxxDeps.Library.Run
import CxxDeps.Sctp.Handlers
import CxxDeps.Sctp.Network
import CxxDeps.Sctp.RoundTrip

/-! Packets that were damaged on the way. `CRC32C` is the check with the polynomial of Castagnoli,
whose bits are those of `CRC32C_POLY` in the opposite order. -/

namespace CxxDeps.Sctp

open Library

/-- `CRC32C_POLY`, from the other end. -/
def crc32cPoly : UInt32 := 0x82F63B78

theorem isTable_crcC : Crc.IsTable crc32cPoly crcC := Crc.isTable_of_map (by decide +kernel)

theorem crc32c_eq : crc32c = Crc.byte crc32cPoly := isTable_crcC.lookup_eq

theorem toBe32_injective : Function.Injective toBe32 := by
  intro x y h
  rw [toBe32, toBe32] at h
  simp only [List.cons.injEq, and_true] at h
  obtain ⟨h₀, h₁, h₂, h₃⟩ := h
  rw [← be32_toBe32 x, ← be32_toBe32 y, h₀, h₁, h₂, h₃]

theorem byteSwap_injective : Function.Injective byteSwap := by
  intro x y h
  have hbytes := congrArg toBe32 h
  unfold byteSwap at hbytes
  rw [toBe32_be32, toBe32_be32] at hbytes
  simp only [List.cons.injEq, and_true] at hbytes
  obtain ⟨h₀, h₁, h₂, h₃⟩ := hbytes
  rw [← be32_toBe32 x, ← be32_toBe32 y, h₀, h₁, h₂, h₃]

theorem checkCrc32_ne_zero {data buf : List UInt8} (h : signCrc32 data = some buf) :
    checkCrc32 data ≠ 0 := by
  intro hzero
  rw [signCrc32, if_pos hzero, ite_self] at h
  cases h

theorem length_of_sign {data buf : List UInt8} (h : signCrc32 data = some buf) :
    12 ≤ buf.length := by
  obtain ⟨hlen, rfl⟩ := signCrc32_eq_some h
  rwa [length_field hlen (length_toBe32 _)]

/-- What the checksum is of. -/
def cleared (data : List UInt8) : List UInt8 := data.take 8 ++ [0, 0, 0, 0] ++ data.drop 12

theorem checkCrc32_eq {data : List UInt8} (h : 12 ≤ data.length) :
    checkCrc32 data = byteSwap (~~~ ((cleared data).foldl (Crc.byte crc32cPoly) (~~~ 0))) := by
  rw [checkCrc32, if_neg (by omega), crc32c_eq, cleared]

variable {data before w w' after : List UInt8}

theorem cleared_of_front (h : before.length + w.length ≤ 8) :
    cleared (before ++ w ++ after) = before ++ w ++
      (after.take (8 - (before.length + w.length)) ++ [0, 0, 0, 0] ++
        after.drop (12 - (before.length + w.length))) := by
  rw [← List.length_append] at h ⊢
  rw [cleared, List.take_append, List.drop_append, List.take_of_length_le h,
    List.drop_of_length_le (by omega), List.nil_append]
  simp only [List.append_assoc]

theorem cleared_of_back (h : 12 ≤ before.length) :
    cleared (before ++ w ++ after) =
      before.take 8 ++ [0, 0, 0, 0] ++ before.drop 12 ++ w ++ after := by
  rw [cleared, List.append_assoc before, List.take_append_of_le_length (by omega),
    List.drop_append_of_le_length h]
  simp only [List.append_assoc]

/-- Bytes before or behind the checksum are among those that it is of. -/
theorem cleared_append (hout : before.length + w.length ≤ 8 ∨ 12 ≤ before.length)
    (hlen : w.length = w'.length) : ∃ first last,
      cleared (before ++ w ++ after) = first ++ w ++ last ∧
        cleared (before ++ w' ++ after) = first ++ w' ++ last := by
  rcases hout with hfront | hback
  · have hfront' : cleared (before ++ w' ++ after) = _ := cleared_of_front (hlen ▸ hfront)
    rw [← hlen] at hfront'
    exact ⟨_, _, cleared_of_front hfront, hfront'⟩
  · exact ⟨_, _, cleared_of_back hback, cleared_of_back hback⟩

/-- Four bytes in a row outside of the field do not change without the checksum. -/
theorem checkCrc32_ne (hlength : 12 ≤ (before ++ w ++ after).length)
    (hout : before.length + w.length ≤ 8 ∨ 12 ≤ before.length) (hlen : w.length = w'.length)
    (hle : w.length ≤ 4) (hne : w ≠ w') :
    checkCrc32 (before ++ w ++ after) ≠ checkCrc32 (before ++ w' ++ after) := by
  obtain ⟨first, last, hcleared, hcleared'⟩ := cleared_append hout hlen
  have hlength' : 12 ≤ (before ++ w' ++ after).length := by
    simp only [List.length_append] at hlength ⊢
    omega
  rw [checkCrc32_eq hlength, checkCrc32_eq hlength', hcleared, hcleared']
  intro heq
  exact Crc.foldl_byte_ne (by decide) _ first last hlen hle hne
    (UInt32.not_inj.mp (byteSwap_injective heq))

theorem checksum_of_header {header : Header} (h : Header.deserialize data = .ok header) :
    toBe32 header.checksum = (data.drop 8).take 4 := by
  unfold Header.deserialize at h
  split at h
  · obtain rfl := Except.ok.inj h
    exact toBe32_be32 ..
  · cases h

theorem checksum_of_deserialize {pkt : Packet} (h : Packet.deserialize data = .ok pkt) :
    toBe32 pkt.header.checksum = (data.drop 8).take 4 := by
  unfold Packet.deserialize at h
  cases hheader : Header.deserialize data with
  | error e =>
    rw [hheader] at h
    cases h
  | ok header =>
    rw [hheader] at h
    cases hchunks : readUnits Chunk.deserialize data.length (data.drop 12) with
    | error e =>
      simp only [bind, Except.bind, hchunks] at h
      cases h
    | ok chunks =>
      simp only [bind, Except.bind, pure, Except.pure, hchunks] at h
      obtain rfl := Except.ok.inj h
      exact checksum_of_header hheader

/-- Bytes before or behind the checksum do not change it. -/
theorem field_append (hout : before.length + w.length ≤ 8 ∨ 12 ≤ before.length)
    (hlen : w.length = w'.length) :
    ((before ++ w ++ after).drop 8).take 4 = ((before ++ w' ++ after).drop 8).take 4 := by
  rcases hout with hfront | hback
  · have hfront' : before.length + w'.length ≤ 8 := hlen ▸ hfront
    rw [← List.length_append] at hfront hfront'
    rw [@List.drop_append _ (before ++ w) after, @List.drop_append _ (before ++ w') after,
      List.drop_of_length_le hfront, List.drop_of_length_le hfront', List.length_append,
      List.length_append, hlen]
  · have hdrop : 4 ≤ (before.drop 8).length := by
      rw [List.length_drop]
      omega
    rw [List.append_assoc, List.append_assoc, List.drop_append_of_le_length (by omega),
      List.drop_append_of_le_length (by omega), List.take_append_of_le_length hdrop,
      List.take_append_of_le_length hdrop]

/-- Up to four bytes in a row, before or behind the checksum, have changed. -/
def Damages (sent data : List UInt8) : Prop :=
  ∃ before w w' after, sent = before ++ w ++ after ∧ data = before ++ w' ++ after ∧
    (before.length + w.length ≤ 8 ∨ 12 ≤ before.length) ∧ w.length = w'.length ∧
    w.length ≤ 4 ∧ w ≠ w'

/-- A damaged packet is not handled: the association stays as it is, unless reading the packet is
undefined. -/
theorem connInput_damaged {plain sent : List UInt8} (hsign : signCrc32 plain = some sent)
    (hdamage : Damages sent data) : Packet.deserialize data = .error .undefined ∨
      ∀ now s, Association.connInput now data s = some s := by
  obtain ⟨before, w, w', after, rfl, rfl, hout, hlen, hle, hne⟩ := hdamage
  have hzero : checkCrc32 (before ++ w ++ after) ≠ 0 := by
    rw [checkCrc32_sign hsign]
    exact checkCrc32_ne_zero hsign
  have hlength : 12 ≤ (before ++ w ++ after).length := length_of_sign hsign
  have hchanged := checkCrc32_ne hlength hout hlen hle hne
  cases hd : Packet.deserialize (before ++ w' ++ after) with
  | error e =>
    cases e with
    | rejected => exact .inr fun now s => by rw [Association.connInput, hd]
    | undefined => exact .inl rfl
  | ok pkt =>
    have hchecksum : pkt.header.checksum = checkCrc32 (before ++ w ++ after) := by
      have hfield := checksum_of_deserialize hd
      rw [← field_append hout hlen, signCrc32_field hsign] at hfield
      exact toBe32_injective hfield
    have hrefused : Association.accepts (before ++ w' ++ after) pkt = false := by
      rw [Association.accepts, hchecksum, Bool.or_eq_false_iff]
      exact ⟨beq_false_of_ne hzero, beq_false_of_ne hchanged⟩
    refine .inr fun now s => ?_
    rw [Association.connInput, hd]
    exact if_neg (ne_true_of_eq_false hrefused)

/-! ### What is sent is signed -/

namespace Association

/-- The packets that were sent are signed. -/
def Signed (s : Association) : Prop :=
  ∀ data, .sendData data ∈ s.events → ∃ plain, signCrc32 plain = some data

variable {s s' : Association}

theorem Signed.of_events (h : s.Signed) (hevents : s'.events = s.events) : s'.Signed :=
  fun data hdata => h data (hevents ▸ hdata)

theorem Signed.emit (h : s.Signed) {e : Event} (he : ∀ data, e ≠ .sendData data) :
    (s.emit e).Signed := by
  intro data hdata
  rcases List.mem_append.mp hdata with hdata | hdata
  · exact h data hdata
  · exact absurd (List.mem_singleton.mp hdata).symm (he data)

theorem signed_respects (cause : Option ChunkType) (msgs : List Message) :
    Respects cause msgs fun s s' => s.Signed → s'.Signed where
  refl _ h := h
  trans h h' hs := h' (h hs)
  quiet hevents _ h := h.of_events hevents
  say s _ hsaid h data hdata := by
    rcases List.mem_append.mp hdata with hdata | hdata
    · exact h data hdata
    · obtain ⟨header, buf, hsign, heq⟩ := hsaid _ hdata
      exact ⟨_, Event.sendData.inj heq ▸ hsign⟩
  tell _ hpacket _ h := h.emit hpacket
  close _ _ _ _ h := h.of_events rfl

theorem Signed.foldlM {now : ℤ} {header : Header} {chunks : List Chunk} (h : s.Signed)
    (hs : chunks.foldlM (onChunk now header) s = some s') : s'.Signed := by
  induction chunks generalizing s with
  | nil => exact Option.some.inj hs ▸ h
  | cons chunk chunks ih =>
    rw [List.foldlM_cons] at hs
    obtain ⟨s₁, h₁, hs⟩ := Option.bind_eq_some_iff.mp hs
    have hconnect : ∀ s₁ : Association, s₁.Signed →
        (Association.emit .connected (s₁.setState now .connected)).Signed := fun s₁ h₁ =>
      Signed.emit (h₁.of_events rfl) (fun _ => by simp)
    exact ih (onChunk_respects (signed_respects _ _) (fun _ => hconnect) h₁ h) hs

theorem Signed.connInput {now : ℤ} {data : List UInt8} (h : s.Signed)
    (hs : connInput now data s = some s') : s'.Signed := by
  unfold Association.connInput at hs
  split at hs
  · exact Option.some.inj hs ▸ h
  · cases hs
  · split at hs
    · exact h.foldlM hs
    · exact Option.some.inj hs ▸ h

theorem Signed.act {a : Act} (h : s.Signed) (hs : s.act a = some s') : s'.Signed :=
  act_respects (signed_respects _ _) (fun _ _ _ _ hs => hs.of_events rfl) hs h

end Association

variable {net net' : Net}

def Net.Signed (net : Net) : Prop := ∀ side, (net side).Signed

theorem Net.Signed.set (h : net.Signed) (side : Side) {s : Association} (hs : s.Signed) :
    (net.set side s).Signed := by
  intro x
  unfold Net.set
  split
  · exact hs
  · exact h x

theorem Net.Signed.step (h : net.Signed) {m : Move} {os : List Empty}
    (hs : net.step m = some (net', os)) : net'.Signed := by
  cases m with
  | deliver side now i =>
    rw [Net.step] at hs
    cases hdata : net.arriving side i with
    | none =>
      rw [hdata] at hs
      exact (Prod.mk.inj (Option.some.inj hs)).1 ▸ h
    | some data =>
      rw [hdata] at hs
      obtain ⟨s, hin, heq⟩ := Option.map_eq_some_iff.mp hs
      exact (Prod.mk.inj heq).1 ▸ h.set side ((h side).connInput hin)
  | act side a =>
    obtain ⟨s, hact, heq⟩ := Option.map_eq_some_iff.mp hs
    exact (Prod.mk.inj heq).1 ▸ h.set side ((h side).act hact)

theorem Net.Opened.signed (h : net.Opened) : net.Signed := by
  intro side
  obtain ⟨sid, localPort, uuid, tag, tsn, hnet⟩ := h side
  rw [hnet]
  exact fun _ hdata => absurd hdata List.not_mem_nil

theorem Net.Signed.arriving (h : net.Signed) {side : Side} {i : ℕ} {data : List UInt8}
    (hdata : net.arriving side i = some data) : ∃ plain, signCrc32 plain = some data :=
  h side.peer data (Association.mem_flight.mp (List.mem_of_getElem? hdata))

/-! ### A network that damages packets -/

/-- A move, or the arrival of `data` in the place of packet `i` of the other side. -/
inductive Disturbance
  | move (m : Move)
  | damaged (side : Side) (now : ℤ) (i : ℕ) (data : List UInt8)
  deriving DecidableEq, Repr

def Disturbance.move? : Disturbance → Option Move
  | .move m => some m
  | .damaged .. => none

def Net.disturbed (net : Net) : Disturbance → Option (Net × List Empty)
  | .move m => net.step m
  | .damaged side now _ data => ((net side).connInput now data).map fun s => (net.set side s, [])

/-- What arrives damaged was sent. -/
def Net.Damaged (net : Net) : Disturbance → Prop
  | .move _ => True
  | .damaged side _ i data => ∃ sent, net.arriving side i = some sent ∧ Damages sent data

theorem Net.set_self_eq (net : Net) (side : Side) : net.set side (net side) = net := by
  funext x
  unfold Net.set
  split
  case isTrue hx => rw [hx]
  case isFalse => rfl

/-- A damaged packet changes nothing. -/
theorem disturbed_damaged (h : net.Signed) {side : Side} {now : ℤ} {i : ℕ} {data : List UInt8}
    (hdamage : net.Damaged (.damaged side now i data)) {os : List Empty}
    (hs : net.disturbed (.damaged side now i data) = some (net', os)) : net' = net := by
  obtain ⟨sent, hsent, hdamage⟩ := hdamage
  obtain ⟨plain, hsign⟩ := h.arriving hsent
  obtain ⟨s, hin, heq⟩ := Option.map_eq_some_iff.mp hs
  rw [← (Prod.mk.inj heq).1]
  rcases connInput_damaged hsign hdamage with hundefined | hkept
  · rw [Association.connInput, hundefined] at hin
    cases hin
  · rw [hkept] at hin
    rw [← Option.some.inj hin, Net.set_self_eq]

/-- Damage is no more than loss: what the endpoints come to over a network that also damages
packets, they come to over one where those packets do not arrive. -/
theorem damage_is_loss {start : Net} (hstart : start.Opened) {ds : List Disturbance}
    {os : List Empty} (hdamaged : RunOk Net.disturbed Net.Damaged start ds)
    (h : run Net.disturbed start ds = some (net, os)) :
    run Net.step start (ds.filterMap Disturbance.move?) = some (net, os) := by
  have hsigned := hstart.signed
  clear hstart
  induction ds generalizing start os with
  | nil => exact h
  | cons d ds ih =>
    obtain ⟨net₁, o, o', hfirst, hrest, rfl⟩ := run_cons_eq_some.mp h
    obtain ⟨hd, hds⟩ := hdamaged
    cases d with
    | move m =>
      rw [List.filterMap_cons_some (show Disturbance.move? (.move m) = some m from rfl)]
      exact run_cons_eq_some.mpr ⟨net₁, o, o', hfirst,
        ih (hds _ hfirst) hrest (Net.Signed.step hsigned hfirst), rfl⟩
    | damaged side now i data =>
      obtain rfl := disturbed_damaged hsigned hd hfirst
      have ho : o = [] := List.eq_nil_iff_forall_not_mem.mpr fun e => e.elim
      rw [List.filterMap_cons_none (show Disturbance.move? (.damaged ..) = none from rfl), ho]
      exact ih (hds _ hfirst) hrest hsigned

/-- The INIT of a client, but for its tag. -/
private def initFront : List UInt8 :=
  [19, 136, 19, 136, 0, 0, 0, 0, 99, 190, 100, 22, 1, 0, 0, 20, 0, 0, 0]

private def initBack : List UInt8 := [0, 16, 0, 0, 0, 16, 0, 16, 0, 0, 0, 100]

/-- The INIT arrives with another tag, and then as it was sent. -/
theorem damage_is_loss_init :
    ∃ net os, run Net.disturbed pair [.move (.act .client (.connect 0 5000)),
        .damaged .server 0 0 (initFront ++ [9] ++ initBack), .move (.deliver .server 0 0)] =
          some (net, os) ∧
      run Net.step pair [.act .client (.connect 0 5000), .deliver .server 0 0] =
        some (net, os) := by
  have hsent : (pair.disturbed (.move (.act .client (.connect 0 5000)))).map
      (fun r => r.1.arriving .server 0) = some (some (initFront ++ [7] ++ initBack)) := by
    decide +kernel
  have hsome : (run Net.disturbed pair [.move (.act .client (.connect 0 5000)),
      .damaged .server 0 0 (initFront ++ [9] ++ initBack),
      .move (.deliver .server 0 0)]).isSome := by
    decide +kernel
  obtain ⟨⟨net, os⟩, hrun⟩ := Option.isSome_iff_exists.mp hsome
  have hdamaged : RunOk Net.disturbed Net.Damaged pair [.move (.act .client (.connect 0 5000)),
      .damaged .server 0 0 (initFront ++ [9] ++ initBack), .move (.deliver .server 0 0)] := by
    refine ⟨trivial, fun r hr => ⟨?_, fun _ _ => ⟨trivial, fun _ _ => trivial⟩⟩⟩
    rw [hr] at hsent
    exact ⟨_, Option.some.inj hsent, initFront, [7], [9], initBack, rfl, rfl, .inr (by decide), rfl,
      by decide, by decide⟩
  have hloss := damage_is_loss pair_opened hdamaged hrun
  exact ⟨net, os, hrun, hloss⟩

end CxxDeps.Sctp
