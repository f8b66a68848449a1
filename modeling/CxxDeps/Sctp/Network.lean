import CxxDeps.Library.Run
import CxxDeps.Sctp.Codec
import CxxDeps.Sctp.Effects

/-! Two associations and the packets between them. A packet that was handed to the
socket stays in flight for good, so it may arrive at any time, any number of
times, or never. -/

namespace CxxDeps.Sctp

open Library

inductive Side
  | client
  | server
  deriving DecidableEq, Repr

def Side.peer : Side → Side
  | client => server
  | server => client

@[simp] theorem Side.peer_peer (side : Side) : side.peer.peer = side := by cases side <;> rfl

theorem Side.peer_ne (side : Side) : side.peer ≠ side := by cases side <;> exact nofun

theorem Side.eq_peer_of_ne {a b : Side} (h : a ≠ b) : a = b.peer := by
  cases a <;> cases b <;> first | rfl | exact absurd rfl h

abbrev Net := Side → Association

def Net.set (net : Net) (side : Side) (s : Association) : Net :=
  fun x => if x = side then s else net x

@[simp] theorem Net.set_self (net : Net) (side : Side) (s : Association) :
    net.set side s side = s := if_pos rfl

@[simp] theorem Net.set_peer (net : Net) (side : Side) (s : Association) :
    net.set side s side.peer = net side.peer := if_neg side.peer_ne

theorem Net.set_of_ne (net : Net) {side x : Side} (s : Association) (h : x ≠ side) :
    net.set side s x = net x := if_neg h

/-- The packets that an association has sent. -/
def Association.flight (s : Association) : List (List UInt8) :=
  s.events.filterMap fun
    | .sendData data => some data
    | _ => none

theorem Association.mem_flight {s : Association} {data : List UInt8} :
    data ∈ s.flight ↔ .sendData data ∈ s.events := by
  simp only [flight, List.mem_filterMap]
  constructor
  · rintro ⟨e, he, h⟩
    cases e <;> cases h
    exact he
  · intro h
    exact ⟨.sendData data, h, rfl⟩

/-- A move of the network: packet `i` of the other side arrives, or a side acts. -/
inductive Move
  | deliver (side : Side) (now : ℤ) (i : ℕ)
  | act (side : Side) (a : Act)
  deriving DecidableEq, Repr

/-- The side that moves. -/
def Move.side : Move → Side
  | deliver side _ _ => side
  | act side _ => side

def Net.arriving (net : Net) (side : Side) (i : ℕ) : Option (List UInt8) :=
  (net side.peer).flight[i]?

def Net.step (net : Net) : Move → Option (Net × List Empty)
  | .deliver side now i =>
    match net.arriving side i with
    | none => some (net, [])
    | some data => ((net side).connInput now data).map fun s => (net.set side s, [])
  | .act side a => ((net side).act a).map fun s => (net.set side s, [])

/-- The chunk of a packet of one chunk, as the handlers see it. -/
def carried (data : List UInt8) : Option Chunk :=
  match Packet.deserialize data with
  | .ok pkt => if Association.accepts data pkt then pkt.chunks.head? else none
  | .error _ => none

/-- The chunk that arrives, if the packet is read. -/
def Net.arrives (net : Net) (side : Side) (i : ℕ) : Option Chunk :=
  (net.arriving side i).bind carried

/-- A packet that an association sends is handled as its one chunk, or not at all if
the chunk is too large. -/
theorem connInput_says {chunk : Chunk} {data : List UInt8} (ht : chunk.type.Named)
    (h : Says chunk (.sendData data)) :
    carried data = none ∧ (∀ now s, Association.connInput now data s = some s) ∨
      chunk.serialize.length ≤ maxChunkSize ∧ carried data = some chunk.sized ∧
        ∃ header, ∀ now s, Association.connInput now data s = s.onChunk now header chunk.sized := by
  obtain ⟨header, buf, hsign, heq⟩ := h
  obtain rfl := Event.sendData.inj heq
  have hd := Packet.deserialize_sign ht hsign
  by_cases hbig : maxChunkSize < chunk.serialize.length
  · rw [if_pos hbig] at hd
    exact .inl ⟨by rw [carried, hd], fun now s => by rw [Association.connInput, hd]⟩
  · rw [if_neg hbig] at hd
    have haccepts : Association.accepts data
        ⟨{ header with checksum := checkCrc32 data }, [chunk.sized]⟩ := by
      simp [Association.accepts]
    refine .inr ⟨by omega, ?_, { header with checksum := checkCrc32 data }, fun now s => ?_⟩
    · rw [carried, hd]
      simp [haccepts]
    · rw [Association.connInput, hd]
      simp only [haccepts, if_true, List.foldlM_cons, List.foldlM_nil]
      exact Option.bind_fun_some _

/-- Two endpoints after `open`. -/
def Net.Opened (net : Net) : Prop :=
  ∀ side, ∃ sid localPort uuid tag tsn, net side = opened sid localPort uuid tag tsn

/-- Two endpoints, and the moves of a handshake. -/
def pair : Net
  | .client => opened 0 5000 [1, 2, 3, 4] 7 100
  | .server => opened 1 5000 [5, 6, 7, 8] 8 200

theorem pair_opened : pair.Opened
  | .client => ⟨_, _, _, _, _, rfl⟩
  | .server => ⟨_, _, _, _, _, rfl⟩

def handshake : List Move :=
  [.act .client (.connect 0 5000), .deliver .server 0 0, .deliver .client 0 0,
    .deliver .server 0 1, .deliver .client 0 1]

end CxxDeps.Sctp
