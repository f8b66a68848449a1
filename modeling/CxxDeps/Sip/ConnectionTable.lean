import CxxDeps.Sdp.Text
import Std.Data.ExtTreeMap

/-! The connections of `sip_server`. A connection that is stopped calls back into the
server, which removes by id: whatever the table holds under that id is taken out, and
the application is told that it is closed.

The second of two connections with one id is taken out as it comes in. The first is
stopped only once the second has its place. -/

namespace CxxDeps.Sip

open Sys Sdp

/-- `sip_connection`: the object that is pointed to, and its id. -/
structure Connection where
  object : ℕ
  id : Text
  deriving DecidableEq, Repr

namespace Connection

def makeId (proto ip : Text) (port : UInt16) : Text :=
  proto ++ text "$" ++ ip ++ text ":" ++ number port.toNat

/-- `sip_tcp_connection`. -/
def tcp (object : ℕ) (ip : Text) (port : UInt16) : Connection :=
  ⟨object, makeId (text "tcp") ip port⟩

/-- `sip_udp_connection`. -/
def udp (object : ℕ) (ip : Text) (port : UInt16) : Connection :=
  ⟨object, makeId (text "udp") ip port⟩

end Connection

/-- The calls that a connection and the application see. -/
inductive ServerEvent
  | start (con : Connection)
  | stop (con : Connection)
  | close (con : Connection)
  | message (con : Connection)
  deriving DecidableEq, Repr

abbrev Connections := Std.ExtTreeMap Text Connection compare

/-- `sip_server`, with the connections that have their remove handler set. -/
structure Server where
  connections : Connections := ∅
  hooked : List Connection := []
  closeConHandler : Bool := true
  events : List ServerEvent := []

namespace Server

def say (es : List ServerEvent) (s : Server) : Server := { s with events := s.events ++ es }

def setConnections (connections : Connections) (s : Server) : Server := { s with connections }

/-- `set_remove_handler`. -/
def hook (con : Connection) (s : Server) : Server := { s with hooked := con :: s.hooked }

def removeConnection (id : Text) (s : Server) : Server :=
  match s.connections[id]? with
  | none => s
  | some con =>
    say (if s.closeConHandler then [.close con] else [])
      (s.setConnections (s.connections.erase id))

def handleRemove (con : Connection) (s : Server) : Server := s.removeConnection con.id

/-- `sip_connection::stop`. -/
def stopConnection (con : Connection) (s : Server) : Server :=
  let s := s.say [.stop con]
  if s.hooked.contains con then s.handleRemove con else s

def addConnection (con : Connection) (s : Server) : Server :=
  let s := s.hook con
  match s.connections[con.id]? with
  | none => s.setConnections (s.connections.insert con.id con)
  | some old => stopConnection old (s.setConnections (s.connections.insert con.id con))

def handleAccept (con : Connection) (s : Server) : Server :=
  say [.start con] (s.addConnection con)

/-- `handle_read`, for a datagram that is a message. -/
def handleRead (con : Connection) (s : Server) : Server :=
  match s.connections[con.id]? with
  | none =>
    let s := s.hook con
    say [.start con, .message con] (s.setConnections (s.connections.insert con.id con))
  | some old => s.say [.message old]

def allConnections (s : Server) : List Connection := s.connections.toList.map Prod.snd

def clearConnections (s : Server) : Server := s.setConnections ∅

def stop (s : Server) : Server :=
  clearConnections (s.allConnections.foldl (fun s con => s.stopConnection con) s)

end Server

/-- What happens to a server. Its connections can be stopped by others as well. -/
inductive ServerCall
  | accept (object : ℕ) (ip : Text) (port : UInt16)
  | read (object : ℕ) (ip : Text) (port : UInt16)
  | add (con : Connection)
  | remove (id : Text)
  | stopConnection (con : Connection)
  | stop
  deriving DecidableEq, Repr

/-- One call of `add_connection`. -/
structure Addition where
  before : Server
  con : Connection

namespace Addition

def after (a : Addition) : Server := a.before.addConnection a.con

/-- The connection that is replaced. -/
def replaced (a : Addition) : Option Connection := a.before.connections[a.con.id]?

/-- The connection is in the table, the one that it replaces is stopped, and the
application is told of no other that it is closed. -/
def Sound (a : Addition) : Prop :=
  a.after.connections[a.con.id]? = some a.con ∧
    ∃ es, a.after.events = a.before.events ++ es ∧
      (∀ old, a.replaced = some old → .stop old ∈ es) ∧
      ∀ con, .close con ∈ es → a.replaced = some con

end Addition

namespace Server

def handle (s : Server) : ServerCall → Server
  | .accept object ip port => s.handleAccept (.tcp object ip port)
  | .read object ip port => s.handleRead (.udp object ip port)
  | .add con => s.addConnection con
  | .remove id => s.removeConnection id
  | .stopConnection con => s.stopConnection con
  | .stop => s.stop

/-- The call of `add_connection` that a call makes. -/
def adds (s : Server) : ServerCall → List Addition
  | .accept object ip port => [⟨s, .tcp object ip port⟩]
  | .add con => [⟨s, con⟩]
  | _ => []

def additions : Server → List ServerCall → List Addition
  | _, [] => []
  | s, c :: cs => s.adds c ++ additions (s.handle c) cs

variable {s : Server} {con : Connection} {id : Text}

/-! ### The table -/

/-- A connection is in the table under its own id, and calls back when it is stopped. -/
def Kept (s : Server) : Prop :=
  ∀ (id : Text) (con : Connection), s.connections[id]? = some con →
    con.id = id ∧ con ∈ s.hooked

theorem kept_of_empty (h : s.connections = ∅) : s.Kept := by
  intro id con hcon
  rw [h, Std.ExtTreeMap.getElem?_empty] at hcon
  cases hcon

theorem Kept.say (h : s.Kept) (es : List ServerEvent) : (s.say es).Kept := h

theorem Kept.erase (h : s.Kept) (id : Text) : (s.setConnections (s.connections.erase id)).Kept := by
  intro k con hcon
  simp only [setConnections, Std.ExtTreeMap.getElem?_erase] at hcon
  split at hcon
  · cases hcon
  · exact h k con hcon

theorem Kept.removeConnection (h : s.Kept) (id : Text) : (s.removeConnection id).Kept := by
  rw [Server.removeConnection]
  split
  · exact h
  · exact (h.erase id).say _

theorem Kept.stopConnection (h : s.Kept) (con : Connection) : (s.stopConnection con).Kept := by
  rw [Server.stopConnection]
  split
  · exact (h.say _).removeConnection con.id
  · exact h.say _

/-- A connection goes in under its id once its handler is set. -/
theorem Kept.insert (h : s.Kept) (con : Connection) :
    ((s.hook con).setConnections (s.connections.insert con.id con)).Kept := by
  intro k c hc
  simp only [setConnections, Std.ExtTreeMap.getElem?_insert] at hc
  split at hc
  · next heq =>
    obtain rfl := Option.some.inj hc
    exact ⟨Std.LawfulEqCmp.compare_eq_iff_eq.mp heq, List.mem_cons_self⟩
  · obtain ⟨hid, hmem⟩ := h k c hc
    exact ⟨hid, List.mem_cons_of_mem _ hmem⟩

theorem Kept.addConnection (h : s.Kept) (con : Connection) : (s.addConnection con).Kept := by
  rw [Server.addConnection]
  split
  · exact h.insert con
  · exact (h.insert con).stopConnection _

theorem Kept.handleRead (h : s.Kept) (con : Connection) : (s.handleRead con).Kept := by
  rw [Server.handleRead]
  split
  · exact (h.insert con).say _
  · exact h.say _

theorem Kept.handle (h : s.Kept) (c : ServerCall) : (s.handle c).Kept := by
  cases c with
  | accept object ip port => exact (h.addConnection _).say _
  | read object ip port => exact h.handleRead _
  | add con => exact h.addConnection con
  | remove id => exact h.removeConnection id
  | stopConnection con => exact h.stopConnection con
  | stop => exact kept_of_empty rfl

/-- Every call of `add_connection` finds a table that is kept. -/
theorem Kept.additions {cs : List ServerCall} (h : s.Kept) {a : Addition}
    (ha : a ∈ s.additions cs) : a.before.Kept := by
  induction cs generalizing s with
  | nil => cases ha
  | cons c cs ih =>
    rw [Server.additions, List.mem_append] at ha
    rcases ha with ha | ha
    · cases c <;> simp only [adds, List.mem_singleton, List.not_mem_nil] at ha <;> subst ha <;>
        exact h
    · exact ih (h.handle c) ha

/-! ### One addition -/

theorem addConnection_new (h : s.connections[con.id]? = none) :
    s.addConnection con = (s.hook con).setConnections (s.connections.insert con.id con) := by
  rw [addConnection]
  simp only [hook, h]

/-- Over an old connection the new one is taken out again. -/
theorem addConnection_replaced (hs : s.Kept) {old : Connection}
    (h : s.connections[con.id]? = some old) :
    (s.addConnection con).connections[con.id]? = none := by
  obtain ⟨hid, hhook⟩ := hs _ _ h
  have hcall : (con :: s.hooked).contains old = true :=
    List.contains_iff_mem.mpr (List.mem_cons_of_mem _ hhook)
  rw [addConnection]
  simp only [hook, h, stopConnection, say, setConnections, hcall, if_true, handleRemove, hid,
    removeConnection, Std.ExtTreeMap.getElem?_insert_self, Std.ExtTreeMap.getElem?_erase_self]

end Server

theorem Addition.sound_iff {a : Addition} (h : a.before.Kept) :
    a.Sound ↔ a.con.id ∉ a.before.connections := by
  rw [Std.ExtTreeMap.mem_iff_isSome_getElem?]
  cases hold : a.before.connections[a.con.id]? with
  | none =>
    refine iff_of_true ⟨?_, [], ?_, ?_, ?_⟩ (by simp)
    · rw [after, Server.addConnection_new hold]
      exact Std.ExtTreeMap.getElem?_insert_self
    · rw [after, Server.addConnection_new hold, List.append_nil]
      rfl
    · intro old h
      rw [replaced, hold] at h
      cases h
    · intro con h
      cases h
  | some old =>
    refine iff_of_false (fun hsound => ?_) (by simp)
    rw [Sound, after, Server.addConnection_replaced h hold] at hsound
    cases hsound.1

namespace Server

/-- In every run, adding a connection does what it should exactly if its id is not in
the table. -/
theorem addition_sound_iff (closeConHandler : Bool) (calls : List ServerCall) (a : Addition)
    (ha : a ∈ ({ closeConHandler } : Server).additions calls) :
    a.Sound ↔ a.con.id ∉ a.before.connections :=
  Addition.sound_iff ((kept_of_empty rfl).additions ha)

private def firstCon : Connection := .tcp 1 (text "10.0.0.1") 5060

private def secondCon : Connection := .tcp 2 (text "10.0.0.1") 5060

private def otherCon : Connection := .tcp 3 (text "10.0.0.1") 5062

/-- A second connection, from another port. -/
theorem other_addition_sound :
    (Addition.mk (({} : Server).addConnection firstCon) otherCon).Sound := by
  refine (addition_sound_iff true [.add firstCon, .add otherCon]
    ⟨({} : Server).addConnection firstCon, otherCon⟩ ?_).mpr ?_
  · exact List.mem_cons_of_mem _ (List.mem_singleton_self _)
  · decide +kernel

/-- Two connections with one id: the second is not in the table, and the application
is told that it is closed. -/
theorem second_addition_unsound :
    ∃ a ∈ ({} : Server).additions [.add firstCon, .add secondCon],
      a.after.events = [.stop firstCon, .close secondCon] ∧ ¬ a.Sound := by
  refine ⟨⟨({} : Server).addConnection firstCon, secondCon⟩, ?_, ?_, ?_⟩
  · exact List.mem_cons_of_mem _ (List.mem_singleton_self _)
  · decide +kernel
  · intro h
    have htable := h.1
    revert htable
    decide +kernel

end Server

end CxxDeps.Sip
