import CxxDeps.Hypertext.Parse
import CxxDeps.Sys.RingBuffer

/-! `http_connection::handle_read` and `sip_tcp_connection::handle_read`. What a read brings
goes through a ring buffer, all unread bytes are peeked, and `parse` takes messages from
their front until it returns zero. Where it skips what is blank without finding a message
it returns the number of bytes skipped, and an empty message. -/

namespace CxxDeps.Hypertext

open Sys

/-- `http_connection` or `sip_tcp_connection`. -/
inductive Kind
  | http
  | sip
  deriving DecidableEq, Repr

/-- The message handler is called; the close handler is called. -/
inductive Event
  | message (message : Message)
  | close
  deriving DecidableEq, Repr

/-- The size of `recv_ring_buffer_`. -/
def Kind.capacity : Kind → ℕ
  | http => 102400
  | sip => 1024 * 1024

/-- A SIP message without headers is not handed over. -/
def Kind.handsOver (message : Message) : Kind → Bool
  | http => true
  | sip => message.headers.length > 0

def Kind.deliver (message : Message) (kind : Kind) : List Event :=
  if kind.handsOver message then [.message message] else []

/-- `reading` tells whether a read is under way. -/
structure Connection where
  active : Bool
  reading : Bool
  recvRingBuffer : RingBuffer 1

namespace Connection

def start (kind : Kind) : Connection where
  active := true
  reading := true
  recvRingBuffer := .new 1 kind.capacity

/-- The next `async_read_some`. -/
def readOn (kind : Kind) (con : Connection) : Connection :=
  match kind with
  | .http => { con with reading := true }
  | .sip => { con with reading := con.active }

/-- `stop` of `http_connection`, `invoke_close` of `sip_tcp_connection`. -/
def close (con : Connection) : Connection × List Event := (con, [.close])

/-- There is no next read; `sip_tcp_connection` closes. -/
def giveUp (kind : Kind) (con : Connection) : Connection × List Event :=
  match kind with
  | .http => (con, [])
  | .sip => con.close

/-- The loop of `handle_read`; `pos` grows with each round. -/
def readLoop (kind : Kind) (buf : Text) : ℕ → ℕ → ℕ → Connection → Option (Connection × List Event)
  | 0, _, _, _ => none
  | n + 1, pos, rdsize, con =>
    if rdsize = 0 then some (con.readOn kind, [])
    else (Message.parse (buf.drop pos) rdsize).bind fun parsed =>
      if parsed.1 < 0 then some (con.giveUp kind)
      else if parsed.1 = 0 then some (con.readOn kind, [])
      else
        let r := parsed.1.toNat
        (con.recvRingBuffer.remove r).bind fun removed =>
          (readLoop kind buf n (pos + r) (sizeT ((rdsize : ℤ) - r))
            { con with recvRingBuffer := removed.1 }).map fun q =>
              (q.1, kind.deliver parsed.2 ++ q.2)

/-- `handle_read` with the error code and the bytes in `recv_buffer_`. -/
def handleRead (kind : Kind) (ec : Bool) (data : Text) (con : Connection) :
    Option (Connection × List Event) :=
  let con := { con with reading := false }
  if ec then some con.close
  else (con.recvRingBuffer.write (objects data)).bind fun written =>
    let con := { con with recvRingBuffer := written.1 }
    if !written.2 then some con.close
    else
      let rdsize := written.1.availableToRead
      if kind = .sip ∧ rdsize = 0 then some con.close
      else
        let peeked := written.1.peek rdsize
        if !peeked.1 then some (con.giveUp kind)
        else readLoop kind (ofObjects peeked.2) (rdsize + 1) 0 rdsize con

/-- Bytes arrive. Unless a read is under way they stay in the socket. -/
def step (kind : Kind) (con : Connection) (data : Text) : Option (Connection × List Event) :=
  if con.reading then con.handleRead kind false data else some (con, [])

end Connection

end CxxDeps.Hypertext
