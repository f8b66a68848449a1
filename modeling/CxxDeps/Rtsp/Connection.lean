import CxxDeps.Hypertext.RoundTrip
import CxxDeps.Library.BigEndian
import CxxDeps.Sys.RingBuffer

/-! `rtsp_connection::handle_read`. What a read brings goes through a ring buffer, of which
all unread bytes are peeked. A dollar sign begins an interleaved binary frame, any other
byte a request. The length of a frame is compared with `rdsize - pos - 4`, in the
arithmetic of `size_t`, and `pos` bytes too many are removed with it. Reading outside
the peeked bytes is `none`, and so is what `uri::parse` leaves undefined for the target of an
`OPTIONS` request or of one that is logged. -/

namespace CxxDeps.Rtsp

open Hypertext Library Sys

/-- `on_message` is called; its answer to a method that it does not know; a binary frame is
copied to `packet`; `on_destroy` is called. -/
inductive Event
  | request (message : Message)
  | methodNotAllowed (cseq : UInt32)
  | binary (channel : UInt8) (packet : List UInt8)
  | destroy
  deriving DecidableEq, Repr

/-- `rtsp_request::cseq`. -/
def cseq (request : Message) : UInt32 :=
  (request.headers.get (text "CSeq")).elim 0 fun value => UInt32.ofInt (strtol 10 value)

/-- The methods of `on_message`. -/
def methods : List Text :=
  ["OPTIONS", "DESCRIBE", "SETUP", "ANNOUNCE", "PLAY", "PAUSE", "RECORD", "TEARDOWN"].map text

def isKnown (request : Message) : Bool := methods.any fun method => request.matchMethod method

/-- `reading` tells whether a read is under way, and `debug` whether there is a logger that
writes on the level `debug`. -/
structure Connection where
  debug : Bool
  active : Bool
  reading : Bool
  recvRingBuffer : RingBuffer 1
  url : Uri

namespace Connection

def start (debug : Bool) : Connection where
  debug
  active := true
  reading := true
  recvRingBuffer := .new 1 102400
  url := {}

def close (con : Connection) : Connection × List Event := ({ con with active := false }, [.destroy])

/-- `on_message`. The handler of `OPTIONS` calls `set_url`, `close` follows that of `TEARDOWN`,
and the others do nothing; `print_message` writes a request of another method out again. -/
def onMessage (y : UInt8) (request : Message) (con : Connection) :
    Option (Connection × List Event) :=
  if request.matchMethod (text "OPTIONS") then
    (Uri.parse y request.filed2).map fun url => ({ con with url }, [.request request])
  else if request.matchMethod (text "TEARDOWN") then
    some ({ con with active := false }, [.request request, .destroy])
  else if isKnown request then some (con, [.request request])
  else if con.debug && (request.toText y).isNone then none
  else some (con, [.request request, .methodNotAllowed (cseq request)])

/-- The next `async_read_some`, unless the connection is closed. -/
def readOn (con : Connection) : Connection := { con with reading := con.active }

/-- The loop of `handle_read`; `pos` grows with each round. -/
def readLoop (y : UInt8) (buf : List UInt8) :
    ℕ → ℕ → ℕ → Connection → Option (Connection × List Event)
  | 0, _, _, _ => none
  | n + 1, pos, rdsize, con =>
    if rdsize = 0 then some (con.readOn, [])
    else buf[pos]?.bind fun magic =>
      if magic = 0x24 then
        if rdsize ≤ 4 then some (con.readOn, [])
        else match (buf.drop (pos + 1)).take 3 with
          | [channel, hi, lo] =>
            let len := (be16 hi lo).toNat
            if len > sizeT ((rdsize : ℤ) - pos - 4) then some (con.readOn, [])
            else if len ≥ 2048 then some (con, [])
            else if buf.length < pos + 4 + len then none
            else
              let packet := (buf.drop (pos + 4)).take len
              let r := pos + 4 + len
              (con.recvRingBuffer.remove r).bind fun removed =>
                (readLoop y buf n (pos + r) (sizeT ((rdsize : ℤ) - r))
                  { con with recvRingBuffer := removed.1 }).map fun q =>
                    (q.1, .binary channel packet :: q.2)
          | _ => none
      else
        (Message.parse (buf.drop pos) rdsize).bind fun parsed =>
          if parsed.1 < 0 then some (con, [])
          else if parsed.1 = 0 then some (con.readOn, [])
          else
            let r := parsed.1.toNat
            (con.onMessage y parsed.2).bind fun handled =>
              (handled.1.recvRingBuffer.remove r).bind fun removed =>
                (readLoop y buf n (pos + r) (sizeT ((rdsize : ℤ) - r))
                  { handled.1 with recvRingBuffer := removed.1 }).map fun q =>
                    (q.1, handled.2 ++ q.2)

/-- `handle_read` with the error code and the bytes in `recv_buffer_`. -/
def handleRead (y : UInt8) (ec : Bool) (data : List UInt8) (con : Connection) :
    Option (Connection × List Event) :=
  let con := { con with reading := false }
  if ec then some con.close
  else (con.recvRingBuffer.write (objects data)).bind fun written =>
    let con := { con with recvRingBuffer := written.1 }
    if !written.2 then some con.close
    else
      let rdsize := written.1.availableToRead
      if rdsize = 0 then some con.close
      else
        let peeked := written.1.peek rdsize
        if !peeked.1 then some (con, [])
        else readLoop y (ofObjects peeked.2) (rdsize + 1) 0 rdsize con

/-- Bytes arrive. Unless a read is under way they stay in the socket. -/
def step (y : UInt8) (con : Connection) (data : List UInt8) : Option (Connection × List Event) :=
  if con.reading then con.handleRead y false data else some (con, [])

end Connection

end CxxDeps.Rtsp
