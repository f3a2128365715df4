import Parley.Frame.Framer

/-!
# WebSockets

A WebSocket carries one message in each text frame, so messages need no header blocks. Control frames stay below the messages: a
ping is answered at the next chance, and a frame that closes the socket ends it on both sides.
-/

namespace Parley

/-- A frame of a WebSocket. -/
inductive WsFrame where
  | text (b : Bytes)
  | binary (b : Bytes)
  | ping (b : Bytes)
  | pong (b : Bytes)
  | close
  deriving DecidableEq, Repr

/-- Why a message is not written. -/
inductive WsWriteFault where
  /-- The message is not a text. -/
  | notText
  /-- The socket was closed before. -/
  | afterClose
  deriving DecidableEq, Repr

/-- One end of a WebSocket. -/
structure WebSocket where
  /-- The frames that have arrived, none of them longer than the socket takes by itself, and are not yet read. -/
  arrived : List WsFrame := []
  /-- The peer is gone without having closed the socket. -/
  hungUp : Bool := false
  /-- The frames sent. -/
  sent : List WsFrame := []
  /-- The answer to a control frame, which is sent before the next frame is read. -/
  owed : Option WsFrame := none
  /-- This end has closed the socket. -/
  closed : Bool := false
  /-- The peer has closed the socket, or it has failed. -/
  ended : Bool := false
  deriving Repr

namespace WebSocket

/-- Writes a message. -/
def write (w : WebSocket) (b : Bytes) : Except WsWriteFault WebSocket :=
  if (Utf8.decode? b).isNone then .error .notText
  else if w.closed || w.ended then .error .afterClose
  else .ok { w with sent := w.sent ++ [.text b] }

/-- Closes the socket, if this end has not. -/
def close (w : WebSocket) : WebSocket :=
  if w.closed || w.ended then w else { w with sent := w.sent ++ [.close], closed := true }

/-- Sends the answer that is owed. -/
def flush (w : WebSocket) : WebSocket :=
  match w.owed with
  | some f => { w with sent := w.sent ++ [f], owed := none }
  | none => w

/-- What is said of a peer that is gone. -/
def lost : Frame.FrameFault := .transport "WebSocket protocol error: Connection reset without closing handshake"

/-- What is said if an answer cannot be sent. -/
def unsent : Frame.FrameFault := .transport "IO error: broken pipe"

/-- The longest payload of a control frame. -/
def maxControl : Nat := 125

/-- What is said of a control frame that is too long. -/
def oversized : Frame.FrameFault :=
  .transport "WebSocket protocol error: Control frame too big (payload must be 125 bytes or less)"

/-- The answer that is owed cannot be sent, since the peer is gone. -/
def isStuck (w : WebSocket) : Bool := w.hungUp && w.owed.isSome

/-- The socket ends with a fault. -/
def broken (w : WebSocket) (f : Frame.FrameFault) : Frame.Reading × WebSocket :=
  (.fault f, { w with arrived := [], owed := none, ended := true })

/-- Reads the next message among frames that have arrived; none if nothing has. An end that has closed the socket answers no more
pings. -/
def readFrames (w : WebSocket) : List WsFrame → Option (Frame.Reading × WebSocket)
  | [] => if w.isStuck then some (w.broken unsent) else if w.hungUp then some (w.broken lost) else none
  | f :: rest =>
    if w.isStuck then some (w.broken unsent)
    else
      let w := w.flush
      match f with
      | .text b | .binary b => some (.payload b, { w with arrived := rest })
      | .ping b =>
        if maxControl < b.length then some (w.broken oversized)
        else readFrames { w with owed := if w.closed then none else some (.pong b) } rest
      | .pong b => if maxControl < b.length then some (w.broken oversized) else readFrames w rest
      | .close => some (.ended, { w with arrived := [], owed := if w.closed then none else some .close, ended := true })

/-- Reads the next message; none if nothing has arrived. Behind its end a socket stays ended. -/
def next (w : WebSocket) : Option (Frame.Reading × WebSocket) :=
  if w.ended then some (if w.isStuck then w.broken unsent else (.ended, w.flush)) else w.readFrames w.arrived

end WebSocket

end Parley
