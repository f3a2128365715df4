import Parley.Text.Utf8

/-!
# Writing

Everything that goes to the peer passes through one queue, and one writer takes it from there: frames are written whole and in
order. The writer ends at a request to close, at the first write that fails, or when nobody can queue any more; it then closes
the sink, once.
-/

namespace Parley

/-- What is queued for a writer. -/
inductive Outbound (β : Type) where
  | frame (b : β)
  /-- What is queued before this is to be written, and then the sink closed. -/
  | close
  deriving BEq, DecidableEq, Repr

/-- A function on what is queued. -/
def Outbound.map {β γ : Type} (f : β → γ) : Outbound β → Outbound γ
  | .frame b => .frame (f b)
  | .close => .close

/-- Where frames are written. -/
structure Sink where
  /-- What was written. -/
  written : List Bytes := []
  /-- The write that comes after so many frames fails. -/
  failAt : Option Nat := none
  /-- Closing fails. -/
  failClose : Bool := false
  /-- Whether closing went well, once the sink was closed. -/
  closed : Option Bool := none
  deriving Repr

namespace Sink

/-- Writes a frame, unless that fails. -/
def write (s : Sink) (b : Bytes) : Option Sink :=
  if s.failAt = some s.written.length then none else some { s with written := s.written ++ [b] }

/-- Closes the sink. -/
def close (s : Sink) : Sink := { s with closed := some !s.failClose }

/-- The sink was closed, and its writer has ended. -/
def isClosed (s : Sink) : Bool := s.closed.isSome

/-- From now on, writing fails. -/
def sever (s : Sink) : Sink := { s with failAt := some s.written.length }

/-- Writes what is queued, up to a request to close or a failure. -/
def drain : List (Outbound Bytes) → Sink → Sink
  | [], s => s
  | .close :: _, s => s.close
  | .frame b :: rest, s =>
    match s.write b with
    | some s => drain rest s
    | none => s.close

end Sink

/-- A writer with its queue. -/
structure Writer where
  queue : List (Outbound Bytes) := []
  sink : Sink := {}
  deriving Repr

namespace Writer

/-- The writer has ended. -/
def isFinished (w : Writer) : Bool := w.sink.isClosed

/-- Queues a frame; false if the writer has ended. -/
def send (w : Writer) (b : Bytes) : Bool × Writer :=
  if w.isFinished then (false, w) else (true, { w with queue := w.queue ++ [.frame b] })

/-- Asks the writer to end. That nobody can queue any more has the same effect. -/
def close (w : Writer) : Writer := if w.isFinished then w else { w with queue := w.queue ++ [.close] }

/-- The writer writes what is queued. -/
def settle (w : Writer) : Writer := if w.isFinished then w else ⟨[], w.sink.drain w.queue⟩

end Writer

end Parley
