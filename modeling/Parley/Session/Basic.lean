import Parley.Connection.Receive
import Parley.Handler.Basic

/-!
# Sessions

A session runs a connection: it takes payloads from a source, lets the handlers work, and writes what is queued to a sink. One
thread does everything but the bodies of threaded handlers, so that between two waits nothing else happens. This module has the
parts of a session; `Session.run` in the next ones lets it work until nothing can go on.
-/

namespace Parley

open Parley.Frame (Framer Reading)

/-- Where the routine of a fiber runs. -/
inductive Place where
  /-- On the thread of the session. -/
  | here
  /-- On a worker, as soon as one is free. -/
  | queued
  | worker
  deriving DecidableEq, Repr

/-- The call of a job. -/
def Job.call (j : Job) : Call := ⟨j.duty.id?, j.method, j.token, j.params⟩

/-- A call in progress. -/
structure Fiber (α : Type) where
  /-- What the outcome is for, if it is for anything. -/
  job : Option Job
  call : Call
  /-- The call ends as soon as its token fires. -/
  guarded : Bool := false
  place : Place := .here
  routine : Routine α
  /-- Who called the routine, the innermost first. -/
  callers : List (Option Outcome → Routine α) := []
  /-- When the time that the routine waits for is over. -/
  deadline : Option Nat := none
  /-- What the fiber waits for was given to it. -/
  granted : Bool := false

namespace Fiber

variable {α : Type}

/-- The fiber waits for a worker. -/
def awaitsWorker (f : Fiber α) : Bool := f.place = .queued

/-- The fiber waits for a permit of a gate. -/
def awaitsPermit (gate : String) (f : Fiber α) : Bool :=
  match f.place, f.routine with
  | .here, .wait (.permit g) _ => g = gate
  | _, _ => false

/-- The fiber waits for the time. -/
def awaitsTime (f : Fiber α) : Bool :=
  match f.routine with
  | .wait (.time _) _ => true
  | _ => false

end Fiber

/-- Why a session ended. -/
inductive Reason where
  /-- `exit` was processed. -/
  | exit (code : Int)
  /-- The peer closed the connection. -/
  | peerClosed
  /-- The session was told to stop. -/
  | stopped
  | transportError (text : String)
  deriving DecidableEq, Repr

namespace Reason

/-- The exit code of a process that ends for a reason. -/
def exitCode : Reason → Int
  | .exit code => code
  | .stopped => 0
  | .peerClosed | .transportError _ => 1

/-- The name of a kind of reason. -/
def kind : Reason → String
  | .exit _ => "Exit"
  | .peerClosed => "PeerClosed"
  | .stopped => "Stopped"
  | .transportError _ => "TransportError"

/-- The record of a reason. -/
def toJson (r : Reason) : Json :=
  Json.object <|
    [("reason", .str r.kind), ("code", .int r.exitCode)] ++
      match r with
      | .transportError text => [("message", .str text)]
      | _ => []

end Reason

/-- Where payloads come from. -/
inductive Source where
  /-- A transport of whole messages. -/
  | queue (items : List Reading)
  /-- A stream of bytes, of which these have arrived and are not yet taken. -/
  | stream (framer : Framer) (bytes : Bytes) (closed : Bool)
  deriving Repr

namespace Source

/-- The next payload, the end or a fault; none if nothing has arrived. What follows the end is not looked at. -/
def next : Source → Option (Reading × Source)
  | .queue [] => none
  | .queue (.ended :: rest) => some (.ended, .queue (.ended :: rest))
  | .queue (r :: rest) => some (r, .queue rest)
  | .stream framer bytes closed =>
    (framer.next closed bytes).map fun (r, framer, bytes) => (r, .stream framer bytes closed)

/-- A payload of a message transport or bytes of a stream arrive. -/
def push (bytes : Bytes) : Source → Source
  | .queue items => .queue (items ++ [.payload bytes])
  | .stream framer arrived closed => .stream framer (if closed then arrived else arrived ++ bytes) closed

/-- Nothing more will arrive. -/
def close : Source → Source
  | .queue items => .queue (items ++ [.ended])
  | .stream framer bytes _ => .stream framer bytes true

/-- A message transport has a fault. -/
def fail (f : Frame.FrameFault) : Source → Source
  | .queue items => .queue (items ++ [.fault f])
  | s => s

end Source

/-- What the loop that takes payloads is doing. -/
inductive Intake where
  /-- There is no loop: payloads are handed in. -/
  | none
  | reading
  /-- It waits for the outcome of a job. -/
  | busy (fiber : Nat)
  | ended (r : Reason)
  /-- It broke off inside a call to the framer, and what it would have done at its end was not done. -/
  | broken
  deriving DecidableEq, Repr

/-- What can have a turn. -/
inductive Actor where
  | loop
  | writer
  | fiber (n : Nat)
  deriving DecidableEq, Repr

/-- A session. -/
structure Session (α : Type) where
  site : Site α
  handlers : Registry (Handler α)
  /-- Messages are written with header blocks. -/
  framed : Bool := true
  /-- The calls in progress. -/
  fibers : Table Nat (Fiber α) := {}
  /-- The number of the next fiber. -/
  nextFiber : Nat := 0
  /-- Who has a turn, in this order. -/
  ready : List Actor := []
  /-- The fibers that wait, in the order in which they began to. -/
  parked : List Nat := []
  /-- The fibers that are on workers, in the order in which they began to be. -/
  running : List Nat := []
  /-- The size of the worker pool. -/
  workers : Nat := 2
  /-- The workers that are free. -/
  idle : Nat := 2
  /-- The free permits of each gate. -/
  gates : Table String Nat := {}
  /-- The latches that were released. -/
  latches : List String := []
  /-- The time, in milliseconds. -/
  clock : Nat := 0
  intake : Intake := .none
  source : Source := .queue []
  /-- The session was told to stop. -/
  stopping : Bool := false
  /-- Where the writer writes, if there is one. -/
  sink : Option Sink := .none

namespace Session

variable {α : Type}

/-- The session with another connection. -/
def withConnection (s : Session α) (connection : Connection) : Session α := { s with site := { s.site with connection } }

/-- A token has fired. -/
def isFired (s : Session α) (t : Token) : Bool := s.site.connection.isFired t

/-- The answer that a request of ours has got. -/
def answer? (s : Session α) (handle : Nat) : Option PeerReply :=
  (s.site.connection.outgoing.answer? handle).map Answer.toReply

/-- A fiber with its new state. -/
def store (s : Session α) (n : Nat) (f : Fiber α) : Session α := { s with fibers := s.fibers.insert n f }

/-- A fiber begins to wait. -/
def park (s : Session α) (n : Nat) (f : Fiber α) : Session α := { s.store n f with parked := s.parked ++ [n] }

/-- Gives an actor a turn, unless it has one. -/
def enqueue (s : Session α) (a : Actor) : Session α :=
  if s.ready.contains a then s else { s with ready := s.ready ++ [a] }

/-- A fiber that waits gets a turn. -/
def wake (s : Session α) (n : Nat) : Session α :=
  { s with parked := s.parked.filter (· ≠ n) }.enqueue (.fiber n)

/-- The first fiber that waits for something of a kind and was not given it. -/
def firstWaiting (s : Session α) (waits : Fiber α → Bool) : Option (Nat × Fiber α) :=
  s.parked.findSome? fun n =>
    match s.fibers.find? n with
    | some f => if waits f && !f.granted then some (n, f) else none
    | none => none

/-- A fiber that waits gets what it waits for, and a turn. -/
def grant (s : Session α) (n : Nat) (f : Fiber α) : Session α := (s.store n { f with granted := true }).wake n

end Session

end Parley
