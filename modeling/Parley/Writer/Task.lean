import Parley.Writer

/-!
# The writer at work

Whoever holds a sender can queue something while the writer is at work, so its work is a row of small steps, each as far as the next
place where others come between. How a call of the sink goes is up to the sink.
-/

namespace Parley

/-- A call that a writer made of its sink, and how it went. -/
inductive Sink.Call (β : Type) where
  | wrote (b : β)
  | failed (b : β)
  | closed (ok : Bool)
  deriving DecidableEq, Repr

namespace Writer

/-- How far a writer has come. -/
inductive Phase (β : Type) where
  /-- It takes the next of what is queued, or waits for that. -/
  | receiving
  /-- It waits for the sink to write a frame. -/
  | writing (b : β)
  /-- It takes nothing more, but the queue has not been closed yet. -/
  | leaving
  /-- The queue is closed, what was left in it is lost, and the writer waits for the sink to close. -/
  | closing
  | finished
  deriving DecidableEq, Repr

/-- A writer at work, with the queue before it and the calls behind it. -/
structure Task (β : Type) where
  /-- How many senders there are. -/
  senders : Nat := 1
  queue : List (Outbound β) := []
  phase : Phase β := .receiving
  calls : List (Sink.Call β) := []
  deriving DecidableEq, Repr

/-- What can happen to a writer. -/
inductive Event (β : Type) where
  | send (b : β)
  | close
  /-- A sender is copied. -/
  | clone
  /-- A sender is dropped. -/
  | drop
  /-- The writer goes on; what the sink had to do went well, or did not. -/
  | advance (ok : Bool)
  deriving DecidableEq, Repr

namespace Task

variable {β : Type}

/-- The queue takes what is sent. -/
def isOpen (t : Task β) : Bool :=
  match t.phase with
  | .receiving | .writing _ | .leaving => true
  | .closing | .finished => false

/-- The writer takes what is queued. -/
def isTaking (t : Task β) : Bool :=
  match t.phase with
  | .receiving | .writing _ => true
  | .leaving | .closing | .finished => false

/-- Puts something in the queue; false if the queue is closed. -/
def push (t : Task β) (x : Outbound β) : Bool × Task β :=
  if t.isOpen then (true, { t with queue := t.queue ++ [x] }) else (false, t)

/-- Queues a frame; false if the queue is closed. -/
def send (t : Task β) (b : β) : Bool × Task β := t.push (.frame b)

/-- Asks the writer to end. -/
def close (t : Task β) : Task β := (t.push .close).2

/-- The writer goes on: to its next call of the sink, or from there once the call has gone as it did. -/
def advance (t : Task β) (ok : Bool) : Task β :=
  match t.phase, t.queue with
  | .receiving, .frame b :: queue => { t with queue, phase := .writing b }
  | .receiving, .close :: queue => { t with queue, phase := .leaving }
  | .receiving, [] => if t.senders = 0 then { t with phase := .leaving } else t
  | .writing b, _ =>
    if ok then { t with phase := .receiving, calls := t.calls ++ [.wrote b] }
    else { t with phase := .leaving, calls := t.calls ++ [.failed b] }
  | .leaving, _ => { t with queue := [], phase := .closing }
  | .closing, _ => { t with phase := .finished, calls := t.calls ++ [.closed ok] }
  | .finished, _ => t

/-- What an event makes of a writer. Without a sender there is nobody who could send, close or copy. -/
def step (t : Task β) : Event β → Task β
  | .send b => if t.senders = 0 then t else (t.send b).2
  | .close => if t.senders = 0 then t else t.close
  | .clone => if t.senders = 0 then t else { t with senders := t.senders + 1 }
  | .drop => { t with senders := t.senders - 1 }
  | .advance ok => t.advance ok

/-- What some events make of a writer, one after another. -/
def run (t : Task β) (events : List (Event β)) : Task β := events.foldl step t

end Task

end Writer

end Parley
