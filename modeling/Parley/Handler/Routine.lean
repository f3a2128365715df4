import Parley.Connection.Basic

/-!
# Routines

The body of a handler, as a tree of what it does: it acts on the site it works at, waits, asks the peer, calls another handler,
and ends with an outcome. A routine can be stopped between any two of its nodes, and nowhere else.
-/

namespace Parley

/-- Where handlers work: the connection, and whatever else the program keeps. -/
structure Site (α : Type) where
  connection : Connection
  own : α

namespace Site

variable {α : Type}

/-- Sends a request and gives its handle. -/
def request (method : String) (params : Json) (s : Site α) : Nat × Site α :=
  let (handle, connection) := s.connection.request method params
  (handle, { s with connection })

/-- Sends a notification; false if the writer is gone. -/
def notify (method : String) (params : Json) (s : Site α) : Bool × Site α :=
  let (sent, connection) := s.connection.notify method params
  (sent, { s with connection })

/-- Fails a request of ours as cancelled and asks the peer to cancel it; false if the writer is gone. -/
def cancelRequest (id : MessageId) (s : Site α) : Bool × Site α :=
  let (sent, connection) := s.connection.cancelRequest id
  (sent, { s with connection })

/-- Releases everything that depends on the connection. -/
def teardown (s : Site α) : Site α := { s with connection := s.connection.teardown }

end Site

/-- What a routine can wait for. -/
inductive Wait where
  /-- That its call is cancelled. -/
  | cancellation
  /-- A permit of a gate, which is taken. -/
  | permit (gate : String)
  /-- That a latch is released. -/
  | latch (name : String)
  /-- That some milliseconds pass. -/
  | time (ms : Nat)
  | forever
  deriving DecidableEq, Repr

/-- What a handler does. -/
inductive Routine (α : Type) where
  | done (o : Outcome)
  /-- Acts on the site, and goes on as the site was before. -/
  | act (update : Site α → Site α) (next : Site α → Routine α)
  /-- Waits for the reply to a request of ours. -/
  | reply (handle : Nat) (next : PeerReply → Routine α)
  | wait (w : Wait) (next : Routine α)
  /-- Calls a feature of the user and goes on with its outcome, or with none if there is no such feature. Any other handler can be
  called by a name of its own for which it is registered. -/
  | invoke (name : String) (params : Json) (next : Option Outcome → Routine α)

namespace Routine

variable {α : Type}

instance : Inhabited (Routine α) := ⟨.done (.ok .null)⟩

/-- Acts on the site with a result, and goes on with the result. -/
def acting {ρ : Type} (f : Site α → ρ × Site α) (next : ρ → Routine α) : Routine α :=
  .act (fun s => (f s).2) fun s => next (f s).1

/-- Sends a request and goes on with the reply. -/
def call (method : String) (params : Json) (next : PeerReply → Routine α) : Routine α :=
  acting (Site.request method params) fun handle => .reply handle next

end Routine

end Parley
