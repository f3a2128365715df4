import Parley.Message.Id
import Parley.Table

/-!
# Requests of the peer

The requests that are being served, each with a token that says whether it was cancelled. A token outlives the request it was
made for, and an id that is used again gets a token of its own. A connection has a token too: once it fires, every token of the
connection has fired.
-/

namespace Parley

/-- What can be cancelled: a connection as a whole, or one request. -/
inductive Token where
  | connection
  | request (n : Nat)
  deriving DecidableEq, Repr

/-- The requests being served, and the tokens made so far. Tokens are numbered from 0. -/
structure Incoming where
  entries : Table MessageId Nat := {}
  /-- How many tokens were made. -/
  tokens : Nat := 0
  /-- The tokens of requests that were cancelled. -/
  fired : List Nat := []
  /-- The connection was cancelled. -/
  closed : Bool := false
  deriving Repr

namespace Incoming

/-- A token has fired. -/
def isFired (l : Incoming) : Token → Bool
  | .connection => l.closed
  | .request n => l.closed || l.fired.contains n

/-- The number of requests being served. -/
def size (l : Incoming) : Nat := l.entries.size

/-- A request of this id is being served. -/
def contains (l : Incoming) (id : MessageId) : Bool := l.entries.contains id

/-- Begins to serve a request, unless one of that id is being served. -/
def begin? (l : Incoming) (id : MessageId) : Option (Nat × Incoming) :=
  if l.contains id then none
  else some (l.tokens, { l with entries := l.entries.insert id l.tokens, tokens := l.tokens + 1 })

/-- Ends serving a request; false if there is none of that id. -/
def finish (l : Incoming) (id : MessageId) : Bool × Incoming :=
  (l.contains id, { l with entries := l.entries.erase id })

/-- Cancels a request; false if there is none of that id. -/
def cancel (l : Incoming) (id : MessageId) : Bool × Incoming :=
  match l.entries.find? id with
  | some n => (true, { l with fired := n :: l.fired })
  | none => (false, l)

/-- Cancels every request but one, and says how many. -/
def cancelAllExcept (l : Incoming) (keep : MessageId) : Nat × Incoming :=
  let others := (l.entries.erase keep).values
  (others.length, { l with fired := others ++ l.fired })

/-- Cancels every request and ends serving it; says how many. -/
def purge (l : Incoming) : Nat × Incoming :=
  (l.size, { l with fired := l.entries.values ++ l.fired, entries := {} })

/-- Cancels the connection. -/
def close (l : Incoming) : Incoming := { l with closed := true }

end Incoming

end Parley
