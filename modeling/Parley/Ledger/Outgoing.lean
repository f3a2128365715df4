import Parley.Ledger.Failure
import Parley.Table

/-!
# Requests to the peer

The requests that we sent and that are not answered. Whoever sends a request gets a handle, and each handle gets one answer at
most. Registering an id again drops the handle registered before.
-/

namespace Parley

/-- What a handle gets. -/
inductive Answer where
  | reply (r : PeerReply)
  /-- Another request took the id over. -/
  | dropped
  deriving Repr

/-- The reply that whoever waits for the handle sees. -/
def Answer.toReply : Answer → PeerReply
  | .reply r => r
  | .dropped => .error .closed

/-- A request that waits for its answer. -/
structure Pending where
  method : String
  handle : Nat
  deriving Repr

/-- The requests that wait for answers, and the answers given so far. Handles are numbered from 0. -/
structure Outgoing where
  pending : Table MessageId Pending := {}
  /-- No more requests are accepted. -/
  closed : Bool := false
  /-- How many handles were made. -/
  handles : Nat := 0
  /-- The answers, in the order in which they were given. -/
  answers : List (Nat × Answer) := []
  deriving Repr

namespace Outgoing

/-- The number of requests that wait for answers. -/
def size (l : Outgoing) : Nat := l.pending.size

/-- The answer that a handle has got. -/
def answer? (l : Outgoing) (handle : Nat) : Option Answer :=
  (l.answers.find? fun a => a.1 = handle).map (·.2)

/-- Gives an answer to a handle. -/
def give (l : Outgoing) (handle : Nat) (a : Answer) : Outgoing := { l with answers := l.answers ++ [(handle, a)] }

/-- Registers a request and makes its handle, unless the table is closed. -/
def register? (l : Outgoing) (id : MessageId) (method : String) : Option (Nat × Outgoing) :=
  if l.closed then none
  else
    let l' :=
      match l.pending.find? id with
      | some old => l.give old.handle .dropped
      | none => l
    some (l'.handles, { l' with pending := l'.pending.insert id ⟨method, l'.handles⟩, handles := l'.handles + 1 })

/-- A handle that is answered from the start. -/
def settled (l : Outgoing) (r : PeerReply) : Nat × Outgoing :=
  (l.handles, { l.give l.handles (.reply r) with handles := l.handles + 1 })

/-- Answers a request and gives its method, if one of that id waits. -/
def resolve (l : Outgoing) (id : MessageId) (r : PeerReply) : Option String × Outgoing :=
  match l.pending.find? id with
  | some p => (some p.method, { l.give p.handle (.reply r) with pending := l.pending.erase id })
  | none => (none, l)

/-- Fails every request that waits and accepts no more; says how many failed. -/
def closeAll (l : Outgoing) : Nat × Outgoing :=
  (l.size,
   { l with
     closed := true
     pending := {}
     answers := l.answers ++ l.pending.values.map fun p => (p.handle, .reply (.error .closed)) })

end Outgoing

end Parley
