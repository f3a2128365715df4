import Parley.Session.Basic

/-!
# Turns

What happens when a fiber has a turn: its routine goes on until it ends or has to wait. Whatever a routine does may let others go
on, so after each of its actions the fibers that wait are looked at, in the order in which they began to wait (`Session.rouse`).
A guarded fiber whose token has fired ends at the next turn with the outcome of a cancelled call, and its routine does no more.
-/

namespace Parley

namespace Session

variable {α : Type}

/-- What the fiber waits for is there, or the fiber is to end. -/
def canGoOn (s : Session α) (f : Fiber α) : Bool :=
  (f.guarded && s.isFired f.call.token) ||
    match f.place with
    | .queued => f.granted || s.isFired f.call.token
    | .worker => false
    | .here =>
      match f.routine with
      | .reply handle _ => (s.answer? handle).isSome
      | .wait .cancellation _ => s.isFired f.call.token
      | .wait (.latch name) _ => s.latches.contains name
      | .wait _ _ => f.granted
      | _ => true

/-- The fibers that can go on get turns; so does the writer if something is queued, and the loop if the session is to end. -/
def rouse (s : Session α) : Session α :=
  let able := s.parked.filter fun n => ((s.fibers.find? n).map s.canGoOn).getD false
  let s := able.foldl wake s
  let s := if s.sink.any (!·.isClosed) && !s.site.connection.queue.isEmpty then s.enqueue .writer else s
  if s.intake = .reading ∧ (s.stopping ∨ s.site.connection.exitCode.isSome) then s.enqueue .loop else s

/-- A worker is free again: the first fiber that waits for one gets it. -/
def freeWorker (s : Session α) : Session α :=
  match s.firstWaiting Fiber.awaitsWorker with
  | some (n, f) => s.grant n f
  | none => { s with idle := s.idle + 1 }

/-- A gate has one more permit: the first fiber that waits for one gets it. -/
def addPermit (s : Session α) (gate : String) : Session α :=
  match s.firstWaiting (Fiber.awaitsPermit gate) with
  | some (n, f) => s.grant n f
  | none => { s with gates := s.gates.insert gate ((s.gates.find? gate).getD 0 + 1) }

/-- A fiber that ends early gives back what it was given. -/
def giveBack (s : Session α) (f : Fiber α) : Session α :=
  if f.granted then
    match f.place, f.routine with
    | .queued, _ => s.freeWorker
    | .here, .wait (.permit gate) _ => s.addPermit gate
    | _, _ => s
  else s

/-- Goes on behind a wait if what is waited for is there, which takes it. -/
def pass? (s : Session α) (f : Fiber α) : Wait → Option (Session α)
  | .cancellation => if s.isFired f.call.token then some s else none
  | .latch name => if s.latches.contains name then some s else none
  | .forever => none
  | .time _ => if f.granted then some s else none
  | .permit gate =>
    if f.granted then some s
    else
      match s.gates.find? gate with
      | some (k + 1) => some { s with gates := s.gates.insert gate k }
      | _ => none

/-- How a turn of a fiber ends. -/
inductive Pause (α : Type) where
  /-- The fiber waits. -/
  | waits (f : Fiber α)
  /-- The routine has ended, and nobody called it. -/
  | ends (o : Outcome)

/-- A fiber that begins to wait: the time that it waits for is counted from now. -/
def timed (s : Session α) (f : Fiber α) : Fiber α :=
  match f.deadline, f.routine with
  | none, .wait (.time ms) _ => { f with deadline := some (s.clock + ms) }
  | _, _ => f

/-- What a node of a routine leads to. -/
inductive Progress (α : Type) where
  /-- The routine goes on. -/
  | goesOn (f : Fiber α)
  /-- The turn is over. -/
  | pauses (p : Pause α)

/-- A fiber that waits for a worker is on one if it was given one or one is free, and waits on otherwise. -/
def seat (s : Session α) (n : Nat) (f : Fiber α) : Session α × Fiber α :=
  if f.granted then ({ s with running := s.running ++ [n] }, { f with place := .worker, granted := false })
  else if 0 < s.idle then
    ({ s with running := s.running ++ [n], idle := s.idle - 1 }, { f with place := .worker })
  else (s, f)

/-- A routine passes one node, or ends, or has to wait. A threaded routine waits for a worker first, and is refused if its token
fires before. -/
def node (s : Session α) (n : Nat) (f : Fiber α) : Session α × Progress α :=
  match f.place with
  | .worker => (s, .pauses (.waits f))
  | .queued =>
    if s.isFired f.call.token then
      match f.callers with
      | next :: callers =>
        (s.giveBack f,
          .goesOn { f with place := .here, routine := next (some (.error .cancelled)), callers, granted := false })
      | [] => (s.giveBack f, .pauses (.ends (.error .cancelled)))
    else
      let (s, f) := s.seat n f
      (s, .pauses (.waits f))
  | .here =>
    match f.routine with
    | .done o =>
      match f.callers with
      | next :: callers => (s, .goesOn { f with routine := next (some o), callers })
      | [] => (s, .pauses (.ends o))
    | .act update next => ({ s with site := update s.site }.rouse, .goesOn { f with routine := next s.site })
    | .reply handle next =>
      match s.answer? handle with
      | some r => (s, .goesOn { f with routine := next r })
      | none => (s, .pauses (.waits f))
    | .wait w next =>
      match s.pass? f w with
      | some s => (s, .goesOn { f with routine := next, granted := false, deadline := none })
      | none => (s, .pauses (.waits (s.timed f)))
    | .invoke name params next =>
      let call := { f.call with params }
      match s.handlers.find? .user name with
      | none => (s, .goesOn { f with routine := next none })
      | some (.threaded body) =>
        (s, .goesOn { f with routine := body call, callers := next :: f.callers, place := .queued })
      | some h => (s, .goesOn { f with routine := h.routine call, callers := next :: f.callers })

/-- A routine goes on until it ends or has to wait; `fuel` bounds the nodes it passes. -/
def drive : Nat → Session α → Nat → Fiber α → Session α × Pause α
  | 0, s, _, f => (s, .waits f)
  | fuel + 1, s, n, f =>
    match s.node n f with
    | (s, .goesOn f) => drive fuel s n f
    | (s, .pauses p) => (s, p)

/-- The bound on the nodes that a routine passes in one turn. -/
def turnBound : Nat := 1000000

end Session

end Parley
