import Parley.Handler.Typed

/-!
# Worker pools

A pool has so many permits, and whoever wants a blocking job done needs one. A semaphore hands each free permit to somebody who waits;
he takes it on at his next turn, unless his token has fired, and from there on the thread has it that does the job, until the job has
ended. One who goes away gives back the permit that he was handed, but a job that was begun goes on without him. A turn is one event:
a token that fires in the middle of it, behind the look at it, counts as fired behind the turn.
-/

namespace Parley

namespace Pool

/-- How far an errand has come. -/
inductive Stage where
  /-- It waits for a permit. -/
  | waiting
  /-- It was handed a permit, and its job is begun at the next turn. -/
  | granted
  /-- A thread has the permit and does the job. -/
  | working
  /-- The thread is through. -/
  | ended (r : Except JoinFault Outcome)
  /-- It came to nothing, and there was no job. -/
  | left

/-- Who waits for the outcome of an errand. -/
inductive Caller where
  | waits
  | answered (o : Outcome)
  | gone

/-- A job that somebody wants done. -/
structure Errand where
  /-- Its token has fired. -/
  fired : Bool
  stage : Stage := .waiting
  caller : Caller := .waits

namespace Errand

/-- It has a permit. -/
def holds (e : Errand) : Bool :=
  match e.stage with
  | .granted | .working => true
  | .waiting | .ended _ | .left => false

/-- The turn of the one who waits, who looks at the token first; true if a permit is given back. -/
def poll (e : Errand) : Errand × Bool :=
  match e.caller, e.stage with
  | .waits, .waiting => if e.fired then ({ e with stage := .left, caller := .answered (.error .cancelled) }, false) else (e, false)
  | .waits, .granted =>
    if e.fired then ({ e with stage := .left, caller := .answered (.error .cancelled) }, true)
    else ({ e with stage := .working }, false)
  | .waits, .ended r => ({ e with caller := .answered (Outcome.ofThread r) }, false)
  | _, _ => (e, false)

/-- The one who waits goes away; true if a permit is given back. -/
def drop (e : Errand) : Errand × Bool :=
  match e.caller, e.stage with
  | .waits, .waiting => ({ e with stage := .left, caller := .gone }, false)
  | .waits, .granted => ({ e with stage := .left, caller := .gone }, true)
  | .waits, _ => ({ e with caller := .gone }, false)
  | _, _ => (e, false)

/-- The thread is through with the job, and the permit is given back. -/
def finish (r : Except JoinFault Outcome) (e : Errand) : Errand × Bool :=
  match e.stage with
  | .working => ({ e with stage := .ended r }, true)
  | _ => (e, false)

/-- The token fires. -/
def fire (e : Errand) : Errand × Bool := ({ e with fired := true }, false)

end Errand

/-- What can happen around a pool. Errands are numbered from 0. -/
inductive Event where
  | submit (fired : Bool)
  /-- The semaphore hands a permit to one who waits. -/
  | grant (n : Nat)
  | poll (n : Nat)
  | fire (n : Nat)
  | drop (n : Nat)
  | finish (n : Nat) (r : Except JoinFault Outcome)

end Pool

/-- A worker pool. -/
structure Pool where
  /-- How many permits there are. -/
  workers : Nat
  /-- How many of them are free. -/
  idle : Nat
  /-- All that was wanted of it. -/
  errands : List Pool.Errand := []

namespace Pool

/-- A pool of so many workers; no pool is empty. -/
def make (workers : Nat) : Pool :=
  let size := Nat.max workers 1
  { workers := size, idle := size }

/-- Somebody wants a job done. -/
def submit (p : Pool) (fired : Bool) : Pool := { p with errands := p.errands ++ [{ fired }] }

/-- Hands a free permit to an errand that waits. -/
def grant (p : Pool) (n : Nat) : Pool :=
  match p.errands[n]? with
  | some e =>
    match e.stage, p.idle with
    | .waiting, k + 1 => { p with idle := k, errands := p.errands.set n { e with stage := .granted } }
    | _, _ => p
  | none => p

/-- Something happens to an errand, which may give a permit back. -/
def touch (p : Pool) (n : Nat) (f : Errand → Errand × Bool) : Pool :=
  match p.errands[n]? with
  | some e => { p with idle := p.idle + (f e).2.toNat, errands := p.errands.set n (f e).1 }
  | none => p

/-- What an event makes of a pool. -/
def step (p : Pool) : Event → Pool
  | .submit fired => p.submit fired
  | .grant n => p.grant n
  | .poll n => p.touch n Errand.poll
  | .fire n => p.touch n Errand.fire
  | .drop n => p.touch n Errand.drop
  | .finish n r => p.touch n (Errand.finish r)

/-- What some events make of a pool, one after another. -/
def follow (p : Pool) (events : List Event) : Pool := events.foldl step p

/-- The outcome of an errand, if its caller has it. -/
def outcome? (p : Pool) (n : Nat) : Option Outcome :=
  match p.errands[n]? with
  | some { caller := .answered o, .. } => some o
  | _ => none

end Pool

end Parley
