import Parley.Session.Turn

/-!
# Running

A session runs by turns: the loop takes payloads as long as there are any, the writer writes what is queued, and each fiber goes
on until it waits. When nobody has a turn, the workers go on, one after the other; when these wait too, the time that has come is
noticed. `Session.run` goes on like this until all wait.
-/

namespace Parley

open Parley.Frame (Reading)

namespace Session

variable {α : Type}

/-- Begins a call as a fiber that has a turn later. -/
def spawn (s : Session α) (f : Fiber α) : Session α :=
  { s.store s.nextFiber f with nextFiber := s.nextFiber + 1 }.enqueue (.fiber s.nextFiber)

/-- The fiber of a job. A job without a handler fails. -/
def fiberOf (s : Session α) (j : Job) : Fiber α :=
  let routine :=
    match s.handlers.find? j.origin j.name with
    | some h => h.routine j.call
    | none => .done (.error (.failed "no handler"))
  { job := some j
    call := j.call
    guarded := j.isGuarded
    place := if j.mode = .threaded then .queued else .here
    routine }

/-- Runs a direct handler. -/
def runDirect (s : Session α) (j : Job) : Outcome × Session α :=
  match s.handlers.find? j.origin j.name with
  | some (.direct run) =>
    let (o, site) := run j.call s.site
    (o, { s with site }.rouse)
  | _ => (.error (.failed "no handler"), s)

/-- Hands the outcome of a job to the connection, which may have a next job. -/
def handBack (s : Session α) (j : Job) (o : Outcome) : Session α × Option Job :=
  let (connection, next) := s.site.connection.complete j o
  ((s.withConnection connection).rouse, next)

/-- Hands the outcome of a job to the connection and begins the job that follows: a direct one is done at once. -/
def settle (s : Session α) (j : Job) (o : Outcome) : Session α :=
  match s.handBack j o with
  | (s, none) => s
  | (s, some next) =>
    if next.mode = .direct then
      let (o, s) := s.runDirect next
      (s.handBack next o).1
    else s.spawn (s.fiberOf next)

/-- A fiber has a turn; the outcome is there if it ends. A fiber that ends early leaves its worker at work. -/
def driveFiber (s : Session α) (n : Nat) (f : Fiber α) : Session α :=
  if f.guarded && s.isFired f.call.token then
    let s := s.giveBack f
    let s :=
      if f.place = .worker then s.store n { f with job := none, guarded := false, callers := [] }
      else { s with fibers := s.fibers.erase n }
    match f.job with
    | some j => s.settle j (.error .cancelled)
    | none => s
  else
    match s.drive turnBound n f with
    | (s, .waits f) => s.park n f
    | (s, .ends o) =>
      let s := { s with fibers := s.fibers.erase n }
      match f.job with
      | some j => s.settle j o
      | none => s

/-- Hands a payload to the connection. The fiber is the one whose outcome is waited for, if there is one. -/
def receive (s : Session α) (payload : Bytes) : Session α × Option Nat :=
  let (connection, job) := s.site.connection.receive payload
  let s := (s.withConnection connection).rouse
  match job with
  | none => (s, none)
  | some j =>
    if j.mode = .direct then
      let (o, s) := s.runDirect j
      (s.settle j o, none)
    else if j.isInline then
      let n := s.nextFiber
      let s := { s with nextFiber := n + 1 }.driveFiber n (s.fiberOf j)
      (s, if s.fibers.contains n then some n else none)
    else (s.spawn (s.fiberOf j), none)

/-- The loop ends, and the connection with it. -/
def finish (s : Session α) (r : Reason) : Session α :=
  { s.withConnection s.site.connection.teardown with intake := .ended r }.rouse

/-- Reports a failure of the transport. -/
def report (s : Session α) (kind : ReportKind) (text : String) : Session α :=
  s.withConnection (s.site.connection.report kind text)

/-- The loop takes payloads until none has arrived. It ends when `exit` was processed, when it is told to, when the source ends or
fails; a fault that is not fatal is reported. A call to the framer that breaks off breaks the loop off. -/
def takePayloads : Nat → Session α → Session α
  | 0, s => s
  | fuel + 1, s =>
    if s.stopping then s.finish .stopped
    else
      match s.site.connection.exitCode with
      | some code => s.finish (.exit code)
      | none =>
        match s.source.next with
        | none => s
        | some (r, source) =>
          let s := { s with source }
          match r with
          | .payload payload =>
            match s.receive payload with
            | (s, some n) => { s with intake := .busy n }
            | (s, none) =>
              match s.site.connection.exitCode with
              | some code => s.finish (.exit code)
              | none => takePayloads fuel s
          | .ended => s.finish .peerClosed
          | .fault f =>
            if f.breaksOff then { s with intake := .broken }
            else if f.isFatal then (s.report .transport f.message).finish (.transportError f.message)
            else takePayloads fuel (s.report .decode f.message)

/-- The bound on the payloads that the loop takes in one turn. -/
def payloadBound : Nat := 1000000

/-- The outcome that the loop waited for is there. -/
def proceed (s : Session α) : Session α :=
  match s.site.connection.exitCode with
  | some code => s.finish (.exit code)
  | none => { s with intake := .reading }.takePayloads payloadBound

/-- The writer writes what is queued. When it ends, whatever is queued later is lost. -/
def write (s : Session α) : Session α :=
  match s.sink with
  | none => s
  | some sink =>
    if sink.isClosed then s
    else
      let sink := sink.drain (s.site.connection.queue.map (·.map (Message.write s.framed)))
      let connection :=
        if sink.isClosed then s.site.connection.dropWriter else { s.site.connection with queue := [] }
      { s.withConnection connection with sink := some sink }

/-- An actor has its turn. -/
def turn (s : Session α) : Actor → Session α
  | .writer => s.write
  | .loop => if s.intake = .reading then s.takePayloads payloadBound else s
  | .fiber n =>
    match s.fibers.find? n with
    | none => s
    | some f =>
      let s := s.driveFiber n f
      if s.intake = .busy n && !s.fibers.contains n then s.proceed else s

/-- A routine on a worker goes on until it ends or has to wait; says whether it did anything. -/
def driveWorker : Nat → Session α → Fiber α → Bool → Session α × Fiber α × Bool
  | 0, s, f, moved => (s, f, moved)
  | fuel + 1, s, f, moved =>
    match f.routine with
    | .done _ => (s, f, true)
    | .act update next => driveWorker fuel { s with site := update s.site }.rouse { f with routine := next s.site } true
    | .reply handle next =>
      match s.answer? handle with
      | some r => driveWorker fuel s { f with routine := next r } true
      | none => (s, f, moved)
    | .wait w next =>
      match s.pass? f w with
      | some s => driveWorker fuel s { f with routine := next, granted := false, deadline := none } true
      | none => (s, s.timed f, moved)
    | .invoke _ _ next => driveWorker fuel s { f with routine := next none } true

/-- A fiber on a worker goes on, if it can. When its routine has ended the worker is free, and the fiber has a turn. -/
def stepWorker (s : Session α) (n : Nat) : Option (Session α) :=
  match s.fibers.find? n with
  | none => none
  | some f =>
    match s.driveWorker turnBound f false with
    | (_, _, false) => none
    | (s, f, true) =>
      match f.routine with
      | .done _ =>
        let s := { s.store n { f with place := .here } with running := s.running.filter (· ≠ n) }.freeWorker
        some (s.wake n)
      | _ => some (s.store n f)

/-- The first worker that can go on does. -/
def stepWorkers (s : Session α) : Option (Session α) := s.running.findSome? s.stepWorker

/-- The fibers whose time has come get turns. -/
def stepTimers (s : Session α) : Option (Session α) :=
  let due := s.parked.filter fun n =>
    match s.fibers.find? n with
    | some f => !f.granted && f.awaitsTime && f.deadline.any (· ≤ s.clock)
    | none => false
  if due.isEmpty then none
  else some (due.foldl (fun s n => match s.fibers.find? n with | some f => s.grant n f | none => s) s)

/-- Goes on until all wait; `fuel` bounds the turns. -/
def run : Nat → Session α → Session α
  | 0, s => s
  | fuel + 1, s =>
    match s.ready with
    | a :: rest => run fuel ({ s with ready := rest }.turn a)
    | [] =>
      match s.stepWorkers with
      | some s => run fuel s
      | none =>
        match s.stepTimers with
        | some s => run fuel s
        | none => s

/-- The bound on the turns between two events from outside. -/
def runBound : Nat := 1000000

/-- Goes on until all wait. -/
def settleAll (s : Session α) : Session α := s.run runBound

end Session

end Parley
