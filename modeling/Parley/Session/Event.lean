import Parley.Session.Run

/-!
# Events

What happens to a session from outside: bytes arrive, the peer closes, someone stops the session, releases a gate or lets time
pass, or our side sends a request. Each event only makes the session ready to go on, and `Session.settleAll` lets it; but time
passes from one deadline to the next, and at each the session goes on until all wait.
-/

namespace Parley

namespace Session

variable {α : Type}

/-- A session over a connection with handlers and so many workers; no pool is empty. -/
def make (handlers : Registry (Handler α)) (catalogue : Catalogue) (workers : Nat) (own : α) : Session α :=
  let size := Nat.max workers 1
  { site := { connection := { routes := handlers.map Handler.mode, catalogue }, own }
    handlers
    workers := size
    idle := size }

/-- Begins to take payloads from a source. -/
def start (s : Session α) (source : Source) : Session α := { s with intake := .reading, source }.enqueue .loop

/-- The loop looks at its source again. -/
def nudge (s : Session α) : Session α := if s.intake = .reading then s.enqueue .loop else s

/-- Bytes arrive. Without a loop they are a payload for the connection. -/
def feed (s : Session α) (bytes : Bytes) : Session α :=
  if s.intake = .none then (s.receive bytes).1 else { s with source := s.source.push bytes }.nudge

/-- The peer closes the transport. -/
def close (s : Session α) : Session α := { s with source := s.source.close }.nudge

/-- A message transport has a fault. -/
def fail (s : Session α) (f : Frame.FrameFault) : Session α := { s with source := s.source.fail f }.nudge

/-- The session is told to stop. -/
def stop (s : Session α) : Session α := { s with stopping := true }.rouse

/-- Releases the latch and adds a permit to the gate of a name. -/
def release (s : Session α) (name : String) : Session α :=
  ({ s with latches := name :: s.latches }.addPermit name).rouse

/-- Acts on the site. -/
def act {ρ : Type} (s : Session α) (f : Site α → ρ × Site α) : ρ × Session α :=
  let (r, site) := f s.site
  (r, { s with site }.rouse)

/-- Begins a routine on its own. -/
def begin (s : Session α) (r : Routine α) : Session α :=
  s.spawn { job := none, call := ⟨none, "", .connection, .null⟩, routine := r }

/-- Takes what is queued for a writer that is not part of the session. -/
def takeQueue (s : Session α) : List (Outbound Message) × Session α :=
  (s.site.connection.queue, s.withConnection { s.site.connection with queue := [] })

/-- Nobody takes any more what is queued. -/
def dropWriter (s : Session α) : Session α := s.withConnection s.site.connection.dropWriter

/-- What the writer has written. -/
def written (s : Session α) : List Bytes := (s.sink.map Sink.written).getD []

/-- The reader of what is written is gone. -/
def sever (s : Session α) : Session α := { s with sink := s.sink.map Sink.sever }

/-- The deadlines that fibers wait for. -/
def deadlines (s : Session α) : List Nat :=
  s.parked.filterMap fun n =>
    match s.fibers.find? n with
    | some f => if f.granted then none else f.deadline
    | none => none

/-- Lets time pass up to a moment; `fuel` bounds the deadlines on the way. -/
def passTime : Nat → Nat → Session α → Session α
  | 0, _, s => s
  | fuel + 1, moment, s =>
    match (s.deadlines.filter (· ≤ moment)).min? with
    | some d => passTime fuel moment { s with clock := Nat.max s.clock d }.settleAll
    | none => { s with clock := moment }

/-- The bound on the deadlines that one span of time has. -/
def deadlineBound : Nat := 1000000

/-- Lets milliseconds pass. -/
def advance (s : Session α) (ms : Nat) : Session α := s.settleAll.passTime deadlineBound (s.clock + ms)

/-- Why the session ended: its loop has, and so has its writer. -/
def ended? (s : Session α) : Option Reason :=
  match s.intake with
  | .ended r => if s.sink.all Sink.isClosed then some r else none
  | _ => none

end Session

end Parley
