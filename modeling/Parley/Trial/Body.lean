import Parley.Trial.Script

/-!
# Scripted handlers

A script made into a handler that logs its runs: `run` and its name once the params have been read, `end` or `err` and its name
when it ends. Nothing is logged when it breaks off.
-/

namespace Parley.Trial

/-- The body of a scripted handler. -/
inductive Body where
  | verb (v : Verb)
  /-- Reads the params as a value of a shape and computes the result from it. -/
  | compute (shape : Shape) (f : Json → Json)
  /-- Ends with a result that cannot be written. -/
  | unwritable
  /-- Breaks off before it begins. -/
  | breakOff (text : String)

variable {α : Type} [HasLog α]

/-- Logs that a handler of a name ends, and ends it. -/
def finish (name : String) : Next α
  | .ok v => note ("end " ++ name) (.done (.ok v))
  | .error f => note ("err " ++ name) (.done (.error f))

namespace Body

/-- The routine of a scripted handler of a name. -/
def routine (name : String) (b : Body) (c : Call) : Routine α :=
  let begun := note (α := α) ("run " ++ name)
  match b with
  | .verb v => begun (v.run c (finish name))
  | .compute shape f =>
    match c.read shape with
    | .ok params => begun (finish name (.ok (f params)))
    | .error f => .done (.error f)
  | .unwritable => begun (note ("end " ++ name) (.done (.error (.serialization .keyNotText))))
  | .breakOff text => begun (.done (.error (.panicked text)))

/-- Runs a routine that does not wait; one that does fails. -/
def runNow : Routine α → Site α → Outcome × Site α
  | .done o, s => (o, s)
  | .act update next, s => runNow (next s) (update s)
  | _, s => (.error (.failed "a direct handler cannot wait"), s)

/-- The scripted handler of a name and a mode. -/
def handler (name : String) (b : Body) : Mode → Handler α
  | .direct => .direct fun c s => runNow (b.routine name c) s
  | .coroutine => .coroutine (b.routine name)
  | .threaded => .threaded (b.routine name)

end Body

end Parley.Trial
