import Parley.Handler.Routine

/-!
# Handlers

A handler is a body with a mode. What a handler does for a call depends on the call and on the site alone, whatever the mode.
-/

namespace Parley

/-- A call of a handler. -/
structure Call where
  /-- The request that the call serves, if it serves one. -/
  id : Option MessageId
  method : String
  token : Token
  params : Json

namespace Call

/-- The params as a value of a shape. -/
def read (c : Call) (shape : Shape) : Except Failure Json :=
  match shape.read c.params with
  | .ok v => .ok v
  | .error m => .error (.invalidParams m.message)

/-- How a call is shown. -/
def describe (c : Call) (cancelled : Bool) : String :=
  "RequestContext \x7b id: " ++
    (match c.id with
    | some id => "Some(" ++ id.describe ++ ")"
    | none => "None") ++
    ", method: " ++ Text.quoted c.method ++ ", cancelled: " ++ toString cancelled ++ " \x7d"

end Call

/-- A handler. A direct handler ends at once, the others are routines. -/
inductive Handler (α : Type) where
  | direct (run : Call → Site α → Outcome × Site α)
  | coroutine (body : Call → Routine α)
  | threaded (body : Call → Routine α)

namespace Handler

variable {α : Type}

/-- The mode of a handler. -/
def mode : Handler α → Mode
  | .direct _ => .direct
  | .coroutine _ => .coroutine
  | .threaded _ => .threaded

/-- The routine of a handler. -/
def routine : Handler α → Call → Routine α
  | .direct run, c => .acting (run c) .done
  | .coroutine body, c => body c
  | .threaded body, c => body c

/-- The handler made to run on a worker, which a coroutine cannot. -/
def onWorker : Handler α → Except RegistrationFault (Handler α)
  | .direct run => .ok (.threaded (routine (.direct run)))
  | .threaded body => .ok (.threaded body)
  | .coroutine _ => .error .coroutineOnWorker

/-- A direct handler of typed params. -/
def directOf (shape : Shape) (run : Call → Json → Site α → Outcome × Site α) : Handler α :=
  .direct fun c s =>
    match c.read shape with
    | .ok params => run c params s
    | .error f => (.error f, s)

/-- A routine of typed params. -/
def typedBody (shape : Shape) (body : Call → Json → Routine α) (c : Call) : Routine α :=
  match c.read shape with
  | .ok params => body c params
  | .error f => .done (.error f)

end Handler

end Parley
