import Parley.Handler.Basic

/-!
# Typed functions as handlers

Most handlers are functions: they take params of a type, and return a result, fail or break off. Such a function can be made into a
handler of each mode, and each mode has its own way from what the function does to the outcome of the call. A blocking function is
called where its panic is caught, on the thread of the session or by the worker that it is handed to. An asynchronous one is called
for a future, which is run afterwards, and either can break off.
-/

namespace Parley

/-- What a function leaves behind that breaks off. -/
inductive Panic where
  /-- A text of the program. -/
  | literal (text : String)
  /-- A text that was put together. -/
  | formatted (text : String)
  /-- Anything else. -/
  | other
  deriving DecidableEq, Repr

/-- The wording of a panic. -/
def Panic.message : Panic → String
  | .literal text | .formatted text => text
  | .other => "unknown panic payload"

/-- What becomes of something that is tried. -/
inductive Attempt (ρ : Type) where
  | returns (r : ρ)
  | panics (p : Panic)

namespace Attempt

/-- What is done with the result, unless there is none. -/
def map {ρ σ : Type} (f : ρ → σ) : Attempt ρ → Attempt σ
  | .returns r => .returns (f r)
  | .panics p => .panics p

/-- The outcome of a call where panics are caught. -/
def caught : Attempt Outcome → Outcome
  | .returns o => o
  | .panics p => .error (.panicked p.message)

end Attempt

/-- Why a thread gives no result to the one who waits for it. -/
inductive JoinFault where
  | panicked (p : Panic)
  /-- The thread was not run. -/
  | aborted (text : String)

/-- What a thread gives to the one who waits for it. -/
def Attempt.joined {ρ : Type} : Attempt ρ → Except JoinFault ρ
  | .returns r => .ok r
  | .panics p => .error (.panicked p)

/-- The outcome of a call that was handed to a worker. -/
def Outcome.ofThread : Except JoinFault Outcome → Outcome
  | .ok o => o
  | .error (.panicked p) => .error (.panicked p.message)
  | .error (.aborted text) => .error (.failed text)

/-- A function of typed params with results of a type. -/
structure TypedFunction (ρ : Type) where
  /-- The params it takes. -/
  shape : Shape
  body : Json → Attempt (Except Failure ρ)
  /-- How a result is written. -/
  write : ρ → Except PayloadFault Json

/-- How a function is made into a handler. -/
inductive Registration where
  | direct
  /-- The function may break off before there is a future. -/
  | coroutine (early : Bool)
  | threaded
  /-- A direct handler that is made to run on a worker. -/
  | offloaded
  deriving DecidableEq, Repr

/-- The mode of the handler. -/
def Registration.mode : Registration → Mode
  | .direct => .direct
  | .coroutine _ => .coroutine
  | .threaded | .offloaded => .threaded

namespace TypedFunction

variable {ρ α : Type}

/-- The outcome of a function that has ended: a result is written. -/
def ending (F : TypedFunction ρ) : Except Failure ρ → Outcome
  | .ok r => (F.write r).mapError .serialization
  | .error f => .error f

/-- A call of the function as a blocking one: the params are read first. -/
def blocking (F : TypedFunction ρ) (c : Call) : Attempt Outcome :=
  match c.read F.shape with
  | .ok params => (F.body params).map F.ending
  | .error f => .returns (.error f)

/-- A call of the function as an asynchronous one: the future, which may break off when it is run. -/
def future (F : TypedFunction ρ) (early : Bool) (c : Call) : Attempt (Attempt Outcome) :=
  match c.read F.shape with
  | .ok params =>
    match early, F.body params with
    | true, .panics p => .panics p
    | _, a => .returns (a.map F.ending)
  | .error f => .returns (.returns (.error f))

/-- The outcome of a future, which is caught where it is made and where it is run. -/
def awaited : Attempt (Attempt Outcome) → Outcome
  | .returns a => a.caught
  | .panics p => .error (.panicked p.message)

/-- The function as a direct handler. -/
def direct (F : TypedFunction ρ) : Handler α := .direct fun c s => ((F.blocking c).caught, s)

/-- The function as a coroutine. -/
def coroutine (F : TypedFunction ρ) (early : Bool) : Handler α := .coroutine fun c => .done (awaited (F.future early c))

/-- The function as a threaded handler. -/
def threaded (F : TypedFunction ρ) : Handler α := .threaded fun c => .done (Outcome.ofThread (F.blocking c).joined)

/-- The handler that is made of the function. -/
def register (F : TypedFunction ρ) : Registration → Except RegistrationFault (Handler α)
  | .direct => .ok F.direct
  | .coroutine early => .ok (F.coroutine early)
  | .threaded => .ok F.threaded
  | .offloaded => Handler.onWorker F.direct

end TypedFunction

end Parley
