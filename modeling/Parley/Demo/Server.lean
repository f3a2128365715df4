import Parley.Demo.Fibonacci
import Parley.Demo.Todo
import Parley.Server.Basic

/-!
# The demo server

A server with one feature of each mode, a command, and warnings for the reminders of documents that are opened.
-/

namespace Parley.Demo

variable {β : Type}

/-- A sum of 64 bits; a sum that does not fit breaks the handler off. -/
def addOutcome (a b : Int) : Outcome :=
  if -Nat.pow 2 63 ≤ a + b ∧ a + b < Nat.pow 2 63 then .ok (Json.object [("sum", .int (a + b))])
  else .error (.panicked "attempt to add with overflow")

/-- Adds two numbers. -/
def add : Handler (Served β) :=
  Handler.directOf (Shape.struct "AddParams" [Shape.req "a" Shape.i64, Shape.req "b" Shape.i64]) fun _ params s =>
    (addOutcome (params.intField "a") (params.intField "b"), s)

/-- Waits for some milliseconds. -/
def sleep : Handler (Served β) :=
  .coroutine <| Handler.typedBody (Shape.struct "SleepParams" [Shape.req "millis" Shape.u64]) fun _ params =>
    .wait (.time (params.intField "millis").toNat) (.done (.ok (params.valueField "millis")))

/-- Computes a Fibonacci number, unless the call is cancelled before the last step. No other call has a turn while it is computed, so
all the steps find the call as it is now. -/
def fibonacci : Handler (Served β) :=
  .threaded <| Handler.typedBody (Shape.struct "FibParams" [Shape.req "n" Shape.u32]) fun c params =>
    .act id fun s =>
      let term := fibonacciTerm (fun _ => s.connection.isFired c.token) (params.intField "n").toNat
      .done (term.map fun n => .str (toString n))

/-- The method by which a document is opened. -/
def didOpenMethod : String := "textDocument/didOpen"

/-- Publishes the reminders of a document that is opened. -/
def publishTodos : Handler (Served β) :=
  Handler.directOf (Catalogue.paramsShape didOpenMethod) fun _ params s =>
    let document := Document.ofJson (params.valueField "textDocument")
    let (sent, s) := s.notify Server.diagnosticsMethod
      (Server.diagnosticsParams ⟨document.uri⟩ ((TodoMark.ofText document.text).map TodoMark.toJson) (some document.version))
    (if sent then .ok .null else .error (.peer .closed), s)

/-- Greets the first name, or the world. -/
def hello : Handler (Served β) :=
  Handler.directOf (.list .text) fun _ params s =>
    let name := ((params.arr?.getD []).head?.bind Json.str?).getD "world"
    (.ok (.str ("Hello, " ++ name ++ "!")), s)

/-- The handlers of the demo, put beside others. -/
def register (r : Registry (Handler (Served β))) : Except RegistrationFault (Registry (Handler (Served β))) := do
  let r ← r.addFeature "math/add" add
  let r ← r.addFeature "demo/sleep" sleep
  let r ← r.addFeature "demo/fibonacci" fibonacci
  let r ← r.addFeature didOpenMethod publishTodos
  r.addCommand "hello" hello

/-- The name of the demo server. -/
def serverName : String := "lspkit-demo"

/-- The version of the demo server. -/
def serverVersion : String := "0.1.0"

end Parley.Demo
