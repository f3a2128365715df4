import Parley.Trial.Log

/-!
# Scripts

The body of a handler written down as data: a verb, or several in order. Scripts stand in for a program's own handlers where a
connection is tried out. `Verb.run` is the routine that a verb stands for, given how to go on with its outcome.
-/

namespace Parley.Trial

/-- What a script does. -/
inductive Verb where
  /-- Gives the params back. -/
  | echo
  | const (v : Json)
  /-- Tells what the handler was called with. -/
  | context
  /-- Tells how the connection stands. -/
  | status
  | fail (f : Failure)
  /-- Breaks the handler off, whatever would follow. -/
  | breakOff (text : String)
  /-- Sends a notification. -/
  | notify (method : String) (params : Json)
  /-- Sends a request and does not look at its reply. -/
  | post (method : String) (params : Json)
  /-- Tears the connection down. -/
  | teardown
  /-- Does several verbs, up to the first that fails. -/
  | inOrder (verbs : List Verb)
  /-- Waits for a latch, and tells whether the call was cancelled meanwhile. -/
  | hold (latch : String)
  /-- Waits to be cancelled, and fails then. -/
  | poll
  /-- Waits to be cancelled, and succeeds then. -/
  | observe
  | waitForever
  /-- Takes a permit of a gate. -/
  | takePermit (gate : String)
  | sleep (ms : Nat)
  /-- Sends a request and gives the result, as a value of a shape if there is one. -/
  | call (method : String) (params : Json) (shape : Option Shape)
  /-- Sends a request, cancels it and waits for what becomes of it. -/
  | callAndCancel (method : String) (params : Json)
  /-- Calls a feature of the user, with the own params if there are none. -/
  | invoke (name : String) (params : Option Json)
  /-- Calls the feature of the user that has the method of the handler. -/
  | invokeUser
  deriving Inhabited

variable {α : Type} [HasLog α]

/-- How a script goes on. -/
abbrev Next (α : Type) := Outcome → Routine α

/-- Adds an entry to the log. -/
def note (entry : String) (next : Routine α) : Routine α :=
  .act (fun s => { s with own := addEntry entry s.own }) fun _ => next

/-- The outcome of sending a notification. -/
def sentOutcome (sent : Bool) : Outcome := if sent then .ok .null else .error (.peer .closed)

/-- What a handler is told of its call. -/
def contextJson (c : Call) (cancelled : Bool) : Json :=
  Json.object [("id", Json.ofOption (c.id.map MessageId.toJson)), ("method", .str c.method), ("cancelled", .bool cancelled),
    ("debug", .str (c.describe cancelled))]

/-- What a handler is told of its connection. -/
def statusJson (k : Connection) : Json :=
  Json.object [("state", .str k.lifecycle.name), ("work", .nat k.incoming.size),
    ("commands", .strings k.routes.commandNames), ("methods", .strings k.routes.methods)]

mutual

/-- The routine that a verb stands for. -/
def Verb.run (c : Call) : Verb → Next α → Routine α
  | .echo, next => next (.ok c.params)
  | .const v, next => next (.ok v)
  | .context, next => .act id fun s => next (.ok (contextJson c (s.connection.isFired c.token)))
  | .status, next => .act id fun s => next (.ok (statusJson s.connection))
  | .fail f, next => next (.error f)
  | .breakOff text, _ => .done (.error (.panicked text))
  | .notify method params, next => .acting (Site.notify method params) fun sent => next (sentOutcome sent)
  | .post method params, next => .acting (Site.request method params) fun _ => next (.ok .null)
  | .teardown, next => .act Site.teardown fun _ => next (.ok .null)
  | .inOrder verbs, next => Verb.runAll c verbs .null next
  | .hold latch, next =>
    .wait (.latch latch) <|
      .act id fun s => next (.ok (Json.object [("cancelled", .bool (s.connection.isFired c.token))]))
  | .poll, next => .wait .cancellation (next (.error .cancelled))
  | .observe, next => .wait .cancellation (note "cancellation seen" (next (.ok (.str "observed"))))
  | .waitForever, next => .wait .forever (next (.ok .null))
  | .takePermit gate, next => .wait (.permit gate) (next (.ok (.str gate)))
  | .sleep ms, next => .wait (.time ms) (next (.ok (.nat ms)))
  | .call method params none, next => .call method params fun r => next r.toOutcome
  | .call method params (some shape), next => .call method params fun r => next (r.typed shape).toOutcome
  | .callAndCancel method params, next =>
    .act id fun s =>
      .acting (Site.request method params) fun handle =>
        .acting (Site.cancelRequest (Connection.mintedId s.connection.minted)) fun sent =>
          if sent then .reply handle fun r => next r.toOutcome else next (sentOutcome false)
  | .invoke name params, next =>
    .invoke name (params.getD c.params) fun o => next (o.getD (.error (.failed "no such handler")))
  | .invokeUser, next =>
    .invoke c.method c.params fun o =>
      next ((o.getD (.ok (.str "none"))).map fun v => Json.object [("user", v)])

/-- The routine of verbs in order, behind one that gave a result. -/
def Verb.runAll (c : Call) : List Verb → Json → Next α → Routine α
  | [], last, next => next (.ok last)
  | v :: rest, _, next =>
    v.run c fun o =>
      match o with
      | .ok r => Verb.runAll c rest r next
      | .error f => next (.error f)

end

end Parley.Trial
