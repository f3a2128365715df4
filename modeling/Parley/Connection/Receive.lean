import Parley.Connection.Basic

/-!
# Receiving

What a payload does to a connection. A payload changes the state at once, and at most one job for a handler comes of it. The
outcome of a job is handed back with `complete`, which may give the next job: after a builtin notification handler, the user's.
-/

namespace Parley

/-- What the outcome of a job is for. -/
inductive Duty where
  /-- The answer to a request. -/
  | request (id : MessageId)
  /-- The answer to `shutdown`. -/
  | shutdown (id : MessageId)
  /-- Leaving, after `exit`. -/
  | exit
  /-- Nothing; the user's handler comes next. -/
  | builtin
  /-- Nothing. -/
  | notification
  deriving DecidableEq, Repr

/-- The request that a duty answers. -/
def Duty.id? : Duty → Option MessageId
  | .request id | .shutdown id => some id
  | _ => none

/-- Work for a handler. -/
structure Job where
  duty : Duty
  /-- The table that holds the handler. -/
  origin : Origin
  /-- The name of the handler in that table. -/
  name : String
  mode : Mode
  method : String
  params : Json
  token : Token

namespace Job

/-- The connection waits for the job: a direct handler, or a builtin one of a notification. -/
def isInline (j : Job) : Bool := j.mode = .direct ∨ j.duty = .builtin

/-- The job ends as soon as its token fires: a request that a coroutine serves. -/
def isGuarded (j : Job) : Bool :=
  match j.duty with
  | .request _ => j.mode = .coroutine
  | _ => false

end Job

namespace Connection

/-- The request that ends the service. -/
def shutdownMethod : String := "shutdown"

/-- The notification that ends the connection. -/
def exitMethod : String := "exit"

/-- The request that runs a command. -/
def commandMethod : String := "workspace/executeCommand"

/-- What comes of a request or a payload: the state, and work for a handler. -/
abbrev Step := Connection × Option Job

/-- Ends a request of the peer with an answer, unless it was purged. Failures that were not declared are reported. -/
def finish (c : Connection) (id : MessageId) (o : Outcome) : Connection :=
  if c.incoming.contains id then
    let c := { c with incoming := (c.incoming.finish id).2 }
    match o with
    | .ok v => c.send (Reply.success id v)
    | .error f =>
      (if f.isDeclared then c else c.report .featureRequest f.message).send
        (Reply.failure (some id) (f.toResponseError (some id)))
  else c

/-- Ends `shutdown`: every other request is cancelled, and no more requests are accepted. -/
def completeShutdown (c : Connection) (id : MessageId) (o : Outcome) : Connection :=
  { c with
    incoming := (c.incoming.cancelAllExcept id).2
    lifecycle := if c.lifecycle = Lifecycle.active then Lifecycle.shuttingDown else c.lifecycle }.finish id (o.map fun _ => .null)

/-- Ends `exit`: the code is recorded, 0 after `shutdown` and 1 otherwise, and the writer is asked to close. -/
def completeExit (c : Connection) : Connection :=
  { c with
    lifecycle := .exited
    exitCode := some (if c.lifecycle = Lifecycle.shuttingDown then 0 else 1) }.enqueue .close

/-- Reports the failure of a notification handler. -/
def noteFailure (c : Connection) (o : Outcome) : Connection :=
  match o with
  | .ok _ => c
  | .error f => c.report .featureNotification f.message

/-- The job of the user's handler of a notification, if there is one. -/
def userJob (c : Connection) (method : String) (params : Json) : Option Job :=
  (c.routes.find? .user method).map fun mode =>
    ⟨.notification, .user, method, mode, method, params, .connection⟩

/-- Takes the outcome of a job. -/
def complete (c : Connection) (j : Job) (o : Outcome) : Step :=
  match j.duty with
  | .request id => (c.finish id o, none)
  | .shutdown id => (c.completeShutdown id o, none)
  | .exit => ((c.noteFailure o).completeExit, none)
  | .notification => (c.noteFailure o, none)
  | .builtin => (c.noteFailure o, c.userJob j.method j.params)

/-- The handler that a request is for, with the params that it gets; or the refusal. -/
def route (c : Connection) (id : MessageId) (method : String) (params : Json) :
    Except Message (Origin × String × Mode × Json) :=
  if method = commandMethod then
    match (params.field? "command").bind Json.str? with
    | none => .error (Reply.commandNotNamed id)
    | some name =>
      match c.routes.find? .command name with
      | none => .error (Reply.commandNotFound id name)
      | some mode => .ok (.command, name, mode, .arr (((params.field? "arguments").bind Json.arr?).getD []))
  else
    match c.routes.serving? method with
    | none => .error (Reply.methodNotFound id method)
    | some (origin, mode) => .ok (origin, method, mode, params)

/-- Receives a request that is to be served: it begins unless its id is in use. -/
def beginJob (c : Connection) (id : MessageId) (job : Token → Job) : Step :=
  match c.incoming.begin? id with
  | none => (c.send (Reply.duplicate id), none)
  | some (token, incoming) => ({ c with incoming }, some (job (.request token)))

/-- Receives `shutdown`. Without a handler it ends at once. -/
def receiveShutdown (c : Connection) (id : MessageId) (params : Json) : Step :=
  match c.incoming.begin? id with
  | none => (c.send (Reply.duplicate id), none)
  | some (token, incoming) =>
    let c := { c with incoming }
    match c.routes.serving? shutdownMethod with
    | none => (c.completeShutdown id (.ok .null), none)
    | some (origin, mode) =>
      (c, some ⟨.shutdown id, origin, shutdownMethod, mode, shutdownMethod, params, .request token⟩)

/-- Receives a request. -/
def receiveRequest (c : Connection) (id : MessageId) (method : String) (params : Json) : Step :=
  if c.lifecycle ≠ .active then (c.send (Reply.shuttingDown id), none)
  else if method = shutdownMethod then c.receiveShutdown id params
  else
    match c.route id method params with
    | .error refusal => (c.send refusal, none)
    | .ok (origin, name, mode, params) =>
      c.beginJob id fun token => ⟨.request id, origin, name, mode, method, params, token⟩

/-- Receives `$/cancelRequest`. One that names no request being served is ignored. -/
def receiveCancel (c : Connection) (params : Json) : Connection :=
  match (params.field? "id").bind MessageId.ofJson? with
  | some id => { c with incoming := (c.incoming.cancel id).2 }
  | none => c

/-- Receives `exit`. Without a handler it ends at once. -/
def receiveExit (c : Connection) (params : Json) : Step :=
  match c.routes.serving? exitMethod with
  | none => (c.completeExit, none)
  | some (origin, mode) => (c, some ⟨.exit, origin, exitMethod, mode, exitMethod, params, .connection⟩)

/-- Receives a notification for a feature: the builtin handler comes first. -/
def receiveFeature (c : Connection) (method : String) (params : Json) : Step :=
  match c.routes.find? .builtin method with
  | some mode => (c, some ⟨.builtin, .builtin, method, mode, method, params, .connection⟩)
  | none => (c, c.userJob method params)

/-- Receives a notification. After `shutdown` only `$/cancelRequest` and `exit` count. -/
def receiveNotification (c : Connection) (method : String) (params : Json) : Step :=
  if method = cancelMethod then (c.receiveCancel params, none)
  else if method = exitMethod then c.receiveExit params
  else if c.lifecycle ≠ .active then (c, none)
  else c.receiveFeature method params

/-- Receives the answer to a request of ours. -/
def receiveReply (c : Connection) (id : MessageId) (r : PeerReply) : Connection := (c.forget id).resolve id r

/-- Receives a message. -/
def receiveMessage (c : Connection) : Message → Step
  | .request id method params => c.receiveRequest id method params
  | .notification method params => c.receiveNotification method params
  | .result id value => (c.receiveReply id (.ok value), none)
  | .error (some id) e => (c.receiveReply id (.error (.response e)), none)
  | .error none _ => (c, none)

/-- Receives a payload that is not a message: it is reported, the sender of a request is told, and a request of ours whose
answer this is fails. -/
def refuse (c : Connection) (f : DecodeFault) : Connection :=
  let c := c.report .decode f.message
  let c :=
    match f.replyId with
    | some id => c.send (Reply.failure (some id) f.toResponseError)
    | none => c
  match f with
  | .invalidResponse id m => c.resolve id (.error (.deserialization (.mismatch m)))
  | _ => c

/-- Receives a payload. After `exit`, messages are ignored. -/
def receive (c : Connection) (payload : Bytes) : Step :=
  let (decoded, expected) := Message.decode c.catalogue c.expected payload
  let c := { c with expected }
  match decoded with
  | .error f => (c.refuse f, none)
  | .ok m => if c.lifecycle = .exited then (c, none) else c.receiveMessage m

end Connection

end Parley
