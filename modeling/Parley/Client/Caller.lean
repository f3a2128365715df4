import Parley.Client.Basic

/-!
# Callers

A client makes its calls one after the other: a call begins when the one before it has got its reply. The call that stops the
client is its last; what was asked for behind it is never made.
-/

namespace Parley

/-- A call of a client. -/
inductive ClientCall where
  | handshake (params : Json)
  | shutdown
  | stop
  deriving Repr

/-- What a call of a client gives. -/
inductive ClientResult where
  | reply (r : ClientReply)
  | stopped (r : Reason)
  deriving Repr

namespace ClientResult

/-- What is recorded of the answer to a handshake: who the server is, how it takes changes, and its commands. -/
def handshakeJson (result : Json) : Json :=
  let capabilities := result.valueField "capabilities"
  Json.object
    [("server_info", result.valueField "serverInfo"), ("sync", capabilities.valueField "textDocumentSync"),
     ("commands", (capabilities.valueField "executeCommandProvider").valueField "commands")]

/-- The record of what a call gave. Only the handshake has a result that says anything. -/
def toJson : ClientResult → Json
  | .reply (.ok result) => Json.object [("ok", if result.isNull then .null else handshakeJson result)]
  | .reply (.error f) => f.toJson
  | .stopped r => r.toJson

end ClientResult

/-- A client with the calls that it is to make. -/
structure Caller (β : Type) where
  session : Session (Client β)
  /-- The calls to make, by number. -/
  queue : List (Nat × ClientCall) := []
  /-- The call in progress. -/
  current : Option (Nat × ClientCall) := none
  /-- The client was told to stop. -/
  stopping : Bool := false

namespace Caller

variable {β : Type}

/-- Something happens to the session from outside. -/
def update (k : Caller β) (event : Session (Client β) → Session (Client β)) : Caller β :=
  { k with session := event k.session }

/-- Asks for a call. -/
def submit (k : Caller β) (number : Nat) (call : ClientCall) : Caller β := { k with queue := k.queue ++ [(number, call)] }

/-- Keeps the reply to the call of a number. -/
def keepReply (number : Nat) (r : ClientReply) : Routine (Client β) :=
  .act (fun s => { s with own := { s.own with replies := s.own.replies ++ [(number, r)] } }) fun _ => .done (.ok .null)

/-- Makes a call. -/
def make (k : Caller β) (number : Nat) (call : ClientCall) : Caller β :=
  let k := { k with current := some (number, call) }
  match call with
  | .handshake params => k.update (·.begin (Client.handshake params (keepReply number)))
  | .shutdown => k.update (·.begin (Client.shutdown (keepReply number)))
  | .stop => { k.update Session.stop with stopping := true }

/-- What the call in progress has given, if it has ended. -/
def result? (k : Caller β) : Option (Nat × ClientResult) :=
  match k.current with
  | none => none
  | some (number, .stop) => k.session.ended?.map fun r => (number, .stopped r)
  | some (number, _) => (k.session.site.own.replies.lookup number).map fun r => (number, .reply r)

/-- Goes on until all wait, making calls as long as none is in progress; `fuel` bounds the ends and beginnings of calls. -/
def settleWith : Nat → Caller β → List (Nat × ClientResult) × Caller β
  | 0, k => ([], k)
  | fuel + 1, k =>
    let k := k.update Session.settleAll
    match k.current, k.result? with
    | some _, some r =>
      let (results, k) := settleWith fuel { k with current := none }
      (r :: results, k)
    | some _, none => ([], k)
    | none, _ =>
      match k.queue with
      | (number, call) :: queue =>
        if k.stopping then ([], k) else settleWith fuel (make { k with queue } number call)
      | [] => ([], k)

/-- Goes on until all wait, and gives what the calls gave that ended on the way. -/
def settle (k : Caller β) : List (Nat × ClientResult) × Caller β := k.settleWith (2 * k.queue.length + 3)

/-- The server has said what it can do; none while a call is in progress, and once the client was told to stop. -/
def isInitialized? (k : Caller β) : Option Bool :=
  if k.current.isSome || k.stopping then none else some k.session.site.own.isInitialized

end Caller

end Parley
