import Parley.Config.Server
import Parley.Session.Event
import Parley.Uri

/-!
# Clients

The other side of a server's connection: a session of its own, which can serve requests of the server, and the calls that a
client makes. A client is initialized once a handshake has succeeded up to the point where the server's answer is accepted.
-/

namespace Parley

/-- Why a call of a client fails. -/
inductive ClientFault where
  | spawn (program reason : String)
  | alreadyInitialized
  | peer (f : PeerFailure)
  deriving Repr

/-- The wording of a fault. -/
def ClientFault.message : ClientFault → String
  | .spawn program reason => "Failed to spawn " ++ program ++ ": " ++ reason
  | .alreadyInitialized => "Client already initialized"
  | .peer f => f.message

/-- The record of a fault. -/
def ClientFault.toJson (f : ClientFault) : Json :=
  let named (kind : String) : Json := Json.object [("error", .str kind), ("message", .str f.message)]
  match f with
  | .spawn .. => named "Spawn"
  | .alreadyInitialized => named "AlreadyInitialized"
  | .peer f => f.toJson

/-- What becomes of a call of a client. -/
abbrev ClientReply := Except ClientFault Json

/-- What the handlers and calls of a client keep. -/
structure Client (β : Type) where
  /-- What the server can do, once it has said so. -/
  serverCapabilities : Option Json := none
  /-- The replies to the calls that were made, by number. -/
  replies : List (Nat × ClientReply) := []
  own : β

namespace Client

variable {β : Type}

/-- The server has said what it can do. -/
def isInitialized (c : Client β) : Bool := c.serverCapabilities.isSome

/-- What a client says of itself in the handshake: its process, its root, and that it has a configuration and folders. -/
def initializeParams (processId : Nat) (root : Option Uri) : Json :=
  Json.object
    [("processId", .nat processId),
     ("rootUri", Json.ofOption (root.map fun u => .str u.text)),
     ("capabilities", Json.object
       [("workspace", Json.object [("workspaceFolders", .bool true), ("configuration", .bool true)])]),
     ("clientInfo", Json.object [("name", .str "lspkit"), ("version", .str "0.1.0")])]

/-- Records what the server can do. -/
def recordServer (result : Json) (s : Site (Client β)) : Site (Client β) :=
  { s with own := { s.own with serverCapabilities := some (Json.ofOption (result.field? "capabilities")) } }

/-- Sends a request whose result has a shape of its own, and goes on with the reply. -/
def typedCall (method : String) (params : Json) (shape : Shape) (next : ClientReply → Routine (Client β)) :
    Routine (Client β) :=
  .call method params fun r =>
    match r.typed shape with
    | .ok v => next (.ok v)
    | .error f => next (.error (.peer f))

/-- The handshake: the request `initialize`, and behind an accepted answer the notification `initialized`. A client that is
initialized refuses it. -/
def handshake (params : Json) (next : ClientReply → Routine (Client β)) : Routine (Client β) :=
  .act id fun s =>
    if s.own.isInitialized then next (.error .alreadyInitialized)
    else
      typedCall "initialize" params Schema.initializeResult fun r =>
        match r with
        | .error f => next (.error f)
        | .ok result =>
          .act (recordServer result) fun _ =>
            .acting (Site.notify "initialized" (Json.object [])) fun sent =>
              next (if sent then .ok result else .error (.peer .closed))

/-- Asks the server to shut down. -/
def shutdown (next : ClientReply → Routine (Client β)) : Routine (Client β) := typedCall "shutdown" .null .unit next

/-- Tells the server to exit; false if the writer is gone. -/
def exit (s : Session (Client β)) : Bool × Session (Client β) := s.act (Site.notify "exit" .null)

/-- Connects a client that serves requests of the server with these handlers. -/
def connect (handlers : Registry (Handler (Client β))) (own : β) (source : Source) (framed : Bool) : Session (Client β) :=
  let s := Session.make handlers Catalogue.languageServer defaultWorkers { own }
  Session.start { s with framed, sink := some {} } source

end Client

end Parley
