import Parley.Server.Basic

/-!
# Hosts

A host is a server together with the connection that it is asked to serve. Messages of the server's own go to the client of the
connection while it is served, that is from the moment the session has begun until it ends; before and after that they fail, as
they do if the server does not serve at all.
-/

namespace Parley

/-- A server with the connection that it is asked to serve. -/
structure Host (β : Type) where
  server : Server β
  /-- The session of the connection, or why the server does not serve. -/
  session : Except ServerFault (Session (Served β))
  /-- The session has begun. -/
  begun : Bool := false
  /-- The server was told to stop. -/
  stopped : Bool := false

namespace Host

variable {β : Type}

/-- Asks a server to serve a connection. -/
def make (server : Server β) (own : β) (source : Source) (framed : Bool) : Host β :=
  { server, session := server.serve { own } source framed }

/-- The session, while the connection is served. -/
def serving? (h : Host β) : Option (Session (Served β)) :=
  match h.session with
  | .error _ => none
  | .ok s =>
    match s.intake with
    | .ended _ => none
    | _ => if h.begun then some s else none

/-- The connection is served. -/
def isConnected (h : Host β) : Bool := h.serving?.isSome

/-- Something happens to the session from outside. -/
def update (h : Host β) (event : Session (Served β) → Session (Served β)) : Host β :=
  { h with session := h.session.map event }

/-- Goes on until all wait. -/
def settle (h : Host β) : Host β := { h.update Session.settleAll with begun := true }

/-- Tells the server to stop. -/
def stop (h : Host β) : Host β := { h.update Session.stop with stopped := true }

/-- What the server knows of its client. -/
def workspace (h : Host β) : Workspace :=
  match h.session with
  | .ok s => s.site.own.workspace
  | .error _ => {}

/-- Why the server serves no more, or why it does not serve; none while it does. -/
def outcome? (h : Host β) : Option (Except ServerFault Reason) :=
  match h.session with
  | .ok s => s.ended?.map .ok
  | .error f => some (.error f)

/-- Sends a notification to the client; false if the connection is not served. -/
def notify (h : Host β) (method : String) (params : Json) : Bool × Host β :=
  match h.serving? with
  | none => (false, h)
  | some s =>
    let (sent, s) := s.act (Site.notify method params)
    (sent, { h with session := .ok s })

/-- Sends a request to the client and gives its handle, if the connection is served. -/
def request (h : Host β) (method : String) (params : Json) : Option Nat × Host β :=
  match h.serving? with
  | none => (none, h)
  | some s =>
    let (handle, s) := s.act (Site.request method params)
    (some handle, { h with session := .ok s })

/-- Shows a message to the user of the client. -/
def showMessage (h : Host β) (kind : Int) (text : String) : Bool × Host β :=
  h.notify "window/showMessage" (Server.messageParams kind text)

/-- Has the client log a message. -/
def logMessage (h : Host β) (kind : Int) (text : String) : Bool × Host β :=
  h.notify "window/logMessage" (Server.messageParams kind text)

/-- Publishes the diagnostics of a document. -/
def publishDiagnostics (h : Host β) (uri : Uri) (diagnostics : List Json) (version : Option Int) : Bool × Host β :=
  h.notify Server.diagnosticsMethod (Server.diagnosticsParams uri diagnostics version)

/-- The record of a host: what the server knows of its client, and whether it is connected. -/
def toJson (h : Host β) : Json :=
  let w := h.workspace
  Json.object
    [("process_id", Json.ofOption (w.processId.map .int)), ("capabilities", .bool w.capabilities.isSome),
     ("client_info", Json.ofOption w.clientInfo), ("trace", .str w.trace.word), ("initialized", .bool w.initialized),
     ("connected", .bool h.isConnected)]

/-- How a host is shown. -/
def describe (h : Host β) : String := h.server.describe h.isConnected h.stopped

end Host

end Parley
