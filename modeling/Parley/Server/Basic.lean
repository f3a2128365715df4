import Parley.Json.Shown
import Parley.Server.Builtins
import Parley.Session.Event

/-!
# Servers

A server is a configuration and the handlers of the user. Serving a connection puts the builtin features beside the user's, which
stay as they are, and takes payloads until the connection ends.
-/

namespace Parley

/-- Why a server does not serve. -/
inductive ServerFault where
  | bind (address reason : String)
  | webSocket (reason : String)
  | registration (f : RegistrationFault)
  | config (f : ConfigFault)
  deriving Repr

/-- The name of a kind of fault. -/
def ServerFault.kind : ServerFault → String
  | .bind .. => "Bind"
  | .webSocket _ => "WebSocket"
  | .registration _ => "Registry"
  | .config _ => "Config"

/-- The wording of a fault. -/
def ServerFault.message : ServerFault → String
  | .bind address reason => "Failed to bind " ++ address ++ ": " ++ reason
  | .webSocket reason => "WebSocket handshake failed: " ++ reason
  | .registration f => f.message
  | .config f => f.message

/-- A server. -/
structure Server (β : Type) where
  config : Config
  /-- What the user has registered, as far as a user may. -/
  registry : Registry (Handler (Served β)) := {}

namespace Server

variable {β : Type}

/-- The features and commands of the user. The builtin features are all the server's own. -/
def userRegistry (s : Server β) : Registry (Handler (Served β)) := s.registry.asUsers

/-- The registry of a connection: the user's, with the builtin features. -/
def connectionRegistry (s : Server β) : Except RegistrationFault (Registry (Handler (Served β))) :=
  (builtins s.config).foldlM (fun r b => r.addBuiltin b.1 b.2) s.userRegistry

/-- The stream of a server, before anything has arrived. -/
def streamSource (s : Server β) : Source := .stream { limit := s.config.messageSize } [] false

/-- Begins to serve a connection, if the configuration is accepted. -/
def serve (s : Server β) (own : Served β) (source : Source) (framed : Bool) : Except ServerFault (Session (Served β)) :=
  match s.config.validate with
  | .error f => .error (.config f)
  | .ok () =>
    match s.connectionRegistry with
    | .error f => .error (.registration f)
    | .ok handlers =>
      let session := Session.make handlers Catalogue.languageServer s.config.workers own
      .ok (Session.start { session with framed, sink := some {} } source)

/-- The params of a message to the user of the client. -/
def messageParams (kind : Int) (text : String) : Json := Json.object [("type", .int kind), ("message", .str text)]

/-- The params that publish the diagnostics of a document. -/
def diagnosticsParams (uri : Uri) (diagnostics : List Json) (version : Option Int) : Json :=
  Json.object <|
    [("uri", .str uri.text), ("diagnostics", .arr diagnostics)] ++
      match version with
      | some n => [("version", .int n)]
      | none => []

/-- The method that publishes diagnostics. -/
def diagnosticsMethod : String := "textDocument/publishDiagnostics"

/-- How entries of a table are shown. -/
def describeTable {ν : Type} (t : Table String ν) (f : ν → String) : String :=
  "\x7b" ++ ", ".intercalate (t.entries.map fun e => Text.quoted e.1 ++ ": " ++ f e.2) ++ "\x7d"

/-- How a handler is shown. -/
def describeHandler (h : Handler (Served β)) : String := h.mode.describe

/-- How a registry is shown. -/
def describeRegistry (r : Registry (Handler (Served β))) : String :=
  "FeatureRegistry \x7b builtin_features: " ++ describeTable r.builtins describeHandler ++ ", features: " ++
    describeTable r.features describeHandler ++ ", feature_options: " ++ describeTable r.options Json.describe ++
    ", commands: " ++ describeTable r.commands describeHandler ++ " \x7d"

/-- How a server is shown. -/
def describe (s : Server β) (connected stopped : Bool) : String :=
  "LanguageServer \x7b config: " ++ s.config.describe ++ ", registry: " ++ describeRegistry s.userRegistry ++
    ", connected: " ++ toString connected ++ ", stopped: " ++ toString stopped ++ " \x7d"

end Server

end Parley
