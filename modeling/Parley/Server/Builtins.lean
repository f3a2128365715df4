import Parley.Config.Server
import Parley.Handler.Basic
import Parley.Workspace

/-!
# Builtin features of a server

What every server does for its client before the user's handlers come: it answers `initialize`, and it keeps the workspace up to
date. A builtin feature reads its params in full before it changes anything.
-/

namespace Parley

/-- What the handlers of a server keep: the workspace, and what the program keeps. -/
structure Served (β : Type) where
  workspace : Workspace := {}
  own : β

namespace Server

variable {β : Type}

/-- Changes the workspace. -/
def onWorkspace (f : Workspace → Workspace) (s : Site (Served β)) : Site (Served β) :=
  { s with own := { s.own with workspace := f s.own.workspace } }

/-- Records what a client says of itself with `initialize`. Its folders are those it lists, or else its root. -/
def recordClient (params : Json) (w : Workspace) : Workspace :=
  let w := { w with
    processId := (params.field? "processId").bind Json.int?
    capabilities := some (params.valueField "capabilities")
    clientInfo := params.field? "clientInfo"
    trace := Trace.ofWord (params.textField "trace") }
  match params.field? "workspaceFolders", params.field? "rootUri" with
  | some folders, _ => (folders.arr?.getD []).foldl (fun w f => w.addFolder (Folder.ofJson f)) w
  | none, some root => w.addFolder (Folder.ofRoot (root.str?.getD ""))
  | none, none => w

/-- The method of the handshake. -/
def initializeMethod : String := "initialize"

/-- What the client is told in answer to `initialize`. -/
def initializeResult (config : Config) (commands : List String) : Json :=
  Json.object
    [("capabilities", Json.object <|
        (if commands.isEmpty then [] else
          [("executeCommandProvider", Json.object [("commands", .strings commands)])]) ++
        [("textDocumentSync", .nat config.sync.number)]),
     ("serverInfo", Json.object [("name", .str config.name), ("version", .str config.version)])]

/-- Answers `initialize`: the client is recorded, then the user's handler is called, whose failure is the answer. -/
def initializeHandler (config : Config) : Handler (Served β) :=
  .coroutine <| Handler.typedBody (Catalogue.paramsShape initializeMethod) fun c params =>
    .act (onWorkspace (recordClient params)) fun _ =>
      .invoke c.method c.params fun o =>
        match o with
        | some (.error f) => .done (.error f)
        | _ => .act id fun s => .done (.ok (initializeResult config s.connection.routes.commandNames))

/-- A builtin handler of a notification: it changes the workspace as its params say. -/
def workspaceHandler (method : String) (change : Json → Workspace → Workspace) : Handler (Served β) :=
  Handler.directOf (Catalogue.paramsShape method) fun _ params s => (.ok .null, onWorkspace (change params) s)

/-- Params of a change of folders: those removed go first. -/
def changeFolders (params : Json) (w : Workspace) : Workspace :=
  let event := params.valueField "event"
  let w := (event.listField "removed").foldl (fun w f => w.removeFolder (f.textField "uri")) w
  (event.listField "added").foldl (fun w f => w.addFolder (Folder.ofJson f)) w

/-- Params of a change of a document. -/
def changeDocument (params : Json) (w : Workspace) : Workspace :=
  let document := params.valueField "textDocument"
  w.updateDocument (document.textField "uri") (document.intField "version")
    ((params.listField "contentChanges").map Change.ofJson)

/-- The builtin features. The params of `initialized` do not matter. -/
def builtins (config : Config) : List (String × Handler (Served β)) :=
  [(initializeMethod, initializeHandler config),
   ("initialized", .direct fun _ s => (.ok .null, onWorkspace (fun w => { w with initialized := true }) s)),
   ("textDocument/didOpen", workspaceHandler "textDocument/didOpen" fun params w =>
      w.putDocument (Document.ofJson (params.valueField "textDocument"))),
   ("textDocument/didChange", workspaceHandler "textDocument/didChange" changeDocument),
   ("textDocument/didClose", workspaceHandler "textDocument/didClose" fun params w =>
      w.removeDocument ((params.valueField "textDocument").textField "uri")),
   ("workspace/didChangeWorkspaceFolders", workspaceHandler "workspace/didChangeWorkspaceFolders" changeFolders),
   ("$/setTrace", workspaceHandler "$/setTrace" fun params w =>
      { w with trace := Trace.ofWord (params.textField "value") })]

end Server

end Parley
