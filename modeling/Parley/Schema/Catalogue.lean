import Parley.Schema.Capabilities
import Parley.Schema.Features

/-!
# The catalogue of methods

A catalogue says which shapes the payloads of a method have: the params of a request, the result of a request, the params of a
notification. A method that a catalogue does not know is untyped: any payload is accepted. `untyped` knows no method, and
`languageServer` knows the methods of the language server protocol that this library serves.
-/

namespace Parley

/-- The shapes of one request. -/
structure RequestShapes where
  params : Shape
  result : Shape
  deriving Inhabited

/-- Any way to look up the shape that the params of a method have, for requests and for notifications. -/
structure ParamsLookup where
  request? : String → Option Shape := fun _ => none
  notification? : String → Option Shape := fun _ => none

/-- The shapes of the methods of a protocol. -/
structure Catalogue where
  requests : List (String × RequestShapes) := []
  notifications : List (String × Shape) := []
  deriving Inhabited

namespace Catalogue

/-- The shape of the params of a request. -/
def request? (c : Catalogue) (method : String) : Option Shape := (c.requests.lookup method).map (·.params)

/-- The shape of the result of a request. -/
def result? (c : Catalogue) (method : String) : Option Shape := (c.requests.lookup method).map (·.result)

/-- The shape of the params of a notification. -/
def notification? (c : Catalogue) (method : String) : Option Shape := c.notifications.lookup method

/-- The catalogue that knows no method. -/
def untyped : Catalogue := {}

/-- What a catalogue says of params. -/
def lookup (c : Catalogue) : ParamsLookup := ⟨c.request?, c.notification?⟩

instance : Coe Catalogue ParamsLookup := ⟨lookup⟩

open Schema Shape

/-- The requests of the language server protocol. -/
def languageServerRequests : List (String × RequestShapes) :=
  [("initialize", ⟨initializeParams, initializeResult⟩),
   ("shutdown", ⟨.unit, .unit⟩),
   ("workspace/executeCommand",
    ⟨withProgress "ExecuteCommandParams" [req "command" .text, dflt "arguments" (.list .any) (.arr [])], .optional .any⟩),
   ("workspace/symbol", ⟨withTokens "WorkspaceSymbolParams" [req "query" .text], .optional workspaceSymbolResponse⟩),
   ("workspace/configuration",
    ⟨struct "ConfigurationParams"
      [req "items" (.list (struct "ConfigurationItem" [opt "scopeUri" .uri, opt "section" .text]))], .list .any⟩),
   ("workspace/applyEdit",
    ⟨struct "ApplyWorkspaceEditParams" [opt "label" .text, req "edit" workspaceEdit],
     struct "ApplyWorkspaceEditResponse"
      [req "applied" .bool, opt "failureReason" .text, opt "failedChange" u32]⟩),
   ("textDocument/completion", ⟨completionParams, .optional completionResponse⟩),
   ("completionItem/resolve", ⟨completionItem, completionItem⟩),
   ("textDocument/hover", ⟨atPosition "HoverParams" [], .optional hover⟩),
   ("textDocument/signatureHelp", ⟨signatureHelpParams, .optional signatureHelp⟩),
   ("textDocument/definition", ⟨gotoParams, .optional gotoResponse⟩),
   ("textDocument/declaration", ⟨gotoParams, .optional gotoResponse⟩),
   ("textDocument/typeDefinition", ⟨gotoParams, .optional gotoResponse⟩),
   ("textDocument/implementation", ⟨gotoParams, .optional gotoResponse⟩),
   ("textDocument/references", ⟨referenceParams, .optional (.list location)⟩),
   ("textDocument/documentHighlight",
    ⟨atPositionPartial "DocumentHighlightParams" [], .optional (.list documentHighlight)⟩),
   ("textDocument/documentSymbol", ⟨documentParams "DocumentSymbolParams", .optional documentSymbolResponse⟩),
   ("textDocument/codeAction", ⟨codeActionParams, .optional codeActionResponse⟩),
   ("textDocument/codeLens", ⟨documentParams "CodeLensParams", .optional (.list codeLens)⟩),
   ("textDocument/formatting", ⟨formattingParams, .optional (.list textEdit)⟩),
   ("textDocument/rangeFormatting", ⟨rangeFormattingParams, .optional (.list textEdit)⟩),
   ("textDocument/rename", ⟨renameParams, .optional workspaceEdit⟩),
   ("textDocument/prepareRename", ⟨textDocumentPositionParams, .optional prepareRenameResponse⟩),
   ("textDocument/foldingRange", ⟨documentParams "FoldingRangeParams", .optional (.list foldingRange)⟩),
   ("textDocument/selectionRange", ⟨selectionRangeParams, .optional (.list selectionRange)⟩),
   ("textDocument/semanticTokens/full", ⟨documentParams "SemanticTokensParams", .optional semanticTokensResult⟩),
   ("window/showMessageRequest",
    ⟨struct "ShowMessageRequestParams"
      [req "type" i32, req "message" .text, opt "actions" (.list messageActionItem)], .optional messageActionItem⟩),
   ("client/registerCapability",
    ⟨struct "RegistrationParams"
      [req "registrations" (.list (struct "Registration" [req "id" .text, req "method" .text, opt "registerOptions" .any]))],
     .unit⟩),
   ("client/unregisterCapability",
    ⟨struct "UnregistrationParams"
      [req "unregisterations" (.list (struct "Unregistration" [req "id" .text, req "method" .text]))], .unit⟩),
   ("window/workDoneProgress/create",
    ⟨struct "WorkDoneProgressCreateParams" [req "token" numberOrString], .unit⟩)]
where
  /-- An action of a message, with whatever else the client attached to it. -/
  messageActionItem : Shape := .record "MessageActionItem" [req "title" .text]
    [.dict (.either "MessageActionItemProperty" [.text, .bool, i32, .any])]

/-- The progress of some work, by the word in `kind`. -/
def workDoneProgress : Shape := .tagged "kind"
  [("begin", struct "WorkDoneProgressBegin"
    [req "title" .text, opt "cancellable" .bool, opt "message" .text, opt "percentage" u32]),
   ("report", struct "WorkDoneProgressReport" [opt "cancellable" .bool, opt "message" .text, opt "percentage" u32]),
   ("end", struct "WorkDoneProgressEnd" [opt "message" .text])]

/-- Params that carry a message and its type. -/
def messageParams (name : String) : Shape := struct name [req "type" i32, req "message" .text]

/-- The notifications of the language server protocol. -/
def languageServerNotifications : List (String × Shape) :=
  [("initialized", struct "InitializedParams" []),
   ("exit", .unit),
   ("$/setTrace", struct "SetTraceParams" [req "value" traceValue]),
   ("$/logTrace", struct "LogTraceParams" [req "message" .text, opt "verbose" .text]),
   ("$/cancelRequest", struct "CancelParams" [req "id" numberOrString]),
   ("$/progress", struct "ProgressParams"
    [req "token" numberOrString, req "value" (.either "ProgressParamsValue" [workDoneProgress])]),
   ("textDocument/didOpen", struct "DidOpenTextDocumentParams" [req "textDocument" textDocumentItem]),
   ("textDocument/didChange", struct "DidChangeTextDocumentParams"
    [req "textDocument" versionedTextDocumentIdentifier,
     req "contentChanges" (.list (struct "TextDocumentContentChangeEvent"
      [opt "range" range, opt "rangeLength" u32, req "text" .text]))]),
   ("textDocument/didClose", struct "DidCloseTextDocumentParams" [req "textDocument" textDocumentIdentifier]),
   ("textDocument/didSave", struct "DidSaveTextDocumentParams"
    [req "textDocument" textDocumentIdentifier, opt "text" .text]),
   ("textDocument/willSave", struct "WillSaveTextDocumentParams"
    [req "textDocument" textDocumentIdentifier, req "reason" i32]),
   ("workspace/didChangeWorkspaceFolders", struct "DidChangeWorkspaceFoldersParams"
    [req "event" (struct "WorkspaceFoldersChangeEvent"
      [req "added" (.list workspaceFolder), req "removed" (.list workspaceFolder)])]),
   ("workspace/didChangeConfiguration", struct "DidChangeConfigurationParams" [req "settings" .any]),
   ("workspace/didChangeWatchedFiles", struct "DidChangeWatchedFilesParams"
    [req "changes" (.list (struct "FileEvent" [req "uri" .uri, req "type" i32]))]),
   ("textDocument/publishDiagnostics", struct "PublishDiagnosticsParams"
    [req "uri" .uri, req "diagnostics" (.list diagnostic), opt "version" i32]),
   ("window/logMessage", messageParams "LogMessageParams"),
   ("window/showMessage", messageParams "ShowMessageParams")]

/-- The catalogue of the language server protocol. -/
def languageServer : Catalogue := ⟨languageServerRequests, languageServerNotifications⟩

/-- The shape of the params of a method of the protocol, whichever of the two kinds it is. -/
def paramsShape (method : String) : Shape :=
  ((languageServer.request? method).orElse fun _ => languageServer.notification? method).getD .any

end Catalogue

end Parley
