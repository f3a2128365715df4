import Parley.Schema.Text

/-!
# Shapes of the capabilities of the two sides

What a client announces in `initialize`, and what a server answers.
-/

namespace Parley.Schema

open Shape

/-! ## The client's side -/

/-- A capability that is only said to be registered at run time or not. -/
def dynamic (name : String) (more : List Field) : Shape := struct name (opt "dynamicRegistration" .bool :: more)

/-- A set of values of a kind. -/
def valueSet (name : String) (s : Shape) : Shape := struct name [req "valueSet" (.list s)]

/-- A capability that also says whether links are understood. -/
def gotoCapability : Shape := dynamic "GotoCapability" [opt "linkSupport" .bool]

/-- A capability that says nothing else. -/
def dynamicRegistration : Shape := dynamic "DynamicRegistrationClientCapabilities" []

/-- Whether the client accepts being told to ask for a feature anew. -/
def refreshSupport (name : String) : Shape := struct name [opt "refreshSupport" .bool]

/-- The properties that may be filled in by a later request. -/
def resolveProperties (name : String) : Shape := struct name [req "properties" (.list .text)]

/-- The kinds of symbols that the client can show. -/
def symbolKindCapability : Shape := struct "SymbolKindCapability" [opt "valueSet" (.list i32)]

/-- The tags that the client knows; a bare truth value is accepted too. -/
def tagSupport : Shape := .orFlag (valueSet "TagSupport" i32)

/-- What the client can do about the workspace. -/
def workspaceClientCapabilities : Shape := struct "WorkspaceClientCapabilities"
  [opt "applyEdit" .bool,
   opt "workspaceEdit" (struct "WorkspaceEditClientCapabilities"
    [opt "documentChanges" .bool, opt "resourceOperations" (.list (.choice ["create", "rename", "delete"])),
     opt "failureHandling" (.choice ["abort", "transactional", "textOnlyTransactional", "undo"]),
     opt "normalizesLineEndings" .bool,
     opt "changeAnnotationSupport" (struct "ChangeAnnotationWorkspaceEditClientCapabilities" [opt "groupsOnLabel" .bool])]),
   opt "didChangeConfiguration" dynamicRegistration,
   opt "didChangeWatchedFiles" (dynamic "DidChangeWatchedFilesClientCapabilities" [opt "relativePatternSupport" .bool]),
   opt "symbol" (dynamic "WorkspaceSymbolClientCapabilities"
    [opt "symbolKind" symbolKindCapability, opt "tagSupport" tagSupport,
     opt "resolveSupport" (resolveProperties "WorkspaceSymbolResolveSupportCapability")]),
   opt "executeCommand" dynamicRegistration,
   opt "workspaceFolders" .bool, opt "configuration" .bool,
   opt "semanticTokens" (refreshSupport "SemanticTokensWorkspaceClientCapabilities"),
   opt "codeLens" (refreshSupport "CodeLensWorkspaceClientCapabilities"),
   opt "fileOperations" (dynamic "WorkspaceFileOperationsClientCapabilities"
    [opt "didCreate" .bool, opt "willCreate" .bool, opt "didRename" .bool, opt "willRename" .bool, opt "didDelete" .bool,
     opt "willDelete" .bool]),
   opt "inlineValue" (refreshSupport "InlineValueWorkspaceClientCapabilities"),
   opt "inlayHint" (refreshSupport "InlayHintWorkspaceClientCapabilities"),
   opt "diagnostic" (refreshSupport "DiagnosticWorkspaceClientCapabilities")]

/-- What the client can do with completions. -/
def completionClientCapabilities : Shape := dynamic "CompletionClientCapabilities"
  [opt "completionItem" (struct "CompletionItemCapability"
    [opt "snippetSupport" .bool, opt "commitCharactersSupport" .bool,
     opt "documentationFormat" (.list (.choice ["plaintext", "markdown"])), opt "deprecatedSupport" .bool,
     opt "preselectSupport" .bool, opt "tagSupport" tagSupport, opt "insertReplaceSupport" .bool,
     opt "resolveSupport" (resolveProperties "CompletionItemCapabilityResolveSupport"),
     opt "insertTextModeSupport" (valueSet "InsertTextModeSupport" i32), opt "labelDetailsSupport" .bool]),
   opt "completionItemKind" (struct "CompletionItemKindCapability" [opt "valueSet" (.list i32)]),
   opt "contextSupport" .bool, opt "insertTextMode" i32,
   opt "completionList" (struct "CompletionListCapability" [opt "itemDefaults" (.list .text)])]

/-- What the client can do with signatures. -/
def signatureHelpClientCapabilities : Shape := dynamic "SignatureHelpClientCapabilities"
  [opt "signatureInformation" (struct "SignatureInformationSettings"
    [opt "documentationFormat" (.list (.choice ["plaintext", "markdown"])),
     opt "parameterInformation" (struct "ParameterInformationSettings" [opt "labelOffsetSupport" .bool]),
     opt "activeParameterSupport" .bool]),
   opt "contextSupport" .bool]

/-- What the client can do with code actions. -/
def codeActionClientCapabilities : Shape := dynamic "CodeActionClientCapabilities"
  [opt "codeActionLiteralSupport" (struct "CodeActionLiteralSupport"
    [req "codeActionKind" (valueSet "CodeActionKindLiteralSupport" .text)]),
   opt "isPreferredSupport" .bool, opt "disabledSupport" .bool, opt "dataSupport" .bool,
   opt "resolveSupport" (resolveProperties "CodeActionCapabilityResolveSupport"), opt "honorsChangeAnnotations" .bool]

/-- What the client can do with semantic tokens. -/
def semanticTokensClientCapabilities : Shape := dynamic "SemanticTokensClientCapabilities"
  [req "requests" (struct "SemanticTokensClientCapabilitiesRequests"
    [opt "range" .bool,
     opt "full" (.either "SemanticTokensFullOptions" [.bool, mapOnly "Delta" [opt "delta" .bool]])]),
   req "tokenTypes" (.list .text), req "tokenModifiers" (.list .text), req "formats" (.list .text),
   opt "overlappingTokenSupport" .bool, opt "multilineTokenSupport" .bool, opt "serverCancelSupport" .bool,
   opt "augmentsSyntaxTokens" .bool]

/-- What the client can do with published diagnostics. -/
def publishDiagnosticsClientCapabilities : Shape := struct "PublishDiagnosticsClientCapabilities"
  [opt "relatedInformation" .bool, opt "tagSupport" tagSupport, opt "versionSupport" .bool,
   opt "codeDescriptionSupport" .bool, opt "dataSupport" .bool]

/-- What the client can do with folding ranges. -/
def foldingRangeClientCapabilities : Shape := dynamic "FoldingRangeClientCapabilities"
  [opt "rangeLimit" u32, opt "lineFoldingOnly" .bool,
   opt "foldingRangeKind" (struct "FoldingRangeKindCapability"
    [opt "valueSet" (.list (.choice ["comment", "imports", "region"]))]),
   opt "foldingRange" (struct "FoldingRangeCapability" [opt "collapsedText" .bool])]

/-- What the client can do about documents. -/
def textDocumentClientCapabilities : Shape := struct "TextDocumentClientCapabilities"
  [opt "synchronization" (dynamic "TextDocumentSyncClientCapabilities"
    [opt "willSave" .bool, opt "willSaveWaitUntil" .bool, opt "didSave" .bool]),
   opt "completion" completionClientCapabilities,
   opt "hover" (dynamic "HoverClientCapabilities" [opt "contentFormat" (.list (.choice ["plaintext", "markdown"]))]),
   opt "signatureHelp" signatureHelpClientCapabilities,
   opt "references" dynamicRegistration, opt "documentHighlight" dynamicRegistration,
   opt "documentSymbol" (dynamic "DocumentSymbolClientCapabilities"
    [opt "symbolKind" symbolKindCapability, opt "hierarchicalDocumentSymbolSupport" .bool, opt "tagSupport" tagSupport]),
   opt "formatting" dynamicRegistration, opt "rangeFormatting" dynamicRegistration,
   opt "onTypeFormatting" dynamicRegistration,
   opt "declaration" gotoCapability, opt "definition" gotoCapability, opt "typeDefinition" gotoCapability,
   opt "implementation" gotoCapability,
   opt "codeAction" codeActionClientCapabilities, opt "codeLens" dynamicRegistration,
   opt "documentLink" (dynamic "DocumentLinkClientCapabilities" [opt "tooltipSupport" .bool]),
   opt "colorProvider" dynamicRegistration,
   opt "rename" (dynamic "RenameClientCapabilities"
    [opt "prepareSupport" .bool, opt "prepareSupportDefaultBehavior" i32, opt "honorsChangeAnnotations" .bool]),
   opt "publishDiagnostics" publishDiagnosticsClientCapabilities,
   opt "foldingRange" foldingRangeClientCapabilities, opt "selectionRange" dynamicRegistration,
   opt "linkedEditingRange" dynamicRegistration, opt "callHierarchy" dynamicRegistration,
   opt "semanticTokens" semanticTokensClientCapabilities, opt "moniker" dynamicRegistration,
   opt "typeHierarchy" dynamicRegistration, opt "inlineValue" dynamicRegistration,
   opt "inlayHint" (dynamic "InlayHintClientCapabilities"
    [opt "resolveSupport" (resolveProperties "InlayHintResolveClientCapabilities")]),
   opt "diagnostic" (dynamic "DiagnosticClientCapabilities" [opt "relatedDocumentSupport" .bool])]

/-- What the client can show in its window. -/
def windowClientCapabilities : Shape := struct "WindowClientCapabilities"
  [opt "workDoneProgress" .bool,
   opt "showMessage" (struct "ShowMessageRequestClientCapabilities"
    [opt "messageActionItem" (struct "MessageActionItemCapabilities" [opt "additionalPropertiesSupport" .bool])]),
   opt "showDocument" (struct "ShowDocumentClientCapabilities" [req "support" .bool])]

/-- What holds for all the requests of the client. -/
def generalClientCapabilities : Shape := struct "GeneralClientCapabilities"
  [opt "regularExpressions" (struct "RegularExpressionsClientCapabilities" [req "engine" .text, opt "version" .text]),
   opt "markdown" (struct "MarkdownClientCapabilities"
    [req "parser" .text, opt "version" .text, opt "allowedTags" (.list .text)]),
   opt "staleRequestSupport" (struct "StaleRequestSupportClientCapabilities"
    [req "cancel" .bool, req "retryOnContentModified" (.list .text)]),
   opt "positionEncodings" (.list .text)]

/-- All that a client announces. -/
def clientCapabilities : Shape := struct "ClientCapabilities"
  [opt "workspace" workspaceClientCapabilities, opt "textDocument" textDocumentClientCapabilities,
   opt "notebookDocument" (struct "NotebookDocumentClientCapabilities"
    [req "synchronization" (dynamic "NotebookDocumentSyncClientCapabilities" [opt "executionSummarySupport" .bool])]),
   opt "window" windowClientCapabilities, opt "general" generalClientCapabilities, opt "experimental" .any]

/-- The name of the client. -/
def clientInfo : Shape := struct "ClientInfo" [req "name" .text, opt "version" .text]

/-- Params of `initialize`. -/
def initializeParams : Shape := withProgress "InitializeParams"
  [opt "processId" u32, opt "rootPath" .text, opt "rootUri" .uri, opt "initializationOptions" .any,
   req "capabilities" clientCapabilities, opt "trace" traceValue, opt "workspaceFolders" (.list workspaceFolder),
   opt "clientInfo" clientInfo, opt "locale" .text]

/-! ## The server's side -/

/-- The options of a provider that may report progress. -/
def progressOptions (name : String) (fields : List Field) : Shape :=
  .record name fields [struct "WorkDoneProgressOptions" [opt "workDoneProgress" .bool]]

/-- A provider that is switched on or off, or described by options. -/
def provider (name : String) (fields : List Field) : Shape := oneOf .bool (progressOptions name fields)

/-- A provider of an enumeration of its own. -/
def providerCapability (name options : String) (fields : List Field) : Shape :=
  .either name [.bool, progressOptions options fields]

/-- Documents by language, scheme and pattern. -/
def documentFilter : Shape := struct "DocumentFilter" [opt "language" .text, opt "scheme" .text, opt "pattern" .text]

/-- A provider that may also name the documents it is for. -/
def registrable (name : String) : Shape := .either name
  [.bool, struct "StaticTextDocumentRegistrationOptions"
    [opt "documentSelector" (.list documentFilter), opt "id" .text]]

/-- A provider that is switched on or off, or described by an object of no fixed fields. -/
def described (name options : String) : Shape := .either name [.bool, struct options []]

/-- The cells of a notebook, by language. -/
def notebookCells : Shape := .list (struct "NotebookCellSelector" [req "language" .text])

/-- A notebook by its type, or by one of type, scheme and pattern at least. -/
def notebook : Shape := .either "Notebook"
  [.text, .either "NotebookDocumentFilter"
    [mapOnly "ByType" [req "notebookType" .text, opt "scheme" .text, opt "pattern" .text],
     mapOnly "ByScheme" [opt "notebookType" .text, req "scheme" .text, opt "pattern" .text],
     mapOnly "ByPattern" [opt "notebookType" .text, opt "scheme" .text, req "pattern" .text]]]

/-- Which notebooks the server is told of. -/
def notebookDocumentSync : Shape := struct "NotebookDocumentSyncOptions"
  [req "notebookSelector" (.list (.either "NotebookSelector"
    [mapOnly "ByNotebook" [req "notebook" notebook, opt "cells" notebookCells],
     mapOnly "ByCells" [opt "notebook" notebook, req "cells" notebookCells]])),
   opt "save" .bool]

/-- Which files an operation is registered for. -/
def fileOperation : Shape := struct "FileOperationRegistrationOptions"
  [req "filters" (.list (struct "FileOperationFilter"
    [opt "scheme" .text,
     req "pattern" (struct "FileOperationPattern"
      [req "glob" .text, opt "matches" (.choice ["file", "folder"]),
       opt "options" (struct "FileOperationPatternOptions" [opt "ignoreCase" .bool])])]))]

/-- Which events of a document the server is told of. -/
def textDocumentSyncOptions : Shape := struct "TextDocumentSyncOptions"
  [opt "openClose" .bool, opt "change" i32, opt "willSave" .bool, opt "willSaveWaitUntil" .bool,
   opt "save" (.either "TextDocumentSyncSaveOptions" [.bool, struct "SaveOptions" [opt "includeText" .bool]])]

/-- How the server completes. -/
def completionOptions : Shape := progressOptions "CompletionOptions"
  [opt "resolveProvider" .bool, opt "triggerCharacters" (.list .text), opt "allCommitCharacters" (.list .text),
   opt "completionItem" (struct "CompletionOptionsCompletionItem" [opt "labelDetailsSupport" .bool])]

/-- When the server is asked for signatures. -/
def signatureHelpOptions : Shape := progressOptions "SignatureHelpOptions"
  [opt "triggerCharacters" (.list .text), opt "retriggerCharacters" (.list .text)]

/-- The words behind the numbers of semantic tokens. -/
def semanticTokensLegend : Shape := struct "SemanticTokensLegend"
  [req "tokenTypes" (.list .text), req "tokenModifiers" (.list .text)]

/-- How the server gives semantic tokens. -/
def semanticTokensOptions : Shape := progressOptions "SemanticTokensOptions"
  [req "legend" semanticTokensLegend, opt "range" .bool,
   opt "full" (.either "SemanticTokensFullOptions" [.bool, mapOnly "Delta" [opt "delta" .bool]])]

/-- What the server does about the workspace. -/
def workspaceServerCapabilities : Shape := struct "WorkspaceServerCapabilities"
  [opt "workspaceFolders" (struct "WorkspaceFoldersServerCapabilities"
    [opt "supported" .bool, opt "changeNotifications" (oneOf .bool .text)]),
   opt "fileOperations" (struct "WorkspaceFileOperationsServerCapabilities"
    [opt "didCreate" fileOperation, opt "willCreate" fileOperation, opt "didRename" fileOperation,
     opt "willRename" fileOperation, opt "didDelete" fileOperation, opt "willDelete" fileOperation])]

/-- All that a server answers about itself. -/
def serverCapabilities : Shape := struct "ServerCapabilities"
  [opt "positionEncoding" .text,
   opt "textDocumentSync" (.either "TextDocumentSyncCapability" [i32, textDocumentSyncOptions]),
   opt "notebookDocumentSync" notebookDocumentSync,
   opt "selectionRangeProvider" (providerCapability "SelectionRangeProviderCapability" "SelectionRangeOptions" []),
   opt "hoverProvider" (providerCapability "HoverProviderCapability" "HoverOptions" []),
   opt "completionProvider" completionOptions,
   opt "signatureHelpProvider" signatureHelpOptions,
   opt "definitionProvider" (provider "DefinitionOptions" []),
   opt "typeDefinitionProvider" (registrable "TypeDefinitionProviderCapability"),
   opt "implementationProvider" (registrable "ImplementationProviderCapability"),
   opt "referencesProvider" (provider "ReferencesOptions" []),
   opt "documentHighlightProvider" (provider "DocumentHighlightOptions" []),
   opt "documentSymbolProvider" (provider "DocumentSymbolOptions" [opt "label" .text]),
   opt "workspaceSymbolProvider" (provider "WorkspaceSymbolOptions" [opt "resolveProvider" .bool]),
   opt "codeActionProvider" (providerCapability "CodeActionProviderCapability" "CodeActionOptions"
    [opt "codeActionKinds" (.list .text), opt "resolveProvider" .bool]),
   opt "codeLensProvider" (struct "CodeLensOptions" [opt "resolveProvider" .bool]),
   opt "documentFormattingProvider" (provider "DocumentFormattingOptions" []),
   opt "documentRangeFormattingProvider" (provider "DocumentRangeFormattingOptions" []),
   opt "documentOnTypeFormattingProvider" (struct "DocumentOnTypeFormattingOptions"
    [req "firstTriggerCharacter" .text, opt "moreTriggerCharacter" (.list .text)]),
   opt "renameProvider" (provider "RenameOptions" [opt "prepareProvider" .bool]),
   opt "documentLinkProvider" (progressOptions "DocumentLinkOptions" [opt "resolveProvider" .bool]),
   opt "colorProvider" (described "ColorProviderCapability" "ColorProviderOptions"),
   opt "foldingRangeProvider" (described "FoldingRangeProviderCapability" "FoldingProviderOptions"),
   opt "declarationProvider" (providerCapability "DeclarationCapability" "DeclarationOptions" []),
   opt "executeCommandProvider" (progressOptions "ExecuteCommandOptions" [req "commands" (.list .text)]),
   opt "workspace" workspaceServerCapabilities,
   opt "callHierarchyProvider" (providerCapability "CallHierarchyServerCapability" "CallHierarchyOptions" []),
   opt "semanticTokensProvider" (.either "SemanticTokensServerCapabilities" [semanticTokensOptions]),
   opt "monikerProvider" (provider "MonikerServerCapabilities" []),
   opt "linkedEditingRangeProvider" (providerCapability "LinkedEditingRangeServerCapabilities" "LinkedEditingRangeOptions" []),
   opt "inlineValueProvider" (provider "InlineValueServerCapabilities" []),
   opt "inlayHintProvider" (provider "InlayHintServerCapabilities" [opt "resolveProvider" .bool]),
   opt "diagnosticProvider" (.either "DiagnosticServerCapabilities"
    [progressOptions "DiagnosticOptions"
      [opt "identifier" .text, req "interFileDependencies" .bool, req "workspaceDiagnostics" .bool]]),
   opt "experimental" .any]

/-- The name of the server. -/
def serverInfo : Shape := struct "ServerInfo" [req "name" .text, opt "version" .text]

/-- Result of `initialize`. -/
def initializeResult : Shape := struct "InitializeResult"
  [req "capabilities" serverCapabilities, opt "serverInfo" serverInfo]

end Parley.Schema
