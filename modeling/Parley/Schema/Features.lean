import Parley.Schema.Text

/-!
# Shapes of the language features

Params and results of the requests about documents: completion, hover, navigation, symbols, actions, formatting and the rest.
-/

namespace Parley.Schema

open Shape

/-- Params of `textDocument/completion`. -/
def completionParams : Shape := atPositionPartial "CompletionParams"
  [opt "context" (struct "CompletionContext" [req "triggerKind" i32, opt "triggerCharacter" .text])]

/-- A text that is inserted or replaces a range, as the client chooses. -/
def insertReplaceEdit : Shape := struct "InsertReplaceEdit"
  [req "newText" .text, req "insert" range, req "replace" range]

/-- One completion. -/
def completionItem : Shape := struct "CompletionItem"
  [req "label" .text,
   opt "labelDetails" (struct "CompletionItemLabelDetails" [opt "detail" .text, opt "description" .text]),
   opt "kind" i32, opt "detail" .text, opt "documentation" documentation, opt "deprecated" .bool, opt "preselect" .bool,
   opt "sortText" .text, opt "filterText" .text, opt "insertText" .text, opt "insertTextFormat" i32, opt "insertTextMode" i32,
   opt "textEdit" (.either "CompletionTextEdit" [textEdit, insertReplaceEdit]),
   opt "additionalTextEdits" (.list textEdit), opt "command" command, opt "commitCharacters" (.list .text), opt "data" .any,
   opt "tags" (.list i32)]

/-- Result of `textDocument/completion`. -/
def completionResponse : Shape := .either "CompletionResponse"
  [.list completionItem, struct "CompletionList" [req "isIncomplete" .bool, req "items" (.list completionItem)]]

/-- Result of `textDocument/hover`. -/
def hover : Shape := struct "Hover"
  [req "contents" (.either "HoverContents" [markedString, .list markedString, markupContent]), opt "range" range]

/-- A parameter of a signature. -/
def parameterInformation : Shape := struct "ParameterInformation"
  [req "label" (.either "ParameterLabel" [.text, .tuple [u32, u32]]), opt "documentation" documentation]

/-- Result of `textDocument/signatureHelp`. -/
def signatureHelp : Shape := struct "SignatureHelp"
  [req "signatures" (.list (struct "SignatureInformation"
    [req "label" .text, opt "documentation" documentation, opt "parameters" (.list parameterInformation),
     opt "activeParameter" u32])),
   opt "activeSignature" u32, opt "activeParameter" u32]

/-- Params of `textDocument/signatureHelp`. -/
def signatureHelpParams : Shape := atPosition "SignatureHelpParams"
  [opt "context" (struct "SignatureHelpContext"
    [req "triggerKind" i32, opt "triggerCharacter" .text, req "isRetrigger" .bool,
     opt "activeSignatureHelp" signatureHelp])]

/-- Params of the requests that go from a place to another. -/
def gotoParams : Shape := atPositionPartial "GotoDefinitionParams" []

/-- Result of the requests that go from a place to another. -/
def gotoResponse : Shape := .either "GotoDefinitionResponse" [location, .list location, .list locationLink]

/-- Params of `textDocument/references`. -/
def referenceParams : Shape := atPositionPartial "ReferenceParams"
  [req "context" (struct "ReferenceContext" [req "includeDeclaration" .bool])]

/-- A highlighted range. -/
def documentHighlight : Shape := struct "DocumentHighlight" [req "range" range, opt "kind" i32]

/-- Params that name a document only. -/
def documentParams (name : String) : Shape := withTokens name [req "textDocument" textDocumentIdentifier]

/-- A symbol and where it is. -/
def symbolInformation : Shape := struct "SymbolInformation"
  [req "name" .text, req "kind" i32, opt "tags" (.list i32), opt "deprecated" .bool, req "location" location,
   opt "containerName" .text]

/-- A symbol, where the symbols inside it are of some shape. -/
def symbolOver (inside : Shape) : Shape := struct "DocumentSymbol"
  [req "name" .text, opt "detail" .text, req "kind" i32, opt "tags" (.list i32), opt "deprecated" .bool, req "range" range,
   req "selectionRange" range, opt "children" (.list inside)]

/-- A symbol with the symbols inside it. -/
def documentSymbol : Shape := .recursive symbolOver

/-- Result of `textDocument/documentSymbol`. -/
def documentSymbolResponse : Shape := .either "DocumentSymbolResponse"
  [.list symbolInformation, .list documentSymbol]

/-- A symbol whose place may be its document alone. -/
def workspaceSymbol : Shape := struct "WorkspaceSymbol"
  [req "name" .text, req "kind" i32, opt "tags" (.list i32), opt "containerName" .text,
   req "location" (oneOf location (struct "WorkspaceLocation" [req "uri" .uri])), opt "data" .any]

/-- Result of `workspace/symbol`. -/
def workspaceSymbolResponse : Shape := .either "WorkspaceSymbolResponse" [.list symbolInformation, .list workspaceSymbol]

/-- Params of `textDocument/codeAction`. -/
def codeActionParams : Shape := withTokens "CodeActionParams"
  [req "textDocument" textDocumentIdentifier, req "range" range,
   req "context" (struct "CodeActionContext"
    [req "diagnostics" (.list diagnostic), opt "only" (.list .text), opt "triggerKind" i32])]

/-- A change that the user may choose. -/
def codeAction : Shape := struct "CodeAction"
  [req "title" .text, opt "kind" .text, opt "diagnostics" (.list diagnostic), opt "edit" workspaceEdit,
   opt "command" command, opt "isPreferred" .bool, opt "disabled" (struct "CodeActionDisabled" [req "reason" .text]),
   opt "data" .any]

/-- Result of `textDocument/codeAction`. -/
def codeActionResponse : Shape := .list (.either "CodeActionOrCommand" [command, codeAction])

/-- A command shown beside a range. -/
def codeLens : Shape := struct "CodeLens" [req "range" range, opt "command" command, opt "data" .any]

/-- How to format; properties of no fixed name are allowed. -/
def formattingOptions : Shape := .record "FormattingOptions"
  [req "tabSize" u32, req "insertSpaces" .bool, opt "trimTrailingWhitespace" .bool, opt "insertFinalNewline" .bool,
   opt "trimFinalNewlines" .bool]
  [.dict (.either "FormattingProperty" [.bool, i32, .text])]

/-- Params of `textDocument/formatting`. -/
def formattingParams : Shape := withProgress "DocumentFormattingParams"
  [req "textDocument" textDocumentIdentifier, req "options" formattingOptions]

/-- Params of `textDocument/rangeFormatting`. -/
def rangeFormattingParams : Shape := withProgress "DocumentRangeFormattingParams"
  [req "textDocument" textDocumentIdentifier, req "range" range, req "options" formattingOptions]

/-- Params of `textDocument/rename`. -/
def renameParams : Shape := atPosition "RenameParams" [req "newName" .text]

/-- Result of `textDocument/prepareRename`. -/
def prepareRenameResponse : Shape := .either "PrepareRenameResponse"
  [range, mapOnly "RangeWithPlaceholder" [req "range" range, req "placeholder" .text],
   mapOnly "DefaultBehavior" [req "defaultBehavior" .bool]]

/-- Lines that can be folded. -/
def foldingRange : Shape := struct "FoldingRange"
  [req "startLine" u32, opt "startCharacter" u32, req "endLine" u32, opt "endCharacter" u32,
   opt "kind" (.choice ["comment", "imports", "region"]), opt "collapsedText" .text]

/-- Params of `textDocument/selectionRange`. -/
def selectionRangeParams : Shape := withTokens "SelectionRangeParams"
  [req "textDocument" textDocumentIdentifier, req "positions" (.list position)]

/-- A range, where the range around it is of some shape. -/
def rangeWithin (around : Shape) : Shape := struct "SelectionRange" [req "range" range, opt "parent" around]

/-- A range with the ranges around it. -/
def selectionRange : Shape := .recursive rangeWithin

/-- Result of the requests for semantic tokens. -/
def semanticTokensResult : Shape := .either "SemanticTokensResult"
  [struct "SemanticTokens" [opt "resultId" .text, req "data" .quintuples],
   struct "SemanticTokensPartialResult" [req "data" .quintuples]]

end Parley.Schema
