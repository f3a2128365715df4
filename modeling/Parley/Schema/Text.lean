import Parley.Schema.Basic

/-!
# Shapes of documents, positions and edits

The vocabulary that the payloads of the language server protocol share: positions and ranges, documents, diagnostics, edits and
the progress tokens that travel in the same object as the payload proper.
-/

namespace Parley.Schema

open Shape

/-- A place in a document, counted from zero. -/
def position : Shape := struct "Position" [req "line" u32, req "character" u32]

/-- The text between two places. -/
def range : Shape := struct "Range" [req "start" position, req "end" position]

/-- A range of a document. -/
def location : Shape := struct "Location" [req "uri" .uri, req "range" range]

/-- A range of a document and the range that led to it. -/
def locationLink : Shape := struct "LocationLink"
  [opt "originSelectionRange" range, req "targetUri" .uri, req "targetRange" range, req "targetSelectionRange" range]

/-- A document. -/
def textDocumentIdentifier : Shape := struct "TextDocumentIdentifier" [req "uri" .uri]

/-- A document at a version. -/
def versionedTextDocumentIdentifier : Shape := struct "VersionedTextDocumentIdentifier" [req "uri" .uri, req "version" i32]

/-- A document with its text. -/
def textDocumentItem : Shape := struct "TextDocumentItem"
  [req "uri" .uri, req "languageId" .text, req "version" i32, req "text" .text]

/-- A place in a named document. -/
def textDocumentPositionParams : Shape := struct "TextDocumentPositionParams"
  [req "textDocument" textDocumentIdentifier, req "position" position]

/-- An identifier of the protocol: a 32-bit number or a text. -/
def numberOrString : Shape := .either "NumberOrString" [i32, .text]

/-- The token of a progress report. -/
def workDoneProgressParams : Shape := struct "WorkDoneProgressParams" [opt "workDoneToken" numberOrString]

/-- The token of a partial result. -/
def partialResultParams : Shape := struct "PartialResultParams" [opt "partialResultToken" numberOrString]

/-- A record that may carry the token of a progress report. -/
def withProgress (name : String) (fields : List Field) : Shape := .record name fields [workDoneProgressParams]

/-- A record that may carry the tokens of progress reports and of partial results. -/
def withTokens (name : String) (fields : List Field) : Shape :=
  .record name fields [workDoneProgressParams, partialResultParams]

/-- A record about a place in a document. -/
def atPosition (name : String) (fields : List Field) : Shape :=
  .record name fields [textDocumentPositionParams, workDoneProgressParams]

/-- A record about a place in a document, with a partial result. -/
def atPositionPartial (name : String) (fields : List Field) : Shape :=
  .record name fields [textDocumentPositionParams, workDoneProgressParams, partialResultParams]

/-- One of two shapes. -/
def oneOf (a b : Shape) : Shape := .either "OneOf" [a, b]

/-- A command with its arguments. -/
def command : Shape := struct "Command" [req "title" .text, req "command" .text, opt "arguments" (.list .any)]

/-- A remark on a range of a document. -/
def diagnostic : Shape := struct "Diagnostic"
  [req "range" range, opt "severity" i32, opt "code" numberOrString,
   opt "codeDescription" (struct "CodeDescription" [req "href" .uri]), opt "source" .text, req "message" .text,
   opt "relatedInformation"
    (.list (struct "DiagnosticRelatedInformation" [req "location" location, req "message" .text])),
   opt "tags" (.list i32), opt "data" .any]

/-- A range and its new text. -/
def textEdit : Shape := struct "TextEdit" [req "range" range, req "newText" .text]

/-- An edit with the annotation that explains it. -/
def annotatedTextEdit : Shape := .record "AnnotatedTextEdit" [req "annotationId" .text] [textEdit]

/-- A document, at a version if one is known. -/
def optionalVersionedTextDocumentIdentifier : Shape := struct "OptionalVersionedTextDocumentIdentifier"
  [req "uri" .uri, opt "version" i32]

/-- Edits of one document. -/
def textDocumentEdit : Shape := struct "TextDocumentEdit"
  [req "textDocument" optionalVersionedTextDocumentIdentifier, req "edits" (.list (oneOf textEdit annotatedTextEdit))]

/-- What to do where the file is there already. -/
def fileOptions (name : String) : Shape := struct name [opt "overwrite" .bool, opt "ignoreIfExists" .bool]

/-- Creating, renaming or deleting a file, by the word in `kind`. -/
def resourceOperation : Shape := .tagged "kind"
  [("create", struct "CreateFile"
    [req "uri" .uri, opt "options" (fileOptions "CreateFileOptions"), opt "annotationId" .text]),
   ("rename", struct "RenameFile"
    [req "oldUri" .uri, req "newUri" .uri, opt "options" (fileOptions "RenameFileOptions"), opt "annotationId" .text]),
   ("delete", struct "DeleteFile"
    [req "uri" .uri,
     opt "options" (struct "DeleteFileOptions"
      [opt "recursive" .bool, opt "ignoreIfNotExists" .bool, opt "annotationId" .text])])]

/-- Edits of documents, possibly with changes of files among them. -/
def documentChanges : Shape := .either "DocumentChanges"
  [.list textDocumentEdit, .list (.either "DocumentChangeOperation" [resourceOperation, textDocumentEdit])]

/-- Words that explain a change. -/
def changeAnnotation : Shape := struct "ChangeAnnotation"
  [req "label" .text, opt "needsConfirmation" .bool, opt "description" .text]

/-- Changes across documents. -/
def workspaceEdit : Shape := struct "WorkspaceEdit"
  [opt "changes" (.uriDict (.list textEdit)), opt "documentChanges" documentChanges,
   opt "changeAnnotations" (.dict changeAnnotation)]

/-- A text with its format. -/
def markupContent : Shape := struct "MarkupContent" [req "kind" (.choice ["plaintext", "markdown"]), req "value" .text]

/-- A plain text or one with a format. -/
def documentation : Shape := .either "Documentation" [.text, markupContent]

/-- A text or a piece of code in a language. -/
def markedString : Shape := .either "MarkedString"
  [.text, struct "LanguageString" [req "language" .text, req "value" .text]]

/-- A folder of the workspace. -/
def workspaceFolder : Shape := struct "WorkspaceFolder" [req "uri" .uri, req "name" .text]

/-- How much is traced. -/
def traceValue : Shape := .choice ["off", "messages", "verbose"]

end Parley.Schema
