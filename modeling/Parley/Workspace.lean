import Parley.Schema.Catalogue
import Parley.Table
import Parley.Uri

/-!
# Workspaces

What a server knows of its client: the documents that are open, the folders, and what the client said of itself. Documents are
kept whole, so a change of a range is left aside; a change of the whole text replaces it.
-/

namespace Parley

/-- An open document. -/
structure Document where
  uri : String
  languageId : String
  version : Int
  text : String
  deriving DecidableEq, Repr

/-- The record of a document. -/
def Document.toJson (d : Document) : Json :=
  Json.object [("uri", .str d.uri), ("language_id", .str d.languageId), ("version", .int d.version), ("text", .str d.text)]

/-- A change of a document: the new text, and whether it is that of a range only. -/
structure Change where
  ofRange : Bool
  text : String
  deriving DecidableEq, Repr

/-- A folder of the workspace. -/
structure Folder where
  uri : String
  name : String
  deriving DecidableEq, Repr

/-- The record of a folder. -/
def Folder.toJson (f : Folder) : Json := Json.object [("name", .str f.name), ("uri", .str f.uri)]

/-- The text after some changes, the first change first. -/
def Change.applyAll (text : String) : List Change → String
  | [] => text
  | c :: rest => applyAll (if c.ofRange then text else c.text) rest

/-- How much the client wants to hear of the server's work. -/
inductive Trace where
  | off
  | messages
  | verbose
  deriving DecidableEq, Repr

/-- The word for a level of tracing. -/
def Trace.word : Trace → String
  | .off => "off"
  | .messages => "messages"
  | .verbose => "verbose"

/-- The level of tracing that a word stands for. -/
def Trace.ofWord : String → Trace
  | "messages" => .messages
  | "verbose" => .verbose
  | _ => .off

/-- What a server knows of its client. -/
structure Workspace where
  /-- The open documents, by URI. -/
  documents : Table String Document := {}
  /-- The folders, by URI. -/
  folders : Table String Folder := {}
  processId : Option Int := none
  /-- What the client can do, once it has said so. -/
  capabilities : Option Json := none
  clientInfo : Option Json := none
  trace : Trace := .off
  /-- The client said that it is ready. -/
  initialized : Bool := false

namespace Workspace

/-- A document is opened. -/
def putDocument (w : Workspace) (d : Document) : Workspace := { w with documents := w.documents.insert d.uri d }

/-- A document is changed, if it is open. -/
def updateDocument (w : Workspace) (uri : String) (version : Int) (changes : List Change) : Workspace :=
  match w.documents.find? uri with
  | some d =>
    { w with documents := w.documents.insert uri { d with version, text := Change.applyAll d.text changes } }
  | none => w

/-- A document is closed. -/
def removeDocument (w : Workspace) (uri : String) : Workspace := { w with documents := w.documents.erase uri }

/-- A folder is added. -/
def addFolder (w : Workspace) (f : Folder) : Workspace := { w with folders := w.folders.insert f.uri f }

/-- A folder is removed. -/
def removeFolder (w : Workspace) (uri : String) : Workspace := { w with folders := w.folders.erase uri }

/-- The folders in the order of their URIs. -/
def sortedFolders (w : Workspace) : List Folder :=
  w.folders.values.mergeSort fun a b => decide (a.uri ≤ b.uri)

end Workspace

/-! ## Reading payloads -/

/-- The document that a payload describes. -/
def Document.ofJson (v : Json) : Document :=
  ⟨v.textField "uri", v.textField "languageId", v.intField "version", v.textField "text"⟩

/-- The change that a payload describes. -/
def Change.ofJson (v : Json) : Change := ⟨(v.field? "range").isSome, v.textField "text"⟩

/-- The folder that a payload describes. -/
def Folder.ofJson (v : Json) : Folder := ⟨v.textField "uri", v.textField "name"⟩

namespace Folder

/-- The name of a folder that has none: the last segment of its URI, slashes at the end left out; the whole URI without them if
that segment is empty. -/
def nameOf (uri : String) : String :=
  let text := (uri.toList.reverse.dropWhile (· = '/')).reverse
  let segment := (text.reverse.takeWhile (· ≠ '/')).reverse
  String.ofList (if segment.isEmpty then text else segment)

/-- The folder of a root. -/
def ofRoot (uri : String) : Folder := ⟨uri, nameOf uri⟩

end Folder

end Parley
