import Parley.Json.Basic
import Parley.Text.Utf8

/-!
# Reminders in documents

A line that holds the word `TODO` is an unresolved reminder, and the first such word of a line is where it stands. Columns count
the bytes of the line before it. Lines and columns are words of 32 bits, and larger ones lose what is above.
-/

namespace Parley.Demo

/-- The word that marks a reminder. -/
def todoWord : List Char := ['T', 'O', 'D', 'O']

/-- A position in a document: a line, and a column of it. -/
structure Position where
  line : UInt32
  column : UInt32
  deriving DecidableEq, Repr

/-- Where a reminder stands: from where its word begins to where it ends. -/
structure TodoMark where
  start : Position
  stop : Position
  deriving DecidableEq, Repr

/-- The mark of a reminder in a line of this number, behind so many bytes of it. -/
def TodoMark.at (line column : Nat) : TodoMark :=
  ⟨⟨.ofNat line, .ofNat column⟩, ⟨.ofNat line, .ofNat (column + todoWord.length)⟩⟩

/-- The lines of a text. A line feed ends a line, with the carriage return before it; what follows the last line feed is a line
only if there is something. -/
def lines : List Char → List (List Char)
  | [] => []
  | '\n' :: rest => [] :: lines rest
  | '\r' :: '\n' :: rest => [] :: lines rest
  | c :: rest =>
    match rest with
    | [] => [[c]]
    | _ =>
      match lines rest with
      | first :: others => (c :: first) :: others
      | [] => [[c]]

/-- What stands before the first reminder of a line, if the line has one. -/
def beforeTodo : List Char → Option (List Char)
  | [] => none
  | c :: rest => if todoWord.isPrefixOf (c :: rest) then some [] else (beforeTodo rest).map (c :: ·)

/-- The length of a text in bytes. -/
def byteLength (cs : List Char) : Nat := cs.foldl (fun n c => n + c.utf8Size) 0

/-- The reminders of lines, the first of which has this number. -/
def todoMarks : Nat → List (List Char) → List TodoMark
  | _, [] => []
  | n, line :: rest =>
    match beforeTodo line with
    | some before => .at n (byteLength before) :: todoMarks (n + 1) rest
    | none => todoMarks (n + 1) rest

/-- The reminders of a text. -/
def TodoMark.ofText (text : String) : List TodoMark := todoMarks 0 (lines text.toList)

/-- The record of a position. -/
def Position.toJson (p : Position) : Json := Json.object [("line", .nat p.line.toNat), ("character", .nat p.column.toNat)]

/-- The warning for a reminder. -/
def TodoMark.toJson (m : TodoMark) : Json :=
  Json.object
    [("range", Json.object [("start", m.start.toJson), ("end", m.stop.toJson)]), ("severity", .nat 2),
     ("source", .str "lspkit-demo"), ("message", .str "unresolved TODO")]

end Parley.Demo
