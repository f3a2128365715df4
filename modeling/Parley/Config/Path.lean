/-!
# Paths

File paths with slashes. Repeated slashes, a slash at the end and names that are a single dot do not count, except that a path
may begin with a dot. The name of a file splits at its last dot into a stem and an extension; a dot at the front of a name does
not split it.
-/

namespace Parley.Path

/-- A part of a path that does not count where it stands. -/
def isIdle (part : String) : Bool := part = "" || part = "."

/-- Takes parts that do not count off the end of a path, but not its first part. -/
def trimParts (parts : List String) : List String :=
  match parts with
  | [] => []
  | first :: rest => first :: (rest.reverse.dropWhile isIdle).reverse

/-- The parts of a path between slashes, those at the end that do not count left out. -/
def parts (path : String) : List String := trimParts (path.splitOn "/")

/-- The name of the file that a path leads to, if it leads to one. -/
def fileName? (path : String) : Option String :=
  match (parts path).getLast? with
  | some name => if isIdle name || name = ".." then none else some name
  | none => none

/-- The text of the parts of a path; the root alone is a slash. -/
def ofParts (ps : List String) : String := if ps = [""] then "/" else "/".intercalate ps

/-- The path with another file name in the place of its own. -/
def withFileName (path name : String) : String :=
  match trimParts (parts path).dropLast with
  | [] => name
  | [""] => "/" ++ name
  | ps => ofParts ps ++ "/" ++ name

/-- The stem and the extension of a file name. -/
def splitName (name : String) : String × Option String :=
  let after := name.toList.reverse.takeWhile (· ≠ '.')
  let before := (name.toList.reverse.dropWhile (· ≠ '.')).drop 1
  if before.isEmpty then (name, none) else (String.ofList before.reverse, some (String.ofList after.reverse))

/-- The path with a mark in its file name, before the extension. -/
def withMark (path mark : String) : String :=
  match fileName? path with
  | none => path
  | some name =>
    match splitName name with
    | (stem, some extension) =>
      withFileName path (if extension = "" then stem ++ "." ++ mark else stem ++ "." ++ mark ++ "." ++ extension)
    | (stem, none) => withFileName path (stem ++ "." ++ mark)

end Parley.Path
