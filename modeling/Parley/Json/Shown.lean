import Parley.Json.Printer
import Parley.Text.Quoted

/-!
# Values with their kinds

How a value is shown to a developer: every value names its kind.
-/

namespace Parley.Json

mutual
/-- A value with its kind. -/
def describe : Json → String
  | .null => "Null"
  | .bool b => "Bool(" ++ toString b ++ ")"
  | .num (.int n) => "Number(" ++ toString n ++ ")"
  | .num (.float x) => "Number(" ++ x.toText ++ ")"
  | .str s => "String(" ++ Text.quoted s ++ ")"
  | .arr items => "Array [" ++ ", ".intercalate (describeItems items) ++ "]"
  | .obj fields => "Object \x7b" ++ ", ".intercalate (describeFields fields) ++ "\x7d"
/-- The items of an array. -/
def describeItems : List Json → List String
  | [] => []
  | v :: rest => describe v :: describeItems rest
/-- The fields of an object. -/
def describeFields : List (String × Json) → List String
  | [] => []
  | (name, v) :: rest => (Text.quoted name ++ ": " ++ describe v) :: describeFields rest
end

end Parley.Json
