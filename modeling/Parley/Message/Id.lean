import Parley.Json.Printer
import Parley.Text.Quoted

/-!
# Message ids

A request is named by a whole number or a text. The two are never confused: the number `1` and the text `1` are different ids.
-/

namespace Parley

/-- The id of a request. -/
inductive MessageId where
  | num (n : Int)
  | str (s : String)
  deriving DecidableEq, Repr

namespace MessageId

/-- The id in a JSON value: a text, or a whole number of 64 bits. -/
def ofJson? : Json → Option MessageId
  | .str s => some (.str s)
  | .num (.int n) => if -Nat.pow 2 63 ≤ n ∧ n < Nat.pow 2 63 then some (.num n) else none
  | _ => none

/-- The id as it is written in a message. -/
def toJson : MessageId → Json
  | .num n => .int n
  | .str s => .str s

/-- The id inside a sentence. -/
def text : MessageId → String
  | .num n => toString n
  | .str s => s

/-- The id with its kind. -/
def describe : MessageId → String
  | .num n => "Number(" ++ toString n ++ ")"
  | .str s => "String(" ++ Text.quoted s ++ ")"

end MessageId

end Parley
