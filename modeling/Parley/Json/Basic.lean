import Parley.Number.Binary64

/-!
# JSON values

The free values that messages carry. A number is a whole number or a binary64 number; an object is a list of fields sorted by
name, each name once, which `insertField` keeps. `field?` reads an object, `object` builds one from fields in any order, the
last of a name winning.
-/

namespace Parley

/-- A JSON number: whole numbers are kept apart from numbers written with a point or an exponent. -/
inductive JsonNumber where
  | int (n : Int)
  | float (x : Binary64)
  deriving DecidableEq, Repr

/-- A JSON value. -/
inductive Json where
  | null
  | bool (b : Bool)
  | num (n : JsonNumber)
  | str (s : String)
  | arr (items : List Json)
  | obj (fields : List (String × Json))
  deriving BEq, Repr, Inhabited

namespace Json

/-- A whole number. -/
def int (n : Int) : Json := .num (.int n)

/-- A natural number. -/
def nat (n : Nat) : Json := .num (.int n)

/-- Puts a field into a list of fields sorted by name, replacing the one of that name. -/
def insertField (name : String) (value : Json) : List (String × Json) → List (String × Json)
  | [] => [(name, value)]
  | f :: rest =>
    if name < f.1 then (name, value) :: f :: rest
    else if name = f.1 then (name, value) :: rest
    else f :: insertField name value rest

/-- The value of a field in a list of fields. -/
def lookupField (name : String) (fields : List (String × Json)) : Option Json :=
  (fields.find? fun f => f.1 = name).map (·.2)

/-- The fields without the one of that name. -/
def eraseField (name : String) (fields : List (String × Json)) : List (String × Json) :=
  fields.filter fun f => f.1 ≠ name

/-- The fields in order, the last of each name. -/
def sortFields (fields : List (String × Json)) : List (String × Json) :=
  fields.foldl (fun acc f => insertField f.1 f.2 acc) []

/-- An object from fields in any order. -/
def object (fields : List (String × Json)) : Json := .obj (sortFields fields)

/-- The value of a field, if this is an object that has it. -/
def field? (name : String) : Json → Option Json
  | .obj fields => lookupField name fields
  | _ => none

/-- The text of a string. -/
def str? : Json → Option String
  | .str s => some s
  | _ => none

/-- The items of an array. -/
def arr? : Json → Option (List Json)
  | .arr items => some items
  | _ => none

/-- The whole number of a number. -/
def int? : Json → Option Int
  | .num (.int n) => some n
  | _ => none

/-- The truth value. -/
def bool? : Json → Option Bool
  | .bool b => some b
  | _ => none

/-- Null. -/
def isNull : Json → Bool
  | .null => true
  | _ => false

/-- An optional value, null if there is none. -/
def ofOption (v : Option Json) : Json := v.getD .null

/-- The text of a field, empty if there is none. -/
def textField (v : Json) (name : String) : String := ((v.field? name).bind str?).getD ""

/-- The whole number of a field, 0 if there is none. -/
def intField (v : Json) (name : String) : Int := ((v.field? name).bind int?).getD 0

/-- The items of a field, none if there is no list. -/
def listField (v : Json) (name : String) : List Json := ((v.field? name).bind arr?).getD []

/-- The value of a field, null if there is none. -/
def valueField (v : Json) (name : String) : Json := ofOption (v.field? name)

/-- A list of texts. -/
def strings (xs : List String) : Json := .arr (xs.map .str)

mutual
/-- How deep a value nests. -/
def height : Json → Nat
  | .arr items => itemsHeight items + 1
  | .obj fields => fieldsHeight fields + 1
  | _ => 0
/-- How deep the deepest of some values nests. -/
def itemsHeight : List Json → Nat
  | [] => 0
  | v :: items => Nat.max v.height (itemsHeight items)
/-- How deep the deepest of some fields nests. -/
def fieldsHeight : List (String × Json) → Nat
  | [] => 0
  | (_, v) :: fields => Nat.max v.height (fieldsHeight fields)
end

end Json

end Parley
