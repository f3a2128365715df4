import Parley.Json.Printer
import Parley.Text.Quoted
import Parley.Uri

/-!
# Shapes of payloads

A shape says which JSON values a payload may be. `Shape.read` checks a value against a shape and gives the value in normal form:
records as objects that hold the fields of the shape and no others, optional fields left out where they are absent or null,
defaults filled in. A value that does not match is refused with the first mismatch: the fields that are present are looked at in
the order of their names, then the ones that are missing in the order of the shape.
-/

namespace Parley

/-- Whether a field of a record may be left out. -/
inductive Presence where
  /-- The field must be there. -/
  | required
  /-- The field may be absent or null; a record given as a list still has to list it. -/
  | optional
  /-- As `optional`, and a list may end before it. -/
  | omissible
  /-- An absent field has this value. -/
  | default (value : Json)
  deriving Repr

/-- Null is a value of an optional field, whatever its shape. -/
def Presence.admitsNull : Presence → Bool
  | .optional | .omissible => true
  | .required | .default _ => false

/-- Why a value does not match a shape. -/
inductive Mismatch where
  | invalidType (found : Json) (expected : String)
  | invalidValue (found : Json) (expected : String)
  | missingField (name : String)
  | unknownVariant (word : String) (words : List String)
  | invalidLength (length : Nat) (expected : String)
  | noVariant (name : String)
  | notQuintuples
  | invalidUri (fault : UriFault)
  /-- What a shape of the user's own says. -/
  | custom (text : String)
  deriving Repr

/-- A shape. -/
inductive Shape where
  /-- Any value. -/
  | any
  /-- Null. -/
  | unit
  | bool
  | text
  /-- A whole number of a range with a name. -/
  | int (name : String) (low high : Int)
  /-- A number. -/
  | float
  | uri
  /-- Null or a value of the shape. -/
  | optional (shape : Shape)
  /-- A truth value or a value of the shape. -/
  | orFlag (shape : Shape)
  | list (shape : Shape)
  /-- A list of numbers whose length is a multiple of five. -/
  | quintuples
  /-- A list of a fixed length. -/
  | tuple (shapes : List Shape)
  /-- An object of any field names. -/
  | dict (shape : Shape)
  /-- An object whose field names are URIs. -/
  | uriDict (shape : Shape)
  /-- An object of known fields; the fields of `inlined` shapes stand in the same object. -/
  | record (name : String) (fields : List (String × Presence × Shape)) (inlined : List Shape)
  /-- One of some words. -/
  | choice (words : List String)
  /-- The first of some shapes that matches. -/
  | either (name : String) (shapes : List Shape)
  /-- An object whose shape depends on the variant that one of its fields names, or a list whose first item names it. -/
  | tagged (field : String) (variants : List (String × Shape))
  /-- A shape of the user's own, by the function that reads it. -/
  | custom (read : Json → Except Mismatch Json)
  deriving Inhabited

namespace Mismatch

/-- How a value is named where another was expected. -/
def describe : Json → String
  | .null => "null"
  | .bool b => "boolean `" ++ toString b ++ "`"
  | .num (.int n) => "integer `" ++ toString n ++ "`"
  | .num (.float x) => "floating point `" ++ x.toText ++ "`"
  | .str s => "string " ++ Text.quoted s
  | .arr _ => "sequence"
  | .obj _ => "map"

/-- The words of a choice: one, two, or a list. -/
def oneOf (words : List String) : String :=
  let marked := words.map fun w => "`" ++ w ++ "`"
  match marked with
  | [] => "there are no variants"
  | [a] => "expected " ++ a
  | [a, b] => "expected " ++ a ++ " or " ++ b
  | ws => "expected one of " ++ String.intercalate ", " ws

/-- The wording of a mismatch. -/
def message : Mismatch → String
  | .invalidType found expected => "invalid type: " ++ describe found ++ ", expected " ++ expected
  | .invalidValue found expected => "invalid value: " ++ describe found ++ ", expected " ++ expected
  | .missingField name => "missing field `" ++ name ++ "`"
  | .unknownVariant word words => "unknown variant `" ++ word ++ "`, " ++ oneOf words
  | .invalidLength length expected => "invalid length " ++ toString length ++ ", expected " ++ expected
  | .noVariant name => "data did not match any variant of untagged enum " ++ name
  | .notQuintuples => "Length is not divisible by 5"
  | .invalidUri fault => fault.message
  | .custom text => text

end Mismatch

namespace Shape

/-- A field of a record. -/
abbrev Field := String × Presence × Shape

/-- A 32-bit number. -/
def i32 : Shape := .int "i32" (-Nat.pow 2 31) (Nat.pow 2 31 - 1)
/-- An unsigned 32-bit number. -/
def u32 : Shape := .int "u32" 0 (Nat.pow 2 32 - 1)
/-- A 64-bit number. -/
def i64 : Shape := .int "i64" (-Nat.pow 2 63) (Nat.pow 2 63 - 1)
/-- An unsigned 64-bit number. -/
def u64 : Shape := .int "u64" 0 (Nat.pow 2 64 - 1)
/-- An unsigned 8-bit number. -/
def u8 : Shape := .int "u8" 0 255

/-- A record without inlined shapes. -/
def struct (name : String) (fields : List Field) : Shape := .record name fields []

/-- A record that is given as an object only. -/
def mapOnly (name : String) (fields : List Field) : Shape := .record name fields [struct name []]

/-- A field that must be there. -/
def req (name : String) (s : Shape) : Field := (name, .required, s)
/-- A field that may be absent or null. -/
def opt (name : String) (s : Shape) : Field := (name, .optional, s)
/-- A field that may be absent, null, or off the end of a list. -/
def omissible (name : String) (s : Shape) : Field := (name, .omissible, s)
/-- A field with a default. -/
def dflt (name : String) (s : Shape) (value : Json) : Field := (name, .default value, s)

/-- A whole number of a range. -/
def readInt (name : String) (low high : Int) (v : Json) : Except Mismatch Json :=
  match v with
  | .num (.int n) => if low ≤ n ∧ n ≤ high then .ok v else .error (.invalidValue v name)
  | v => .error (.invalidType v name)

/-- How a record given as a list is described: by its name and the number of its fields. -/
def elements (name : String) (n : Nat) : String :=
  "struct " ++ name ++ " with " ++ toString n ++ (if n = 1 then " element" else " elements")

/-- The values of the fields that are missing: defaults, and nothing for optional ones. -/
def fillMissing (present : List String) : List Field → Except Mismatch (List (String × Json))
  | [] => .ok []
  | (name, presence, _) :: rest =>
    if present.contains name then fillMissing present rest
    else
      match presence with
      | .required => .error (.missingField name)
      | .default value => do return (name, value) :: (← fillMissing present rest)
      | .optional | .omissible => fillMissing present rest

/-- An optional field that is null is left out. -/
def keep (name : String) (presence : Presence) (v : Json) : List (String × Json) :=
  match presence, v with
  | .optional, .null | .omissible, .null => []
  | _, v => [(name, v)]

/-- The names of the fields of a record, those of inlined records apart. -/
def fieldNames (fields : List Field) : List String := fields.map (·.1)

/-- The word of a variant that a value names, which it does by the word or, in a value that is read once already, by its place. -/
def variantWord (words : List String) (tag : Json) : Except Mismatch String :=
  match tag with
  | .str w => if words.contains w then .ok w else .error (.unknownVariant w words)
  | .num (.int (.ofNat i)) =>
    match words[i]? with
    | some w => .ok w
    | none => .error (.invalidValue tag ("variant index 0 <= i < " ++ toString words.length))
  | tag => .error (.invalidType tag "variant identifier")

/-- The record of a variant with the word of the variant. -/
def putWord (field w : String) : Json → Json
  | .obj fields => .obj (Json.insertField field (.str w) fields)
  | v => v

/-- What some fields give, in their order; the first that is refused decides. -/
def collect (field : String → Json → Except Mismatch (List (String × Json))) :
    List (String × Json) → Except Mismatch (List (String × Json))
  | [] => .ok []
  | (name, v) :: rest => do
    let own ← field name v
    return own ++ (← collect field rest)

mutual
/-- Checks a value against a shape and gives its normal form. -/
def read : Shape → Json → Except Mismatch Json
  | .any, v => .ok v
  | .unit, v => if v.isNull then .ok v else .error (.invalidType v "unit")
  | .bool, v => match v with
    | .bool _ => .ok v
    | v => .error (.invalidType v "a boolean")
  | .text, v => match v with
    | .str _ => .ok v
    | v => .error (.invalidType v "a string")
  | .int name low high, v => readInt name low high v
  | .float, v => match v with
    | .num (.int n) => .ok (.num (.float (Binary64.ofRatio (n < 0) (Ratio.ofNat n.natAbs))))
    | .num (.float _) => .ok v
    | v => .error (.invalidType v "f64")
  | .uri, v => match v with
    | .str s => match Uri.parse s with
      | .ok _ => .ok v
      | .error fault => .error (.invalidUri fault)
    | v => .error (.invalidType v "a string")
  | .optional s, v => if v.isNull then .ok v else read s v
  | .orFlag s, v => match v with
    | .bool _ => .ok v
    | v => read s v
  | .list s, v => match v with
    | .arr items => do return .arr (← items.mapM fun item => read s item)
    | v => .error (.invalidType v "a sequence")
  | .quintuples, v => match v with
    | .arr items => do
      let items ← items.mapM fun item => readInt "u32" 0 (Nat.pow 2 32 - 1) item
      if items.length % 5 = 0 then .ok (.arr items) else .error .notQuintuples
    | v => .error (.invalidType v "a sequence")
  | .tuple shapes, v => match v with
    | .arr items => do
      let (read, rest) ← readTuple shapes items 0 shapes.length
      if rest.isEmpty then .ok (.arr read)
      else .error (.invalidLength items.length "fewer elements in array")
    | v => .error (.invalidType v ("an array of length " ++ toString shapes.length))
  | .dict s, v => match v with
    | .obj fields => do return .obj (← fields.mapM fun f => do return (f.1, ← read s f.2))
    | v => .error (.invalidType v "a map")
  | .uriDict s, v => match v with
    | .obj fields => do
      return .obj (← fields.mapM fun f =>
        match Uri.parse f.1 with
        | .ok _ => do return (f.1, ← read s f.2)
        | .error fault => .error (.invalidUri fault))
    | v => .error (.invalidType v "a map")
  | .record name fields inlined, v => match v with
    | .obj given => do
      let own ← collect (fun name v => readNamed fields name v) given
      let filled ← fillMissing (given.map (·.1)) fields
      let others ← readInlined inlined (given.filter fun f => !(fieldNames fields).contains f.1)
      return Json.object (own ++ filled ++ others)
    | .arr items =>
      if inlined.isEmpty then do
        let (own, rest) ← readListed (elements name fields.length) fields items 0
        if rest.isEmpty then .ok (Json.object own)
        else .error (.invalidLength items.length "fewer elements in array")
      else .error (.invalidType v ("struct " ++ name))
    | v => .error (.invalidType v ("struct " ++ name))
  | .choice words, v => match v with
    | .str w => if words.contains w then .ok v else .error (.unknownVariant w words)
    | .obj [(w, content)] =>
      if words.contains w then
        if content.isNull then .ok (.str w) else .error (.invalidType content "unit")
      else .error (.unknownVariant w words)
    | .obj _ => .error (.invalidValue v "map with a single key")
    | v => .error (.invalidType v "string or map")
  | .either name shapes, v => match readFirst shapes v with
    | some v => .ok v
    | none => .error (.noVariant name)
  | .tagged field variants, v => match v with
    | .obj given => match Json.lookupField field given with
      | none => .error (.missingField field)
      | some tag => do
        let w ← variantWord (variants.map (·.1)) tag
        return putWord field w (← readVariant variants w (.obj (Json.eraseField field given)))
    | .arr [] => .error (.missingField field)
    | .arr (tag :: items) => do
      let w ← variantWord (variants.map (·.1)) tag
      return putWord field w (← readVariant variants w (.arr items))
    | v => .error (.invalidType v "internally tagged enum")
  | .custom read, v => read v
/-- A given field, if the shape knows it. -/
def readNamed : List Field → String → Json → Except Mismatch (List (String × Json))
  | [], _, _ => .ok []
  | (known, presence, s) :: rest, name, v =>
    if known = name then
      if presence.admitsNull && v.isNull then .ok [] else do return keep name presence (← read s v)
    else readNamed rest name v
/-- The fields of a record given as a list, and what is left of the list. -/
def readListed (expected : String) : List Field → List Json → Nat → Except Mismatch (List (String × Json) × List Json)
  | [], items, _ => .ok ([], items)
  | (name, presence, s) :: rest, items, i =>
    match items with
    | v :: items => do
      let own ← if presence.admitsNull && v.isNull then pure [] else do pure (keep name presence (← read s v))
      let (more, left) ← readListed expected rest items (i + 1)
      return (own ++ more, left)
    | [] => match presence with
      | .required | .optional => .error (.invalidLength i expected)
      | .omissible => readListed expected rest [] (i + 1)
      | .default value => do
        let (more, left) ← readListed expected rest [] (i + 1)
        return ((name, value) :: more, left)
/-- The items of a tuple, and what is left of the list. -/
def readTuple : List Shape → List Json → Nat → Nat → Except Mismatch (List Json × List Json)
  | [], items, _, _ => .ok ([], items)
  | s :: rest, items, i, n =>
    match items with
    | v :: items => do
      let v ← read s v
      let (more, left) ← readTuple rest items (i + 1) n
      return (v :: more, left)
    | [] => .error (.invalidLength i ("an array of length " ++ toString n))
/-- The fields of inlined shapes, from the fields that the record itself does not know. -/
def readInlined : List Shape → List (String × Json) → Except Mismatch (List (String × Json))
  | [], _ => .ok []
  | s :: rest, given => do
    match s with
    | .record _ fields inlined => do
      let own ← collect (fun name v => readNamed fields name v) given
      let filled ← fillMissing (given.map (·.1)) fields
      let nested ← readInlined inlined given
      let others ← readInlined rest (given.filter fun f => !(fieldNames fields).contains f.1)
      return own ++ filled ++ nested ++ others
    | .dict s => do
      let own ← given.mapM fun f => do return (f.1, ← read s f.2)
      let others ← readInlined rest given
      return own ++ others
    | _ => readInlined rest given
/-- The normal form under the first shape that matches. -/
def readFirst : List Shape → Json → Option Json
  | [], _ => none
  | s :: rest, v => match read s v with
    | .ok v => some v
    | .error _ => readFirst rest v
/-- The normal form under the shape of a variant. -/
def readVariant : List (String × Shape) → String → Json → Except Mismatch Json
  | [], w, _ => .error (.unknownVariant w [])
  | (word, s) :: rest, w, v => if word = w then read s v else readVariant rest w v
end

/-- A shape that occurs in itself: a value is checked against as many layers as it can need. -/
def recursive (layer : Shape → Shape) : Shape := .custom fun v => (Nat.repeat layer (v.height + 1) .any).read v

/-- A value matches a shape if it can be read. -/
def admits (s : Shape) (v : Json) : Bool := (s.read v).isOk

end Shape

end Parley
