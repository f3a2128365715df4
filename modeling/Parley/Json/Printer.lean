import Parley.Json.Basic
import Parley.Number.Shortest
import Parley.Text.Utf8

/-!
# JSON values as text

The compact written form of a value: no blanks, the fields of an object in their order. Strings escape the quote, the backslash
and the thirty-two control characters and nothing else. A float has the shortest digits that read back, and always a point or
an exponent (`FloatLayout.render`).
-/

namespace Parley

/-- The layout of a decimal number. -/
structure FloatLayout where
  /-- Positional notation is used down to this power of ten of the leading digit. -/
  leastPositional : Int
  /-- Positional notation is used below this power of ten. -/
  positionalBelow : Int
  deriving Repr

namespace FloatLayout

/-- JSON numbers are positional from `1e-5` up to below `1e16`. -/
def json : FloatLayout := ⟨-5, 16⟩

/-- A sequence of zeros. -/
def zeros (n : Nat) : List Char := List.replicate n '0'

/-- The digits of a positive decimal with a point or an exponent. A whole number ends in `.0`; an exponent carries its sign. -/
def render (layout : FloatLayout) (d : Decimal) : List Char :=
  let ds := d.chars
  let leading : Int := d.exponent + ds.length - 1
  if leading < layout.leastPositional ∨ layout.positionalBelow ≤ leading then
    let mantissa := match ds with
      | [] => []
      | [c] => [c]
      | c :: rest => c :: '.' :: rest
    mantissa ++ ['e', if leading < 0 then '-' else '+'] ++ Nat.toDigits 10 leading.natAbs
  else if leading < 0 then
    ['0', '.'] ++ zeros (leading.natAbs - 1) ++ ds
  else if 0 ≤ d.exponent then
    ds ++ zeros d.exponent.toNat ++ ['.', '0']
  else
    ds.take (leading.toNat + 1) ++ ['.'] ++ ds.drop (leading.toNat + 1)

end FloatLayout

namespace Binary64

/-- The written form of a finite number; a number that is not finite has none and is written as null. -/
def toText (x : Binary64) : String :=
  if x.isFinite then
    let body := if x.magnitude = 0 then ['0', '.', '0'] else FloatLayout.json.render x.shortest
    String.ofList (if x.isNegative then '-' :: body else body)
  else "null"

end Binary64

namespace Json

/-- The escape of one byte of a string. -/
def escapeByte (b : UInt8) : Bytes :=
  if b = 0x22 then [0x5c, 0x22]
  else if b = 0x5c then [0x5c, 0x5c]
  else if b = 0x08 then [0x5c, 0x62]
  else if b = 0x09 then [0x5c, 0x74]
  else if b = 0x0a then [0x5c, 0x6e]
  else if b = 0x0c then [0x5c, 0x66]
  else if b = 0x0d then [0x5c, 0x72]
  else if b < 0x20 then
    [0x5c, 0x75, 0x30, 0x30, 0x30 + b / 16, if b % 16 < 10 then 0x30 + b % 16 else 0x57 + b % 16]
  else [b]

/-- A string between quotes. -/
def printString (s : String) : Bytes :=
  0x22 :: (Utf8.encode s).flatMap escapeByte ++ [0x22]

/-- A number. -/
def printNumber : JsonNumber → Bytes
  | .int n => Utf8.encode (toString n)
  | .float x => Utf8.encode x.toText

mutual
/-- The written form of a value. -/
def print : Json → Bytes
  | .null => ascii "null"
  | .bool b => ascii (if b then "true" else "false")
  | .num n => printNumber n
  | .str s => printString s
  | .arr items => 0x5b :: printItems items
  | .obj fields => 0x7b :: printFields fields
/-- The items of an array, up to and with the closing bracket. -/
def printItems : List Json → Bytes
  | [] => [0x5d]
  | [v] => print v ++ [0x5d]
  | v :: rest => print v ++ 0x2c :: printItems rest
/-- The fields of an object, up to and with the closing brace. -/
def printFields : List (String × Json) → Bytes
  | [] => [0x7d]
  | [f] => printField f ++ [0x7d]
  | f :: rest => printField f ++ 0x2c :: printFields rest
/-- A field: its name, a colon and its value. -/
def printField : String × Json → Bytes
  | (name, v) => printString name ++ 0x3a :: print v
end

/-- The written form as a text; every written form is valid UTF-8. -/
def render (v : Json) : String :=
  (Utf8.decode? v.print).getD ""

end Json

end Parley
