import Parley.Text.Blank
import Parley.Text.Digit
import Parley.Text.Utf8

/-!
# The Content-Length header line

A frame announces the length of its body in a header line: the name in any ASCII letter case, a colon, blanks, decimal digits,
blanks, and the line feed that ends the line. The digits may be of any script; only ASCII digits that denote a number below
`2 ^ 64` are a length. Every other line is not a Content-Length line at all.
-/

namespace Parley.Frame

/-- What a header line says about the length of the body. -/
inductive LengthLine where
  /-- The line declares this length. -/
  | declares (length : Nat)
  /-- The line has the shape of a declaration, but these digits are no length. -/
  | malformed (digits : String)
  /-- The line is some other line. -/
  | other
  deriving DecidableEq, Repr

/-- A letter of the ASCII range in lower case. -/
def lower (b : UInt8) : UInt8 := if 0x41 ≤ b ∧ b ≤ 0x5a then b + 0x20 else b

/-- The name of the header with its colon, in lower case. -/
def lengthName : Bytes := ascii "content-length:"

/-- The digits of a line from behind its colon, if blanks, digits, blanks and a final line feed are all there is. -/
def lengthDigits? (cs : List Char) : Option (List Char) :=
  let rest := cs.dropWhile Text.isBlank
  let digits := rest.takeWhile Text.isDecimalDigit
  let after := rest.dropWhile Text.isDecimalDigit
  if digits ≠ [] ∧ after.all Text.isBlank ∧ after.getLast? = some '\n' then some digits else none

/-- Reads a header line. -/
def lengthLine (line : Bytes) : LengthLine :=
  if (line.take lengthName.length).map lower = lengthName then
    match (Utf8.decode? (line.drop lengthName.length)).bind fun s => lengthDigits? s.toList with
    | some digits =>
      let n := Text.numeral digits
      if digits.all Text.isAsciiDigit ∧ n < Nat.pow 2 64 then .declares n else .malformed (String.ofList digits)
    | none => .other
  else .other

end Parley.Frame
