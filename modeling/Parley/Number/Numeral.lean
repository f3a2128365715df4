import Parley.Text.Digit

/-!
# Numerals

Numbers as people write them into settings: decimal digits, perhaps behind a sign. The characters are read from the left, and
the first that is no digit, or that makes the number too large, decides what is wrong.
-/

namespace Parley.Numeral

/-- Why a text is not a number. -/
inductive Fault where
  | empty
  | invalidDigit
  | tooLarge
  deriving DecidableEq, Repr

/-- The wording of a fault. -/
def Fault.message : Fault → String
  | .empty => "cannot parse integer from empty string"
  | .invalidDigit => "invalid digit found in string"
  | .tooLarge => "number too large to fit in target type"

/-- Reads digits behind a number, which stays at most `max`. -/
def readDigits (max : Nat) : Nat → List Char → Except Fault Nat
  | n, [] => .ok n
  | n, c :: rest =>
    if Text.isAsciiDigit c then
      let n := 10 * n + (c.toNat - '0'.toNat)
      if max < n then .error .tooLarge else readDigits max n rest
    else .error .invalidDigit

/-- Reads a number of at most `max`, perhaps behind a plus sign. -/
def unsigned (max : Nat) (s : String) : Except Fault Nat :=
  match s.toList with
  | [] => .error .empty
  | ['+'] => .error .invalidDigit
  | '+' :: digits => readDigits max 0 digits
  | digits => readDigits max 0 digits

/-- Reads a number, perhaps behind a sign, whose size is at most `max`. -/
def signed (max : Nat) (s : String) : Except Fault Int :=
  match s.toList with
  | ['-'] => .error .invalidDigit
  | '-' :: digits => (readDigits max 0 digits).map fun n => -(n : Int)
  | _ => (unsigned max s).map Int.ofNat

end Parley.Numeral
