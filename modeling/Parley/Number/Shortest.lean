import Parley.Number.Binary64

/-!
# The shortest digits of a number

A positive binary64 number is written with the fewest decimal digits that read back as the same number, and of those with the
digits nearest to it. The reals that round to the number form an interval; for one, two, ... seventeen digits the two neighbours
of the number on the decimal grid of that size are tried, and the first grid with a point in the interval wins.
-/

namespace Parley

/-- Digits and the power of ten of the last one: `digits * 10 ^ exponent`. -/
structure Decimal where
  digits : Nat
  exponent : Int
  deriving DecidableEq, Repr

namespace Decimal

/-- The value of a decimal. -/
def toRatio (d : Decimal) : Ratio := (Ratio.ofNat d.digits).shift d.exponent

/-- The digits as characters. -/
def chars (d : Decimal) : List Char := Nat.toDigits 10 d.digits

/-- The decimal without zeros at its end, taking at most `fuel` of them away. -/
def strip : Nat → Decimal → Decimal
  | 0, d => d
  | fuel + 1, d =>
    if d.digits ≠ 0 ∧ d.digits % 10 = 0 then strip fuel ⟨d.digits / 10, d.exponent + 1⟩ else d

end Decimal

namespace Binary64

/-- The reals that round to a finite number lie between these two; the ends belong to them iff the significand is even. -/
def interval (x : Binary64) : Ratio × Ratio :=
  let (m, e) := x.parts
  let below := if m = Nat.pow 2 52 ∧ -1074 < e then 4 * m - 1 else 4 * m - 2
  ((Ratio.ofNat below).scale (e - 2), (Ratio.ofNat (4 * m + 2)).scale (e - 2))

/-- A ratio that rounds to the number. -/
def covers (x : Binary64) (a : Ratio) : Bool :=
  let (low, high) := x.interval
  if x.parts.1 % 2 = 0 then low.le a && a.le high else !a.le low && !high.le a

/-- The exponent of ten of the leading digit of a positive ratio. -/
def leadingExponent (a : Ratio) : Int :=
  if a.den ≤ a.num then ((Nat.toDigits 10 a.floor).length : Int) - 1
  else
    let rec down : Nat → Int → Int
      | 0, k => k
      | fuel + 1, k => if 0 < (a.shift (-k)).floor then k else down fuel (k - 1)
    down 400 (-1)

/-- The decimal of `n` digits that reads back as the number, if there is one: of two the nearer, at a tie the even one. -/
def onGrid (x : Binary64) (n : Nat) : Option Decimal :=
  let v := x.toRatio
  let exponent := leadingExponent v - (n : Int) + 1
  let scaled := v.shift (-exponent)
  let low : Decimal := ⟨scaled.floor, exponent⟩
  let high : Decimal := ⟨scaled.floor + 1, exponent⟩
  match x.covers low.toRatio, x.covers high.toRatio with
  | true, true => some ⟨scaled.round, exponent⟩
  | true, false => some low
  | false, true => some high
  | false, false => none

/-- The shortest decimal of a positive finite number. -/
def shortest (x : Binary64) : Decimal :=
  let found := (List.range 17).findSome? fun n => x.onGrid (n + 1)
  (found.getD ⟨0, 0⟩).strip 400

example : shortest ⟨0x3fb999999999999a⟩ = ⟨1, -1⟩ ∧ shortest ⟨1⟩ = ⟨5, -324⟩ := by decide +kernel

end Binary64

end Parley
