/-!
# Binary64 numbers

An IEEE 754 binary64 number is its 64 bits, and what it denotes is a ratio of natural numbers with a sign. All arithmetic is
exact arithmetic on ratios followed by one rounding (`ofRatio`), to the nearest number and at a tie to the even one, so that
nothing here rests on the machine's own floating point.
-/

namespace Parley

/-- A binary64 number, by its bits. -/
structure Binary64 where
  bits : UInt64
  deriving DecidableEq, Repr, Inhabited

/-- A ratio of natural numbers; the denominator is kept positive by those who build one. -/
structure Ratio where
  num : Nat
  den : Nat
  deriving DecidableEq, Repr

namespace Ratio

/-- A whole number as a ratio. -/
def ofNat (n : Nat) : Ratio := ⟨n, 1⟩

/-- The product. -/
def mul (a b : Ratio) : Ratio := ⟨a.num * b.num, a.den * b.den⟩

/-- The quotient, for a divisor that is not zero. -/
def div (a b : Ratio) : Ratio := ⟨a.num * b.den, a.den * b.num⟩

/-- The ratio times a power of two. -/
def scale (a : Ratio) (e : Int) : Ratio :=
  if 0 ≤ e then ⟨a.num * Nat.pow 2 e.toNat, a.den⟩ else ⟨a.num, a.den * Nat.pow 2 (-e).toNat⟩

/-- The ratio times a power of ten. -/
def shift (a : Ratio) (e : Int) : Ratio :=
  if 0 ≤ e then ⟨a.num * Nat.pow 10 e.toNat, a.den⟩ else ⟨a.num, a.den * Nat.pow 10 (-e).toNat⟩

/-- The whole part. -/
def floor (a : Ratio) : Nat := a.num / a.den

/-- The nearest whole number, the even one of two. -/
def round (a : Ratio) : Nat :=
  let q := a.num / a.den
  let r := a.num % a.den
  if 2 * r < a.den then q else if a.den < 2 * r then q + 1 else q + q % 2

/-- Order of ratios, by cross multiplication. -/
def le (a b : Ratio) : Bool := a.num * b.den ≤ b.num * a.den

end Ratio

namespace Binary64

/-- The first pattern that no finite number has: infinity. -/
def infinityBits : Nat := 2047 * Nat.pow 2 52

/-- The sign bit. -/
def isNegative (x : Binary64) : Bool := Nat.pow 2 63 ≤ x.bits.toNat

/-- The bits without the sign. -/
def magnitude (x : Binary64) : Nat := x.bits.toNat % Nat.pow 2 63

/-- A number, neither infinite nor undefined. -/
def isFinite (x : Binary64) : Bool := x.magnitude < infinityBits

/-- A magnitude of bits with a sign. -/
def ofMagnitude (negative : Bool) (magnitude : Nat) : Binary64 :=
  ⟨UInt64.ofNat (if negative then magnitude + Nat.pow 2 63 else magnitude)⟩

/-- The significand and the power of two of a finite number: it denotes `m * 2 ^ e`. -/
def parts (x : Binary64) : Nat × Int :=
  let field : Nat := x.magnitude / Nat.pow 2 52
  let fraction := x.magnitude % Nat.pow 2 52
  if field = 0 then (fraction, -1074) else (fraction + Nat.pow 2 52, (field : Int) - 1075)

/-- The absolute value that a finite number denotes. -/
def toRatio (x : Binary64) : Ratio :=
  (Ratio.ofNat x.parts.1).scale x.parts.2

/-- The power of two on whose multiples the numbers near a positive ratio lie: the significand has 53 bits, and no number is
finer than `2 ^ -1074`. -/
def gridExponent (a : Ratio) : Int :=
  let guess : Int := (a.num.log2 : Int) - (a.den.log2 : Int) - 52
  let e := if (a.scale (-guess)).floor < Nat.pow 2 52 then guess - 1 else guess
  if e < -1074 then -1074 else e

/-- The number nearest to a ratio, the even one of two; infinity where the nearest would be out of range. -/
def ofRatio (negative : Bool) (a : Ratio) : Binary64 :=
  if a.num = 0 then ofMagnitude negative 0
  else
    let e := gridExponent a
    let q := (a.scale (-e)).round
    ofMagnitude negative (Nat.min ((e + 1074).toNat * Nat.pow 2 52 + q) infinityBits)

/-- The number nearest to a whole number. -/
def ofNat (n : Nat) : Binary64 := ofRatio false (Ratio.ofNat n)

/-- The number of the other sign. -/
def neg (x : Binary64) : Binary64 := ofMagnitude (!x.isNegative) x.magnitude

/-- The product of two numbers of equal sign or none, rounded once. -/
def mul (x y : Binary64) : Binary64 :=
  ofRatio (x.isNegative != y.isNegative) (x.toRatio.mul y.toRatio)

/-- The quotient by a number that is not zero, rounded once. -/
def div (x y : Binary64) : Binary64 :=
  ofRatio (x.isNegative != y.isNegative) (x.toRatio.div y.toRatio)

/-- The number nearest to a power of ten. -/
def pow10 (n : Nat) : Binary64 := ofNat (Nat.pow 10 n)

example : ofNat 1 = ⟨0x3ff0000000000000⟩ ∧ ofRatio false ⟨1, 10⟩ = ⟨0x3fb999999999999a⟩ := by decide +kernel
example : ofRatio true ⟨5, Nat.pow 10 324⟩ = ⟨0x8000000000000001⟩ ∧ (pow10 309).isFinite = false := by decide +kernel

end Binary64

end Parley
