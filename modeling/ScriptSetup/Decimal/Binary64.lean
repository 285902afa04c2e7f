/-!
# Magnitudes in binary floating point

The values without sign that a 64-bit binary floating point number can have, and the one
nearest to a fraction. All arithmetic is exact.
-/

set_option autoImplicit false

namespace ScriptSetup.Decimal

/-- A magnitude: `significand * 2 ^ exponent`, or infinity. In a magnitude that `nearest` gives,
the significand has at most 53 bits and the exponent is the smallest possible, but at least
`-1074`. -/
inductive Magnitude where
  | finite (significand : Nat) (exponent : Int)
  | infinite
  deriving DecidableEq, Repr, Inhabited

namespace Magnitude

/-- The smallest exponent. -/
def minExponent : Int := -1074

/-- The largest exponent. -/
def maxExponent : Int := 971

/-- The value zero. -/
def zero : Magnitude := finite 0 minExponent

/-- Numerator and denominator of `num / den` divided by `2 ^ e`. -/
def scaleBy (num den : Nat) (e : Int) : Nat × Nat :=
  if 0 ≤ e then (num, den * Nat.pow 2 e.toNat) else (num * Nat.pow 2 (-e).toNat, den)

/-- The nearest whole number to `num / den`, the even one of two that are equally near. -/
def roundDiv (num den : Nat) : Nat :=
  let q := num / den
  let r := num % den
  if den < 2 * r then q + 1
  else if 2 * r = den then q + q % 2
  else q

/-- The exponent at which the fraction has 53 bits before the point, but at least the
smallest. -/
def exponentOf (num den : Nat) : Int :=
  let guess : Int := max minExponent ((num.log2 : Int) - (den.log2 : Int) - 53)
  let (n, d) := scaleBy num den guess
  if n / d < Nat.pow 2 53 then guess else guess + 1

/-- The magnitude nearest to `num / den`. -/
def nearest (num den : Nat) : Magnitude :=
  if num = 0 ∨ den = 0 then zero
  else
    let e := exponentOf num den
    let (n, d) := scaleBy num den e
    let m := roundDiv n d
    let (m, e) := if m = Nat.pow 2 53 then (Nat.pow 2 52, e + 1) else (m, e)
    if maxExponent < e then infinite else finite m e

/-- The value is zero. -/
def isZero : Magnitude → Bool
  | finite m _ => m == 0
  | infinite => false

/-- The value as a fraction. Infinity has none. -/
def toFraction : Magnitude → Option (Nat × Nat)
  | finite m e => some (if 0 ≤ e then (m * Nat.pow 2 e.toNat, 1) else (m, Nat.pow 2 (-e).toNat))
  | infinite => none

/-- The magnitude nearest to a product. -/
def mul (a b : Magnitude) : Magnitude :=
  match a.toFraction, b.toFraction with
  | some (n, d), some (n', d') => nearest (n * n') (d * d')
  | _, _ => infinite

end Magnitude

end ScriptSetup.Decimal
