import ScriptSetup.Decimal.Binary64

/-!
# The shortest decimal of a magnitude

Among the decimals that read back as a magnitude, the one with the fewest digits is written,
and of those the nearest. It is written out in full: there is no exponent, and a whole number
has no point.
-/

set_option autoImplicit false

namespace ScriptSetup.Decimal

/-- The decimal `digits * 10 ^ exponent`. -/
structure Scaled where
  digits : Nat
  exponent : Int
  deriving DecidableEq, Repr, Inhabited

namespace Scaled

/-- The decimal as a fraction. -/
def toFraction (s : Scaled) : Nat × Nat :=
  if 0 ≤ s.exponent then (s.digits * Nat.pow 10 s.exponent.toNat, 1)
  else (s.digits, Nat.pow 10 (-s.exponent).toNat)

/-- The magnitude that the decimal reads as. -/
def toMagnitude (s : Scaled) : Magnitude :=
  let (n, d) := s.toFraction
  Magnitude.nearest n d

/-- The same decimal without zeros at its end, at most `fuel` of them. -/
def dropZeros : (fuel : Nat) → Scaled → Scaled
  | 0, s => s
  | n + 1, s =>
    if s.digits ≠ 0 ∧ s.digits % 10 = 0 then dropZeros n ⟨s.digits / 10, s.exponent + 1⟩ else s

/-- The decimal written out in full. -/
def text (s : Scaled) : String :=
  let ds := (toString s.digits).toList
  if 0 ≤ s.exponent then
    if s.digits = 0 then "0" else String.ofList (ds ++ List.replicate s.exponent.toNat '0')
  else
    let places := (-s.exponent).toNat
    let padded := List.replicate (places + 1 - ds.length) '0' ++ ds
    let whole := padded.take (padded.length - places)
    String.ofList (whole ++ '.' :: padded.drop (padded.length - places))

end Scaled

/-- The number of times `num / den` can be multiplied by ten before it reaches one. -/
def leadingZeros (num den : Nat) : (fuel : Nat) → Nat
  | 0 => 0
  | n + 1 => if den ≤ num then 0 else leadingZeros (num * 10) den n + 1

/-- The exponent of the first digit of `num / den`. -/
def firstExponent (num den : Nat) : Int :=
  if den ≤ num then (toString (num / den)).length - 1 else -(leadingZeros num den 400 : Int)

/-- The distance between a decimal and a fraction, over the common denominator. -/
def distance (s : Scaled) (num den : Nat) : Nat :=
  let (n, d) := s.toFraction
  let a := n * den
  let b := num * d
  (a - b) + (b - a)

/-- The decimal with `count` digits that reads back as the magnitude, when there is one. The
only candidates are the two decimals on either side of the value. -/
def withDigits? (m : Magnitude) (num den count : Nat) : Option Scaled :=
  let e := firstExponent num den + 1 - count
  let below :=
    if 0 ≤ e then num / (den * Nat.pow 10 e.toNat)
    else num * Nat.pow 10 (-e).toNat / den
  let low : Scaled := ⟨below, e⟩
  let high : Scaled := ⟨below + 1, e⟩
  match low.toMagnitude == m, high.toMagnitude == m with
  | true, true =>
    if distance high num den < distance low num den then some high else some low
  | true, false => some low
  | false, true => some high
  | false, false => none

/-- The shortest decimal that reads back as the magnitude. Seventeen digits are always
enough. -/
def shortest (m : Magnitude) (num den : Nat) : Scaled :=
  match (List.range 17).findSome? fun i => withDigits? m num den (i + 1) with
  | some s => s.dropZeros 400
  | none => ⟨num / den, 0⟩

/-- The text of a magnitude. -/
def Magnitude.text (m : Magnitude) : String :=
  match m.toFraction with
  | none => "inf"
  | some (num, den) => if num = 0 then "0" else (shortest m num den).text

end ScriptSetup.Decimal
