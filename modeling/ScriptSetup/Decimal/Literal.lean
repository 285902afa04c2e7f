import ScriptSetup.Decimal.Shortest
import ScriptSetup.Script.Token

/-!
# The value of a number literal

A decimal literal has the value nearest to the number it writes. A literal with a base letter
is read digit by digit, and each step gives the nearest value.
-/

set_option autoImplicit false

namespace ScriptSetup.Decimal

/-- The number that decimal digits write. -/
def digitsValue (ds : List Char) : Nat :=
  ds.foldl (fun v d => 10 * v + (d.toNat - '0'.toNat)) 0

/-- One more digit after the value of the digits before it. -/
def radixStep (radix : Nat) (m : Magnitude) (digit : Nat) : Magnitude :=
  match m.toFraction with
  | none => .infinite
  | some (num, den) => .nearest (num * radix + digit * den) den

/-- The value of digits in a radix. -/
def radixValue (radix : Nat) (ds : List Char) : Magnitude :=
  ds.foldl (fun m d => radixStep radix m ((Script.hexDigit? d).getD 0)) .zero

/-- The value of a decimal literal without separators. -/
def decimalValue (cs : List Char) : Magnitude :=
  let mantissa := cs.takeWhile fun c => c != 'e' && c != 'E'
  let exponent := cs.drop (mantissa.length + 1)
  let whole := mantissa.takeWhile (· != '.')
  let fraction := mantissa.drop (whole.length + 1)
  let power : Int :=
    match exponent with
    | '-' :: ds => -(digitsValue ds : Int)
    | '+' :: ds => digitsValue ds
    | ds => digitsValue ds
  let digits := digitsValue (whole ++ fraction)
  let power := power - fraction.length
  let size : Int := (toString digits).length
  if digits = 0 then .zero
  else if 400 < power + size then .infinite
  else if power + size < -400 then .zero
  else Scaled.toMagnitude ⟨digits, power⟩

/-- The value of a number literal. -/
def literalValue (raw : String) : Magnitude :=
  match Script.withoutSeparators raw.toList with
  | '0' :: b :: ds =>
    if b == 'x' || b == 'X' then radixValue 16 ds
    else if b == 'o' || b == 'O' then radixValue 8 ds
    else if b == 'b' || b == 'B' then radixValue 2 ds
    else decimalValue ('0' :: b :: ds)
  | cs => decimalValue cs

end ScriptSetup.Decimal
