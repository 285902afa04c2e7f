import ScriptSetup.Decimal.Binary64

/-!
# Numbers in JSON

`Number.check` reads a number and tells whether it is one that a 64-bit binary floating point
number can hold. Nothing else about the number matters here.

The digits are gathered in a significand of 64 bits; those that do not fit any more only count
for the exponent.
-/

set_option autoImplicit false

namespace ScriptSetup.Json

/-- Why a text is refused. -/
inductive Fault where
  /-- it is not JSON -/
  | malformed
  /-- it ends too early -/
  | truncated
  /-- it is JSON, but this value, key or number of values may not stand here -/
  | unfit
  deriving DecidableEq, Repr, Inhabited

namespace Number

open Decimal (Magnitude)

/-- A decimal digit. -/
def isDigit (c : Char) : Bool :=
  '0' ≤ c && c ≤ '9'

/-- The value of a digit. -/
def digitValue (c : Char) : Nat :=
  c.toNat - '0'.toNat

/-- Significands are smaller than this. -/
def significandLimit : Nat := Nat.pow 2 64

/-- The largest power of ten that is finite. -/
def maxPower : Nat := 308

/-- Adds digits to a significand as long as it stays below the limit. Gives the significand, how
many digits were added, and what follows. -/
def gather (significand : Nat) : List Char → Nat × Nat × List Char
  | [] => (significand, 0, [])
  | c :: cs =>
    let next := significand * 10 + digitValue c
    if isDigit c && next < significandLimit then
      let r := gather next cs
      (r.1, r.2.1 + 1, r.2.2)
    else (significand, 0, c :: cs)

/-- `significand * 10 ^ exponent` can be held. Both factors are rounded before they are
multiplied. -/
def inRange (significand : Nat) (exponent : Int) : Bool :=
  significand == 0 || exponent < 0 ||
    (exponent ≤ maxPower &&
      (Magnitude.nearest significand 1).mul
        (Magnitude.nearest (Nat.pow 10 exponent.toNat) 1) != .infinite)

/-- The number ends here. -/
def finish (significand : Nat) (exponent : Int) : Except Fault Unit :=
  if inRange significand exponent then .ok () else .error .malformed

/-- A number from its exponent on, after the `e`. -/
def checkExponent (significand : Nat) (exponent : Int) (cs : List Char) : Except Fault Unit :=
  let (negative, digits) := match cs with
    | '+' :: rest => (false, rest)
    | '-' :: rest => (true, rest)
    | rest => (false, rest)
  match digits with
  | [] => .error .truncated
  | c :: _ =>
    if isDigit c then
      let value : Int := (digits.takeWhile isDigit).foldl (fun n d => n * 10 + digitValue d) 0
      finish significand (if negative then exponent - value else exponent + value)
    else .error .malformed

/-- A number from its exponent on, if it has one. -/
def checkTail (significand : Nat) (exponent : Int) : List Char → Except Fault Unit
  | 'e' :: rest | 'E' :: rest => checkExponent significand exponent rest
  | _ => finish significand exponent

/-- A number from its fraction on, after the point. -/
def checkFraction (significand : Nat) (exponent : Int) (cs : List Char) : Except Fault Unit :=
  match cs with
  | [] => .error .truncated
  | c :: _ =>
    if isDigit c then
      let r := gather significand cs
      checkTail r.1 (exponent - r.2.1) (r.2.2.dropWhile isDigit)
    else .error .malformed

/-- A number after its whole part. -/
def checkRest (significand : Nat) (exponent : Int) : List Char → Except Fault Unit
  | '.' :: rest => checkFraction significand exponent rest
  | rest => checkTail significand exponent rest

/-- A number without its sign: digits, of which the first is zero only when it stands alone, a
fraction and an exponent. -/
def check : List Char → Except Fault Unit
  | [] => .error .truncated
  | c :: cs =>
    if c = '0' then
      if cs.head?.any isDigit then .error .malformed else checkRest 0 0 cs
    else if isDigit c then
      let r := gather (digitValue c) cs
      checkRest r.1 (r.2.2.takeWhile isDigit).length (r.2.2.dropWhile isDigit)
    else .error .malformed

end Number

end ScriptSetup.Json
