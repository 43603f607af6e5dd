/-
# Floating-point numbers in texts

`str::parse::<f64>`: an optional sign, then `inf`, `infinity` or `nan` in any case, or decimal
digits with an optional point and an optional exponent.  The number is the nearest one to the
decimal fraction that is written, which is an exact rational here.

So there is no accumulation of errors to follow: digits are read into an integer, the point and
the exponent into a power of ten, and one rounding gives the number.  An exponent that is out of
reach gives zero or infinity by the same rounding.
-/
import Musubi.FloatArith

namespace Musubi

open Lib

/-! ## 1. Decimal fractions -/

/-- A sign, where there is one, and what follows it. -/
def splitSign : List Char → Bool × List Char
  | '-' :: cs => (true, cs)
  | '+' :: cs => (false, cs)
  | cs => (false, cs)

/-- The number that decimal digits write. -/
def decimalDigits (ds : List Char) : ℕ := ds.foldl (fun v c => 10 * v + (c.toNat - 48)) 0

/-- The exponent after the digits, `0` where there is nothing. -/
def decimalExponent : List Char → Option ℤ
  | [] => some 0
  | c :: cs =>
    let (negative, ds) := splitSign cs
    if c.toLower = 'e' ∧ ds ≠ [] ∧ ds.all Char.isDigit then
      some (if negative then -(decimalDigits ds : ℤ) else decimalDigits ds)
    else none

/-- `Digit+`, `Digit+ '.' Digit*` or `Digit* '.' Digit+`, and an exponent. -/
def decimalNumber (cs : List Char) : Option ℚ :=
  let whole := cs.takeWhile Char.isDigit
  let (fraction, rest) := match cs.dropWhile Char.isDigit with
    | '.' :: after => (after.takeWhile Char.isDigit, after.dropWhile Char.isDigit)
    | after => ([], after)
  if whole = [] ∧ fraction = [] then none
  else (decimalExponent rest).map fun exponent : ℤ =>
    let e := exponent - fraction.length
    (decimalDigits (whole ++ fraction) : ℚ) * 10 ^ e.toNat / 10 ^ (-e).toNat

/-! ## 2. `parse` -/

namespace F64

def parse (s : String) : Option F64 :=
  let (negative, body) := splitSign s.toList
  let word := String.ofList (body.map Char.toLower)
  if word = "inf" ∨ word = "infinity" then some (infinity negative)
  else if word = "nan" then some nan
  else (decimalNumber body).map fun q => nearest negative (if negative then -q else q)

/-- A sign alone is no number, and the zeros are two. -/
example : parse "35.5" = some (.ofRat (71 / 2)) ∧ parse "-1.5e-1" = some (.ofRat (-3 / 20)) ∧
    parse "-.0" = some (signed true 0) ∧ parse "+" = none ∧ parse "1e" = none := by
  decide +kernel

end F64

end Musubi
