/-!
# Decimal numerals

A numeral is the text of a decimal fraction taken apart: a sign, the digits before the point,
the digits after it and a power of ten. Its reading is the nearest double.
-/

namespace PhysicsPrefab

/-- Whether a character is one of the ten decimal digits. -/
def isDecimalDigit (character : Char) : Bool := '0' ≤ character && character ≤ '9'

/-- A decimal numeral taken apart. -/
structure Numeral where
  /-- Whether a minus sign stands in front. -/
  negative : Bool
  /-- The digits before the point. -/
  whole : List Char
  /-- The digits after the point. -/
  fraction : List Char
  /-- The power of ten that the numeral is multiplied by. -/
  exponent : Int := 0
deriving DecidableEq, Repr

namespace Numeral

/-- All digits as one natural number; the last stands for `10 ^ exponent` divided by ten once
for each fraction digit. -/
def coefficient (numeral : Numeral) : Nat :=
  Nat.ofDigitChars 10 (numeral.whole ++ numeral.fraction) 0

/-- The power of ten of the last digit. -/
def lastPlace (numeral : Numeral) : Int := numeral.exponent - numeral.fraction.length

/-- The double nearest to `coefficient · 10 ^ place`. A number above `10 ^ 400` is infinite and
one below `10 ^ -400` is zero, whatever its digits. -/
def nearest (coefficient : Nat) (place : Int) : Float :=
  if coefficient = 0 then 0.0
  else
    let leading := place + (Nat.toDigits 10 coefficient).length
    if 400 < leading then 1.0 / 0.0
    else if leading < -400 then 0.0
    else Float.ofScientific coefficient (place < 0) place.natAbs

/-- The double nearest to the numeral, which is infinite when the numeral is too large. -/
def toFloat (numeral : Numeral) : Float :=
  let magnitude := nearest numeral.coefficient numeral.lastPlace
  if numeral.negative then -magnitude else magnitude

end Numeral

end PhysicsPrefab
