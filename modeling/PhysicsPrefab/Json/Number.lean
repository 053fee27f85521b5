import PhysicsPrefab.Number.Style

/-!
# Numbers of a data file

A whole number that fits in 64 bits is kept as it is; every other number is a double. The
reading of a double is not always the nearest one: it takes as many leading digits as fit in an
unsigned 64-bit significand, rounds that to a double, and multiplies or divides it by one power
of ten.
-/

namespace PhysicsPrefab.Json

/-- A number of a data file. -/
inductive Number where
  /-- A whole number without sign. -/
  | natural (value : UInt64)
  /-- A whole number below zero. -/
  | negative (value : Int64)
  /-- Any other number. -/
  | double (value : Float)
deriving DecidableEq

namespace Number

/-- The number as a double. -/
def toFloat : Number → Float
  | natural value => value.toFloat
  | negative value => -value.toInt.natAbs.toUInt64.toFloat
  | double value => value

/-- The characters of a number: whole numbers as they are, doubles in the style of data. -/
def render : Number → List Char
  | natural value => Nat.toDigits 10 value.toNat
  | negative value => '-' :: Nat.toDigits 10 value.toInt.natAbs
  | double value => NumberStyle.data.render value

end Number

/-- The text of a number taken apart. -/
structure NumberText where
  /-- Whether a minus sign stands in front. -/
  negative : Bool
  /-- The digits before the point. -/
  whole : List Char
  /-- The digits after the point, if there is one. -/
  fraction : Option (List Char)
  /-- The sign and the digits of the power of ten, if there is one. -/
  power : Option (Bool × List Char)
deriving DecidableEq, Repr

namespace NumberText

/-- Append digits to a significand while it fits in 64 bits; the digits from the first that
does not fit are returned. -/
def takeDigits (significand : Nat) : List Char → Nat × List Char
  | [] => (significand, [])
  | digit :: rest =>
    let next := significand * 10 + (digit.toNat - '0'.toNat)
    if next < UInt64.size then takeDigits next rest else (significand, digit :: rest)

/-- A double times a power of ten. Powers beyond `10 ^ 308` are out of reach: far below, the
double is divided by `10 ^ 308` until the rest is in reach or nothing of it is left; far above,
only zero has a value. Nothing is returned when the result is not finite. -/
def scale (value : Float) (place : Int) : Option Float :=
  if place < -308 then
    if value == 0.0 then some value else scale (value / Float.ofScientific 1 false 308) (place + 308)
  else if 308 < place then
    if value == 0.0 then some value else none
  else if 0 ≤ place then
    let scaled := value * Float.ofScientific 1 false place.toNat
    if scaled.isInf then none else some scaled
  else some (value / Float.ofScientific 1 false (-place).toNat)
termination_by (-place).toNat

/-- The value of the power of ten. -/
def powerValue : Option (Bool × List Char) → Int
  | none => 0
  | some (negative, digits) =>
    let size : Int := Nat.ofDigitChars 10 digits 0
    if negative then -size else size

/-- A whole number; zero with a minus sign and what does not fit in 64 bits are doubles. -/
def wholeNumber (negative : Bool) (significand : Nat) : Number :=
  if !negative then .natural significand.toUInt64
  else if significand = 0 || Int64.minValue.toInt.natAbs < significand then .double (-significand.toUInt64.toFloat)
  else .negative (Int64.ofInt (-significand))

/-- The number that a text stands for, unless it is too large for a double. -/
def value? (text : NumberText) : Option Number :=
  let (significand, beyond) := takeDigits 0 text.whole
  if text.fraction.isNone && text.power.isNone && beyond.isEmpty then
    some (wholeNumber text.negative significand)
  else
    let fraction := text.fraction.getD []
    let (significand, unread) := takeDigits significand fraction
    let place : Int := beyond.length - (fraction.length - unread.length : Nat) + powerValue text.power
    (scale significand.toUInt64.toFloat place).map fun value =>
      .double (if text.negative then -value else value)

end NumberText

end PhysicsPrefab.Json
