import PhysicsPrefab.Number.Shortest

/-!
# Number text

A style settles every choice about the text of a double that its shortest digits leave open.
Two styles are used: `NumberStyle.plain` in scripts and messages, `NumberStyle.data` in data
files. Both write the fewest digits; they differ in notation, and in which of two equally near
decimals they choose.
-/

namespace PhysicsPrefab

/-- The choices about number text that are not settled by the digits. -/
structure NumberStyle where
  /-- What is written when two shortest decimals are equally near. -/
  tie : Tie
  /-- The exponents of the leading digit that are written without a power of ten. -/
  positional : Int → Bool
  /-- What follows a number without fraction digits. -/
  wholeMark : String
  /-- The text of positive infinity. -/
  infinity : String
  /-- The text of negative infinity. -/
  negativeInfinity : String
  /-- The text of a result that is not a number. -/
  notANumber : String

namespace NumberStyle

/-- Numbers in scripts and messages: never a power of ten, and whole numbers without a point. -/
def plain : NumberStyle where
  tie := .up
  positional _ := true
  wholeMark := ""
  infinity := "inf"
  negativeInfinity := "-inf"
  notANumber := "NaN"

/-- Numbers in data files: always with a point or a power of ten, positional between `10 ^ -5`
and `10 ^ 16`, and `null` for what is not finite. -/
def data : NumberStyle where
  tie := .even
  positional exponent := -5 ≤ exponent && exponent < 16
  wholeMark := ".0"
  infinity := "null"
  negativeInfinity := "null"
  notANumber := "null"

/-- Digits with the point after `whole` of them; zeros fill the places that are not given. -/
def placePoint (style : NumberStyle) (digits : List Char) (whole : Int) : List Char :=
  if whole ≤ 0 then
    '0' :: '.' :: (List.replicate (-whole).toNat '0' ++ digits)
  else
    let size := whole.toNat
    if digits.length ≤ size then
      digits ++ List.replicate (size - digits.length) '0' ++ style.wholeMark.toList
    else digits.take size ++ '.' :: digits.drop size

/-- Digits with one of them before the point, and the power of ten with its sign. -/
def scientific (digits : List Char) (exponent : Int) : List Char :=
  let sign := if exponent < 0 then '-' else '+'
  let mantissa := match digits with
    | first :: second :: rest => first :: '.' :: second :: rest
    | few => few
  mantissa ++ 'e' :: sign :: Nat.toDigits 10 exponent.natAbs

/-- The text of a decimal without sign. -/
def ofDecimal (style : NumberStyle) (decimal : Decimal) : List Char :=
  let digits := Nat.toDigits 10 decimal.coefficient
  let leading := decimal.exponent + digits.length - 1
  if style.positional leading then style.placePoint digits (leading + 1)
  else scientific digits leading

/-- The text of a double: its sign, and the shortest decimal that reads back as it. -/
def render (style : NumberStyle) (number : Float) : List Char :=
  if number.isNaN then style.notANumber.toList
  else
    let negative := 1 <<< 63 ≤ number.toBits.toNat
    if number.isInf then
      (if negative then style.negativeInfinity else style.infinity).toList
    else
      let magnitude := style.ofDecimal ((Magnitude.ofBits number.toBits).shortest style.tie)
      if negative then '-' :: magnitude else magnitude

/-- The text of a double as a string. -/
def text (style : NumberStyle) (number : Float) : String :=
  String.ofList (style.render number)

end NumberStyle

end PhysicsPrefab
