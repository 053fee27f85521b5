import PhysicsPrefab.Vec3

/-!
# The grammar of option values

Options are written into names, where only letters, digits and the underscore are at hand. So
the underscore does everything: in front it is the minus sign, the next one is the decimal
point, what follows a further one is ignored, two of them separate the numbers of a vector, and
at the end they only keep equal names apart.

    number := "_"? digits? ("_" digits?)? ("_" anything)?
    vector := number "__" number "__" number
-/

namespace PhysicsPrefab.Options

/-- Whether a character separates. -/
def isSeparator (character : Char) : Bool := character = '_'

/-- A name without the separators at its end; of a name of separators only, one is kept. -/
def trimCharacters (name : List Char) : List Char :=
  let kept := (name.reverse.dropWhile isSeparator).reverse
  if kept.isEmpty then name.take 1 else kept

/-- A name without the separators at its end. -/
def trim (name : String) : String := String.ofList (trimCharacters name.toList)

/-- The characters before the first separator. -/
def beforeSeparator (characters : List Char) : List Char :=
  characters.takeWhile fun character => !isSeparator character

/-- The characters after the first separator, none if there is no separator. -/
def afterSeparator (characters : List Char) : List Char :=
  (characters.dropWhile fun character => !isSeparator character).tail

/-- The numeral in an option value: a sign, digits, a separator and digits; one of the two runs
of digits may be empty. -/
def readNumeral (raw : List Char) : Option Numeral :=
  let (negative, unsigned) := match raw with
    | '_' :: rest => (true, rest)
    | _ => (false, raw)
  let whole := beforeSeparator unsigned
  let fraction := beforeSeparator (afterSeparator unsigned)
  if whole.isEmpty && fraction.isEmpty then none
  else if whole.all isDecimalDigit && fraction.all isDecimalDigit then
    some { negative, whole, fraction }
  else none

/-- The parts of a text between double separators, which are found from the left. -/
def splitDouble : List Char → List (List Char)
  | [] => [[]]
  | '_' :: '_' :: rest => [] :: splitDouble rest
  | character :: rest =>
    match splitDouble rest with
    | [] => [[character]]
    | part :: parts => (character :: part) :: parts

variable {α : Type} [Scalar α]

/-- The number in an option value, if it is one and in range. -/
def decodeCharacters (raw : List Char) : Option α := (readNumeral raw).bind Scalar.ofNumeral

/-- The number in an option value. -/
def decodeNumber (raw : String) : Option α := decodeCharacters raw.toList

/-- The vector in an option value: exactly three numbers. -/
def decodeVec3 (raw : String) : Option (Vec3 α) :=
  match splitDouble raw.toList with
  | [x, y, z] => do
    return ⟨← decodeCharacters x, ← decodeCharacters y, ← decodeCharacters z⟩
  | _ => none

/-- The truth value of an option: set to a number other than zero. -/
def decodeFlag (raw : Option String) : Bool :=
  match raw.bind (decodeNumber (α := Float)) with
  | some value => !Scalar.isZero value
  | none => false

end PhysicsPrefab.Options
