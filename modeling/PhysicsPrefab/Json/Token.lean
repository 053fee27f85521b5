import PhysicsPrefab.Json.Number
import PhysicsPrefab.Number.Numeral
import PhysicsPrefab.Text.Quoted

/-!
# Tokens of a data file

The characters of a data file are cut into tokens by a machine that takes one character at a
time. The first character that has no place in any token gives the token `malformed`, after
which nothing more is read; the tokens before it stand, because a reader may refuse the file for
what they say before it comes to the malformed place.
-/

namespace PhysicsPrefab.Json

/-- A token of a data file. -/
inductive Token where
  | openArray
  | closeArray
  | openObject
  | closeObject
  | comma
  | colon
  | null
  | boolean (value : Bool)
  | number (value : Number)
  | string (value : String)
  /-- The place where the text stops being a data file. -/
  | malformed
deriving DecidableEq

/-- Whether a character may stand between tokens without meaning. -/
def isBlank (character : Char) : Bool :=
  character = ' ' || character = '\n' || character = '\t' || character = '\r'

/-- The part of a number that is being read. -/
inductive NumberPart where
  /-- After a minus sign. -/
  | sign
  /-- After a leading zero, which no digit may follow. -/
  | zero
  /-- Digits before the point. -/
  | whole
  /-- After the point, before its first digit. -/
  | point
  /-- Digits after the point. -/
  | fraction
  /-- After the letter of the power of ten. -/
  | power
  /-- After the sign of the power of ten. -/
  | powerSign
  /-- Digits of the power of ten. -/
  | powerDigits
deriving DecidableEq, Repr

/-- The machine between two characters. -/
inductive Scan where
  /-- Between tokens. -/
  | between
  /-- Inside a word, with the characters that must follow. -/
  | word (rest : List Char) (token : Token)
  /-- Inside quotes, with the characters read in reverse. -/
  | quoted (phase : Quoted.Phase) (read : List Char)
  /-- Inside a number, with its parts read so far. -/
  | numeral (part : NumberPart) (read : NumberText)
  /-- After a malformed place. -/
  | stopped
deriving DecidableEq

namespace Scan

/-- Nothing more is read. -/
def stop : Scan × List Token := (stopped, [.malformed])

/-- One character between tokens. -/
def start (character : Char) : Scan × List Token :=
  if isBlank character then (between, [])
  else match character with
    | '[' => (between, [.openArray])
    | ']' => (between, [.closeArray])
    | '\x7b' => (between, [.openObject])
    | '\x7d' => (between, [.closeObject])
    | ',' => (between, [.comma])
    | ':' => (between, [.colon])
    | '"' => (quoted .plain [], [])
    | 'n' => (word ['u', 'l', 'l'] .null, [])
    | 't' => (word ['r', 'u', 'e'] (.boolean true), [])
    | 'f' => (word ['a', 'l', 's', 'e'] (.boolean false), [])
    | '-' => (numeral .sign ⟨true, [], none, none⟩, [])
    | '0' => (numeral .zero ⟨false, ['0'], none, none⟩, [])
    | _ =>
      if isDecimalDigit character then (numeral .whole ⟨false, [character], none, none⟩, [])
      else stop

/-- A number with one more digit before the point. -/
def addWhole (read : NumberText) (digit : Char) : NumberText :=
  { read with whole := read.whole ++ [digit] }

/-- A number with one more digit after the point. -/
def addFraction (read : NumberText) (digit : Char) : NumberText :=
  { read with fraction := some (read.fraction.getD [] ++ [digit]) }

/-- A number with one more digit of its power of ten. -/
def addPower (read : NumberText) (digit : Char) : NumberText :=
  { read with power := read.power.map fun (negative, digits) => (negative, digits ++ [digit]) }

/-- The number after one more of its characters, or nothing if the character does not go on
with it. -/
def extend (part : NumberPart) (read : NumberText) (character : Char) :
    Option (NumberPart × NumberText) :=
  let digit := isDecimalDigit character
  let powerLetter := character = 'e' || character = 'E'
  let openPower := { read with power := some (false, []) }
  match part with
  | .sign =>
    if character = '0' then some (.zero, addWhole read character)
    else if digit then some (.whole, addWhole read character)
    else none
  | .zero =>
    if character = '.' then some (.point, read)
    else if powerLetter then some (.power, openPower)
    else none
  | .whole =>
    if digit then some (.whole, addWhole read character)
    else if character = '.' then some (.point, read)
    else if powerLetter then some (.power, openPower)
    else none
  | .point => if digit then some (.fraction, addFraction read character) else none
  | .fraction =>
    if digit then some (.fraction, addFraction read character)
    else if powerLetter then some (.power, openPower)
    else none
  | .power =>
    if digit then some (.powerDigits, addPower read character)
    else if character = '+' then some (.powerSign, read)
    else if character = '-' then some (.powerSign, { read with power := some (true, []) })
    else none
  | .powerSign => if digit then some (.powerDigits, addPower read character) else none
  | .powerDigits => if digit then some (.powerDigits, addPower read character) else none

/-- Whether a number may end after a part. -/
def isComplete : NumberPart → Bool
  | .zero | .whole | .fraction | .powerDigits => true
  | .sign | .point | .power | .powerSign => false

/-- The token of a number that has ended; an incomplete or too large one is malformed. -/
def numberToken (part : NumberPart) (read : NumberText) : Token :=
  if isComplete part then
    match read.value? with
    | some value => .number value
    | none => .malformed
  else .malformed

/-- The machine after one character, and the tokens that it completes. -/
def step : Scan → Char → Scan × List Token
  | between, character => start character
  | word [] _, _ => stop
  | word (expected :: rest) token, character =>
    if character ≠ expected then stop
    else if rest.isEmpty then (between, [token])
    else (word rest token, [])
  | quoted phase read, character =>
    match Quoted.step phase character with
    | .more phase none => (quoted phase read, [])
    | .more phase (some added) => (quoted phase (added :: read), [])
    | .closed => (between, [.string (String.ofList read.reverse)])
    | .malformed => stop
  | numeral part read, character =>
    match extend part read character with
    | some (part, read) => (numeral part read, [])
    | none =>
      -- A digit after a leading zero, and a character in the middle of an incomplete number,
      -- leave no number behind.
      if part = .zero && isDecimalDigit character then stop
      else match numberToken part read with
        | .malformed => stop
        | token =>
          let (next, tokens) := start character
          (next, token :: tokens)
  | stopped, _ => (stopped, [])

/-- The tokens that the end of the text completes. -/
def finish : Scan → List Token
  | between | stopped => []
  | numeral part read => [numberToken part read]
  | word _ _ | quoted _ _ => [.malformed]

/-- The tokens of the rest of a text. -/
def run : Scan → List Char → List Token
  | scan, [] => scan.finish
  | scan, character :: rest =>
    let (next, tokens) := scan.step character
    tokens ++ run next rest

end Scan

/-- The tokens of a text. -/
def Token.ofText (text : String) : List Token := Scan.between.run text.toList

end PhysicsPrefab.Json
