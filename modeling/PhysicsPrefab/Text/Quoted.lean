/-!
# Quoted text

A text between double quotes, as data files and scripts hold it. The writer escapes the quote,
the backslash and the control characters below `U+0020`, and nothing else, so a written text
holds no bare quote and no line break. The reader is a machine that takes one character at a
time and also accepts the other spellings of the format: every escape, and characters beyond
`U+FFFF` as a pair of sixteen-bit units.
-/

namespace PhysicsPrefab.Quoted

/-- One character as it stands between quotes. -/
def escape (character : Char) : List Char :=
  if character = '"' then ['\\', '"']
  else if character = '\\' then ['\\', '\\']
  else if character = '\x08' then ['\\', 'b']
  else if character = '\t' then ['\\', 't']
  else if character = '\n' then ['\\', 'n']
  else if character = '\x0c' then ['\\', 'f']
  else if character = '\r' then ['\\', 'r']
  else if character.toNat < 0x20 then
    ['\\', 'u', '0', '0', Nat.digitChar (character.toNat / 16), Nat.digitChar (character.toNat % 16)]
  else [character]

/-- The characters of a text between its quotes. -/
def body (characters : List Char) : List Char := characters.flatMap escape

/-- A text with its quotes. -/
def render (text : String) : List Char := '"' :: body text.toList ++ ['"']

/-- A text with its quotes, as a string. -/
def encode (text : String) : String := String.ofList (render text)

/-- The value of a hexadecimal digit of either case. -/
def hexValue? (character : Char) : Option Nat :=
  if '0' ≤ character && character ≤ '9' then some (character.toNat - '0'.toNat)
  else if 'a' ≤ character && character ≤ 'f' then some (character.toNat - 'a'.toNat + 10)
  else if 'A' ≤ character && character ≤ 'F' then some (character.toNat - 'A'.toNat + 10)
  else none

/-- How far the reader has come since the opening quote. -/
inductive Phase where
  /-- Between two characters. -/
  | plain
  /-- After a backslash. -/
  | escaped
  /-- Inside a sixteen-bit unit: its value so far, the digits still missing, and the first unit
  of the pair if this is the second. -/
  | unit (first : Option Nat) (value : Nat) (missing : Nat)
  /-- After the first unit of a pair: a backslash must follow. -/
  | pairEscape (first : Nat)
  /-- After the backslash of the second unit of a pair: the letter `u` must follow. -/
  | pairLetter (first : Nat)
deriving DecidableEq, Repr

/-- What one character does to the reader. -/
inductive Step where
  /-- Reading goes on, and a character of the text may be complete. -/
  | more (phase : Phase) (added : Option Char)
  /-- The closing quote was read. -/
  | closed
  /-- The character has no place here. -/
  | malformed
deriving DecidableEq, Repr

/-- A sixteen-bit unit is complete: a character of its own, the first of a pair, or the second
that completes a character. -/
def completeUnit (first : Option Nat) (value : Nat) : Step :=
  let isFirst := 0xD800 ≤ value && value < 0xDC00
  let isSecond := 0xDC00 ≤ value && value < 0xE000
  match first with
  | none =>
    if isFirst then .more (.pairEscape value) none
    else if isSecond then .malformed
    else .more .plain (some (Char.ofNat value))
  | some high =>
    if isSecond then
      .more .plain (some (Char.ofNat (0x10000 + (high - 0xD800) * 0x400 + (value - 0xDC00))))
    else .malformed

/-- The character that a letter after a backslash stands for. -/
def simpleEscape? (character : Char) : Option Char :=
  match character with
  | '"' => some '"'
  | '\\' => some '\\'
  | '/' => some '/'
  | 'b' => some '\x08'
  | 'f' => some '\x0c'
  | 'n' => some '\n'
  | 'r' => some '\r'
  | 't' => some '\t'
  | _ => none

/-- One character read after the opening quote. -/
def step : Phase → Char → Step
  | .plain, character =>
    if character = '"' then .closed
    else if character = '\\' then .more .escaped none
    else if character.toNat < 0x20 then .malformed
    else .more .plain (some character)
  | .escaped, character =>
    if character = 'u' then .more (.unit none 0 4) none
    else match simpleEscape? character with
      | some meant => .more .plain (some meant)
      | none => .malformed
  | .unit first value missing, character =>
    match hexValue? character with
    | none => .malformed
    | some digit =>
      let value := value * 16 + digit
      if missing ≤ 1 then completeUnit first value
      else .more (.unit first value (missing - 1)) none
  | .pairEscape first, character =>
    if character = '\\' then .more (.pairLetter first) none else .malformed
  | .pairLetter first, character =>
    if character = 'u' then .more (.unit (some first) 0 4) none else .malformed

end PhysicsPrefab.Quoted
