import PhysicsPrefab.Number.Numeral
import PhysicsPrefab.Text.Quoted

/-!
# Statements of a settings file

A settings file is a list of statements, one to a line: the head of a section, or a key with its
value. This module reads the statements; what they mean together is for the settings to say.
Readers take the characters that are left and return what they read with the characters after
it. The readers that call each other carry a bound on the steps still to be made; the number of
characters left is always enough.
-/

namespace PhysicsPrefab.Toml

/-- A value in a settings file. -/
inductive Value where
  | string (value : String)
  | integer (value : Int)
  | float (value : Float)
  | boolean (value : Bool)
  /-- A date, a time, or both; no setting uses one. -/
  | dateTime
  | array (items : List Value)
  /-- Keys with their values, each key as the path of its parts. -/
  | table (entries : List (List String × Value))

/-- A statement of a settings file. -/
inductive Statement where
  /-- The head of a section. -/
  | section (path : List String)
  /-- The head of one of several sections of one name. -/
  | repeated (path : List String)
  /-- A key, as the path of its parts, with its value. -/
  | assign (path : List String) (value : Value)

/-- What is read from the front of some characters, and the characters after it. -/
abbrev Parse (α : Type) := List Char → Option (α × List Char)

/-- Whether a character separates within a line. -/
def isBlank (character : Char) : Bool := character = ' ' || character = '\t'

/-- Whether a character may stand in a comment. -/
def isCommentCharacter (character : Char) : Bool :=
  character = '\t' || (0x20 ≤ character.toNat && character.toNat ≠ 0x7F)

/-- Whether a character may stand in a key without quotes. -/
def isBareKeyCharacter (character : Char) : Bool :=
  character.isAlphanum || character = '_' || character = '-'

/-- The characters after the blanks at the front. -/
def skipBlanks (input : List Char) : List Char := input.dropWhile isBlank

/-- The characters after a line break at the front. -/
def lineBreak? : List Char → Option (List Char)
  | '\n' :: rest => some rest
  | '\r' :: '\n' :: rest => some rest
  | _ => none

/-- The characters after blanks and a comment. -/
def skipComment (input : List Char) : List Char :=
  match skipBlanks input with
  | '#' :: rest => rest.dropWhile isCommentCharacter
  | rest => rest

/-- The characters after the rest of a line that holds nothing more. -/
def lineEnd? (input : List Char) : Option (List Char) :=
  match skipComment input with
  | [] => some []
  | rest => lineBreak? rest

/-- The characters after blanks, comments and line breaks. -/
def skipLines : Nat → List Char → List Char
  | 0, input => input
  | steps + 1, input =>
    match lineBreak? (skipComment input) with
    | some rest => skipLines steps rest
    | none => skipComment input

/-- The character of a number written in hexadecimal digits. -/
def codePoint? (digits : List Char) : Option Char := do
  let values ← digits.mapM Quoted.hexValue?
  let point := values.foldl (fun value digit => value * 16 + digit) 0
  if h : point.isValidChar then some (Char.ofNatAux point h) else none

/-- The character after a backslash, and the characters after it. -/
def escape? : Parse Char
  | 'u' :: a :: b :: c :: d :: rest => (codePoint? [a, b, c, d]).map (·, rest)
  | 'U' :: a :: b :: c :: d :: e :: f :: g :: h :: rest =>
    (codePoint? [a, b, c, d, e, f, g, h]).map (·, rest)
  | 'b' :: rest => some ('\x08', rest)
  | 't' :: rest => some ('\t', rest)
  | 'n' :: rest => some ('\n', rest)
  | 'f' :: rest => some ('\x0c', rest)
  | 'r' :: rest => some ('\r', rest)
  | '"' :: rest => some ('"', rest)
  | '\\' :: rest => some ('\\', rest)
  | _ => none

/-- A text in double quotes, from after the first one. -/
def basicText : Nat → Parse (List Char)
  | 0, _ => none
  | _ + 1, [] => none
  | steps + 1, character :: rest =>
    if character = '"' then some ([], rest)
    else if character = '\\' then do
      let (meant, rest) ← escape? rest
      let (text, rest) ← basicText steps rest
      some (meant :: text, rest)
    else if isCommentCharacter character then do
      let (text, rest) ← basicText steps rest
      some (character :: text, rest)
    else none

/-- A text in single quotes, from after the first one. -/
def literalText (input : List Char) : Option (List Char × List Char) :=
  let text := input.takeWhile fun character => isCommentCharacter character && character ≠ '\''
  match input.drop text.length with
  | '\'' :: rest => some (text, rest)
  | _ => none

/-- The end of a text of several lines: up to two more quotes belong to the text. -/
def closingQuotes? (quote : Char) (input : List Char) : Option (List Char × List Char) :=
  let size := (input.takeWhile (· = quote)).length
  if size < 3 then none
  else
    let inside := min (size - 3) 2
    some (List.replicate inside quote, input.drop (inside + 3))

/-- The characters after the blanks and line breaks at the front. -/
def skipSpace : List Char → List Char
  | '\r' :: '\n' :: rest => skipSpace rest
  | character :: rest =>
    if isBlank character || character = '\n' then skipSpace rest else character :: rest
  | [] => []

/-- The characters after a backslash at the end of a line, which joins it to the next text. -/
def joinedLine? (input : List Char) : Option (List Char) :=
  (lineBreak? (skipBlanks input)).map skipSpace

/-- A text of several lines, from after the first quotes and line break. -/
def longText (quote : Char) (escapes : Bool) : Nat → Parse (List Char)
  | 0, _ => none
  | _ + 1, [] => none
  | steps + 1, character :: rest =>
    match closingQuotes? quote (character :: rest) with
    | some result => some result
    | none =>
      if escapes && character = '\\' then
        match joinedLine? rest with
        | some rest => longText quote escapes steps rest
        | none => do
          let (meant, rest) ← escape? rest
          let (text, rest) ← longText quote escapes steps rest
          some (meant :: text, rest)
      else match lineBreak? (character :: rest) with
        | some rest => do
          let (text, rest) ← longText quote escapes steps rest
          some ('\n' :: text, rest)
        | none =>
          if isCommentCharacter character then do
            let (text, rest) ← longText quote escapes steps rest
            some (character :: text, rest)
          else none

/-- The characters after a line break at the front, if there is one. -/
def dropLineBreak (input : List Char) : List Char := (lineBreak? input).getD input

/-- A text on one line, in quotes of either kind. -/
def shortText : Parse (List Char)
  | '"' :: rest => basicText (rest.length + 1) rest
  | '\'' :: rest => literalText rest
  | _ => none

/-- A text in quotes of any kind. -/
def text : Parse String
  | '"' :: '"' :: '"' :: rest =>
    (longText '"' true (rest.length + 1) (dropLineBreak rest)).map fun (text, rest) =>
      (String.ofList text, rest)
  | '\'' :: '\'' :: '\'' :: rest =>
    (longText '\'' false (rest.length + 1) (dropLineBreak rest)).map fun (text, rest) =>
      (String.ofList text, rest)
  | input => (shortText input).map fun (text, rest) => (String.ofList text, rest)

/-- Digits with single underscores between them, without the underscores. -/
def digits? (isDigit : Char → Bool) : List Char → Option (List Char)
  | [] => none
  | [digit] => if isDigit digit then some [digit] else none
  | first :: '_' :: rest =>
    if isDigit first then (digits? isDigit rest).map (first :: ·) else none
  | first :: rest => if isDigit first then (digits? isDigit rest).map (first :: ·) else none

/-- Decimal digits without a needless zero in front. -/
def plainDigits? (word : List Char) : Option (List Char) :=
  match digits? isDecimalDigit word with
  | some ('0' :: _ :: _) => none
  | result => result

/-- A sign at the front and what follows it. -/
def takeSign : List Char → Bool × List Char
  | '-' :: rest => (true, rest)
  | '+' :: rest => (false, rest)
  | rest => (false, rest)

/-- A whole number that fits in 64 bits. -/
def checkedInteger (value : Int) : Option Value :=
  if Int64.minValue.toInt ≤ value && value ≤ Int64.maxValue.toInt then some (.integer value)
  else none

/-- A whole number in another base than ten. -/
def basedInteger? (base : Nat) (word : List Char) : Option Value := do
  let isDigit (character : Char) : Bool :=
    match Quoted.hexValue? character with
    | some value => value < base
    | none => false
  let digits ← digits? isDigit word
  let values ← digits.mapM Quoted.hexValue?
  checkedInteger (values.foldl (fun value digit => value * base + digit) 0 : Nat)

/-- A whole number. -/
def integer? (word : List Char) : Option Value :=
  match word with
  | '0' :: 'x' :: rest => basedInteger? 16 rest
  | '0' :: 'o' :: rest => basedInteger? 8 rest
  | '0' :: 'b' :: rest => basedInteger? 2 rest
  | _ => do
    let (negative, unsigned) := takeSign word
    let size : Int := Nat.ofDigitChars 10 (← plainDigits? unsigned) 0
    checkedInteger (if negative then -size else size)

/-- Whether a character opens a power of ten. -/
def isPowerLetter (character : Char) : Bool := character = 'e' || character = 'E'

/-- The power of ten after the letter that opens it. -/
def power? : List Char → Option Int
  | [] => some 0
  | _ :: rest => do
    let (negative, unsigned) := takeSign rest
    let size : Int := Nat.ofDigitChars 10 (← digits? isDecimalDigit unsigned) 0
    some (if negative then -size else size)

/-- A number with a point or a power of ten. One above all doubles is refused. -/
def fraction? (word : List Char) : Option Value := do
  let (negative, unsigned) := takeSign word
  let mantissa := unsigned.takeWhile (!isPowerLetter ·)
  let powerPart := unsigned.dropWhile (!isPowerLetter ·)
  let whole ← plainDigits? (mantissa.takeWhile (· ≠ '.'))
  let fraction ← match mantissa.dropWhile (· ≠ '.') with
    | [] => if powerPart.isEmpty then none else some []
    | _ :: digits => digits? isDecimalDigit digits
  let value := Numeral.toFloat { negative, whole, fraction, exponent := ← power? powerPart }
  if value.isInf && !negative then none else some (.float value)

/-- The numbers that are written as words. -/
def namedNumber? (word : List Char) : Option Value :=
  let (negative, unsigned) := takeSign word
  let signed (value : Float) : Option Value := some (.float (if negative then -value else value))
  match String.ofList unsigned with
  | "inf" => signed (1.0 / 0.0)
  | "nan" => signed (0.0 / 0.0)
  | _ => none

/-- The value of exactly so many decimal digits. -/
def fixedDigits? (size : Nat) (word : List Char) : Option Nat :=
  if word.length = size && word.all isDecimalDigit then some (Nat.ofDigitChars 10 word 0) else none

/-- The number of days of a month. -/
def daysIn (year month : Nat) : Nat :=
  if month = 2 then
    if year % 4 = 0 && (year % 100 ≠ 0 || year % 400 = 0) then 29 else 28
  else if month = 4 || month = 6 || month = 9 || month = 11 then 30
  else 31

/-- Whether a word is a date. -/
def isDate (word : List Char) : Bool :=
  match fixedDigits? 4 (word.take 4), word.drop 4 with
  | some year, ['-', m, n, '-', d, e] =>
    match fixedDigits? 2 [m, n], fixedDigits? 2 [d, e] with
    | some month, some day => 1 ≤ month && month ≤ 12 && 1 ≤ day && day ≤ daysIn year month
    | _, _ => false
  | _, _ => false

/-- Whether a word is the hour and the minute of a time. -/
def isHourMinute (word : List Char) : Bool :=
  match word with
  | [h, i, ':', m, n] =>
    match fixedDigits? 2 [h, i], fixedDigits? 2 [m, n] with
    | some hour, some minute => hour ≤ 23 && minute ≤ 59
    | _, _ => false
  | _ => false

/-- Whether a word is a time. -/
def isTime (word : List Char) : Bool :=
  isHourMinute (word.take 5) &&
  match word.drop 5 with
  | ':' :: s :: t :: rest =>
    (match fixedDigits? 2 [s, t] with
      | some second => second ≤ 60
      | none => false) &&
    match rest with
    | [] => true
    | '.' :: part => !part.isEmpty && part.all isDecimalDigit
    | _ => false
  | _ => false

/-- Whether a word is a time with or without the offset of its zone. -/
def isZonedTime (word : List Char) : Bool :=
  let isMark (character : Char) : Bool := character = '+' || character = '-'
  match word.getLast? with
  | some 'Z' | some 'z' => isTime word.dropLast
  | _ =>
    let time := word.takeWhile (!isMark ·)
    match word.dropWhile (!isMark ·) with
    | [] => isTime time
    | _ :: zone => isTime time && isHourMinute zone

/-- Whether a word is a date, a time, or both with a mark between them. -/
def isDateTime (word : List Char) : Bool :=
  isDate word || isTime word ||
  (isDate (word.take 10) &&
    match word.drop 10 with
    | mark :: time => (mark = 'T' || mark = 't' || mark = ' ') && isZonedTime time
    | [] => false)

/-- Whether a character may stand in a word. -/
def isWordCharacter (character : Char) : Bool :=
  character.isAlphanum || character = '_' || character = '+' || character = '-' ||
    character = '.' || character = ':'

/-- The value of a word. -/
def wordValue? (word : List Char) : Option Value :=
  match String.ofList word with
  | "true" => some (.boolean true)
  | "false" => some (.boolean false)
  | _ =>
    (integer? word).orElse fun _ => (fraction? word).orElse fun _ => (namedNumber? word).orElse
      fun _ => if isDateTime word then some .dateTime else none

/-- A word; a blank may part a date from a time. -/
def wordValue (input : List Char) : Option (Value × List Char) :=
  let word := input.takeWhile isWordCharacter
  let rest := input.drop word.length
  let withTime := match rest with
    | ' ' :: digit :: _ =>
      if isDate word && isDecimalDigit digit then
        let time := rest.tail.takeWhile isWordCharacter
        some (word ++ ' ' :: time, rest.tail.drop time.length)
      else none
    | _ => none
  match withTime with
  | some (word, rest) => (wordValue? word).map (·, rest)
  | none => (wordValue? word).map (·, rest)

/-- One part of a key. -/
def keyPart (input : List Char) : Option (String × List Char) :=
  match input with
  | '"' :: _ | '\'' :: _ => (shortText input).map fun (text, rest) => (String.ofList text, rest)
  | _ =>
    let word := input.takeWhile isBareKeyCharacter
    if word.isEmpty then none else some (String.ofList word, input.drop word.length)

/-- How many levels of arrays and tables may lie in one another, and how many parts a key may
have. -/
def depthLimit : Nat := 79

/-- Parts of a key with dots between them, at most so many. -/
def keyParts : Nat → Parse (List String)
  | 0, _ => none
  | most + 1, input => do
    let (part, rest) ← keyPart input
    match skipBlanks rest with
    | '.' :: rest =>
      let (parts, rest) ← keyParts most (skipBlanks rest)
      some (part :: parts, rest)
    | _ => some ([part], rest)

/-- A key, as the path of its parts. -/
def keyPath : Parse (List String) := keyParts depthLimit

/-- No two keys lay claim to one place: neither leads to the place of the other or through it. -/
abbrev KeysApart (keys : List (List String)) : Prop :=
  keys.Pairwise fun first second => ¬ first <+: second ∧ ¬ second <+: first

mutual

/-- A value; `depth` more levels of arrays and tables may follow. The keys of a table lie
apart. -/
def value (depth : Nat) : Nat → Parse Value
  | 0, _ => none
  | steps + 1, input =>
    match input with
    | '"' :: _ | '\'' :: _ => (text input).map fun (text, rest) => (.string text, rest)
    | '[' :: rest =>
      if depth = 0 then none
      else (arrayItems (depth - 1) steps (skipLines rest.length rest)).map fun (items, rest) =>
        (.array items, rest)
    | '\x7b' :: rest =>
      if depth = 0 then none
      else match skipBlanks rest with
        | '\x7d' :: rest => some (.table [], rest)
        | rest => do
          let (entries, rest) ← tableEntries (depth - 1) steps rest
          if KeysApart (entries.map (·.1)) then some (.table entries, rest) else none
    | _ => wordValue input

/-- The items of an array and its end; a comma may follow the last item. -/
def arrayItems (depth : Nat) : Nat → Parse (List Value)
  | 0, _ => none
  | steps + 1, input =>
    match input with
    | ']' :: rest => some ([], rest)
    | _ => do
      let (first, rest) ← value depth steps input
      match skipLines rest.length rest with
      | ',' :: rest =>
        let (others, rest) ← arrayItems depth steps (skipLines rest.length rest)
        some (first :: others, rest)
      | ']' :: rest => some ([first], rest)
      | _ => none

/-- The entries of a table on one line and its end. -/
def tableEntries (depth : Nat) : Nat → Parse (List (List String × Value))
  | 0, _ => none
  | steps + 1, input => do
    let (path, rest) ← keyPath input
    match skipBlanks rest with
    | '=' :: rest =>
      let (first, rest) ← value depth steps (skipBlanks rest)
      match skipBlanks rest with
      | ',' :: rest =>
        let (others, rest) ← tableEntries depth steps (skipBlanks rest)
        some ((path, first) :: others, rest)
      | '\x7d' :: rest => some ([(path, first)], rest)
      | _ => none
    | _ => none

end

/-- A statement, without the end of its line. -/
def statement (input : List Char) : Option (Statement × List Char) :=
  match input with
  | '[' :: '[' :: rest => do
    let (path, rest) ← keyPath (skipBlanks rest)
    match skipBlanks rest with
    | ']' :: ']' :: rest => some (.repeated path, rest)
    | _ => none
  | '[' :: rest => do
    let (path, rest) ← keyPath (skipBlanks rest)
    match skipBlanks rest with
    | ']' :: rest => some (.section path, rest)
    | _ => none
  | _ => do
    let (path, rest) ← keyPath input
    match skipBlanks rest with
    | '=' :: rest =>
      let (value, rest) ← value depthLimit (2 * rest.length + 2) (skipBlanks rest)
      some (.assign path value, rest)
    | _ => none

/-- The statements of the lines that are left. -/
def statements : Nat → List Char → Option (List Statement)
  | 0, _ => none
  | steps + 1, input =>
    match skipLines input.length input with
    | [] => some []
    | rest => do
      let (first, rest) ← statement rest
      let rest ← lineEnd? rest
      let others ← statements steps rest
      some (first :: others)

/-- The statements of a settings file, if it is well formed; a byte order mark may stand at its
front. -/
def parse (text : String) : Option (List Statement) :=
  let characters := text.toList
  let body := if characters.head? = some '\ufeff' then characters.tail else characters
  statements (body.length + 1) body

end PhysicsPrefab.Toml
