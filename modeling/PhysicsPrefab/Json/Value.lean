import PhysicsPrefab.Json.Number
import PhysicsPrefab.Text.Quoted

/-!
# Data values

The values of a data file and their two written forms: the compact one without any blanks, and
the laid out one with two blanks per level. Both write the members of an object in the order
they are held in, so a writer of typed data chooses that order.
-/

namespace PhysicsPrefab.Json

/-- A value of a data file. -/
inductive Value where
  | null
  | boolean (value : Bool)
  | number (value : Number)
  | string (value : String)
  | array (items : List Value)
  | object (members : List (String × Value))

namespace Value

instance : Inhabited Value := ⟨.null⟩

/-- The characters of a truth value. -/
def renderBool (value : Bool) : List Char := (if value then "true" else "false").toList

mutual

/-- The compact form. -/
def compact : Value → List Char
  | null => "null".toList
  | boolean value => renderBool value
  | number value => value.render
  | string value => Quoted.render value
  | array [] => "[]".toList
  | array (first :: rest) => '[' :: compact first ++ compactItems rest
  | object [] => ['\x7b', '\x7d']
  | object ((name, first) :: rest) =>
    '\x7b' :: Quoted.render name ++ ':' :: compact first ++ compactMembers rest

/-- The items of an array after the first, and its end. -/
def compactItems : List Value → List Char
  | [] => [']']
  | item :: rest => ',' :: compact item ++ compactItems rest

/-- The members of an object after the first, and its end. -/
def compactMembers : List (String × Value) → List Char
  | [] => ['\x7d']
  | (name, item) :: rest => ',' :: Quoted.render name ++ ':' :: compact item ++ compactMembers rest

end

/-- A line break and the blanks of a level. -/
def lineBreak (level : Nat) : List Char := '\n' :: List.replicate (2 * level) ' '

mutual

/-- The laid out form at a level. -/
def laidOut (level : Nat) : Value → List Char
  | null => "null".toList
  | boolean value => renderBool value
  | number value => value.render
  | string value => Quoted.render value
  | array [] => "[]".toList
  | array (first :: rest) =>
    '[' :: lineBreak (level + 1) ++ laidOut (level + 1) first ++ laidOutItems level rest
  | object [] => ['\x7b', '\x7d']
  | object ((name, first) :: rest) =>
    '\x7b' :: lineBreak (level + 1) ++ Quoted.render name ++ ':' :: ' ' ::
      laidOut (level + 1) first ++ laidOutMembers level rest

/-- The items of an array after the first, and its end. -/
def laidOutItems (level : Nat) : List Value → List Char
  | [] => lineBreak level ++ [']']
  | item :: rest =>
    ',' :: lineBreak (level + 1) ++ laidOut (level + 1) item ++ laidOutItems level rest

/-- The members of an object after the first, and its end. -/
def laidOutMembers (level : Nat) : List (String × Value) → List Char
  | [] => lineBreak level ++ ['\x7d']
  | (name, item) :: rest =>
    ',' :: lineBreak (level + 1) ++ Quoted.render name ++ ':' :: ' ' ::
      laidOut (level + 1) item ++ laidOutMembers level rest

end

/-- The compact form as a string. -/
def text (value : Value) : String := String.ofList value.compact

/-- The laid out form as a string. -/
def pretty (value : Value) : String := String.ofList (value.laidOut 0)

/-- A double as a value. -/
def ofFloat (value : Float) : Value := number (.double value)

end Value

end PhysicsPrefab.Json
