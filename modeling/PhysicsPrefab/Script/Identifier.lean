/-!
# Variable names

Names of bones become names of variables. Characters that cannot stand in a variable are
replaced, which may make different names equal, so a name that is taken gets a number. The
least number that is free is found among as many tries as there are taken names and one more.

The numbers have no bound here. A loop whose numbers have 32 bits tries the same names up to the
greatest number, so it finds the same ones among fewer than `2 ^ 31 - 2` taken names; beyond that it
is stopped or its numbers become negative.
-/

namespace PhysicsPrefab.Identifier

/-- Whether a character may stand in a variable. -/
def isAllowed (character : Char) : Bool :=
  character = '_' || character = '$' || character.isAlphanum

/-- A name with an underscore for every character that cannot stand in a variable, and one more
before a digit at the front. -/
def sanitizeCharacters (name : List Char) : List Char :=
  let replaced := name.map fun character => if isAllowed character then character else '_'
  match name with
  | first :: _ => if first.isDigit then '_' :: replaced else replaced
  | [] => []

/-- A name made fit for a variable. -/
def sanitize (name : String) : String := String.ofList (sanitizeCharacters name.toList)

/-- The names that are tried: the base itself, then the base with `_2`, `_3` and so on without end. -/
def candidate (base : String) : Nat → String
  | 0 => base
  | number + 1 => s!"{base}_{number + 2}"

/-- The first name tried that is not taken. -/
def fresh (taken : List String) (base : String) : String :=
  (((List.range (taken.length + 1)).map (candidate base)).find? fun name =>
    !taken.contains name).getD base

/-- Fresh names for a list of bases, each taken for those after it; also what is taken at the
end. -/
def freshAll (taken : List String) : List String → List String × List String
  | [] => ([], taken)
  | base :: rest =>
    let name := fresh taken base
    let (names, taken) := freshAll (name :: taken) rest
    (name :: names, taken)

end PhysicsPrefab.Identifier
