import PhysicsPrefab.NameMap
import PhysicsPrefab.Notice
import PhysicsPrefab.Options.Grammar

/-!
# Looking up options

A locator named `key_value` sets the option `key` to `value`. Names are searched in order, so of
several locators for one option the one with the least name counts.
-/

namespace PhysicsPrefab.Options

/-- What follows the key and its separator in a name. -/
def valueAfter? (key name : String) : Option String :=
  ((key.toList ++ ['_']).isPrefixOf? name.toList).map String.ofList

/-- The values given for a key, in the order of the names. -/
def given (names : List String) (key : String) : List String :=
  names.filterMap (valueAfter? key)

/-- The value of an option: what the first name gives for it, trimmed, unless nothing is left.
A second name for it is told. -/
def lookup {β : Type} (locators : NameMap β) (key : String) : Noted (Option String) := do
  match given locators.names key with
  | [] => return none
  | first :: others =>
    if let some ignored := others.head? then
      Noted.note .warn
        s!"option `{key}` is declared more than once; using `{first}`, ignoring `{ignored}`"
    let value := trim first
    return if value.isEmpty then none else some value

end PhysicsPrefab.Options
