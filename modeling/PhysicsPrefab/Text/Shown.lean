import PhysicsPrefab.Text.Visible

/-!
# Text in messages

Messages show file names and found texts between double quotes, with every character that cannot
be seen written by its number. Only the double quote and the backslash are escaped though they
can be seen; a single quote stands as it is.
-/

namespace PhysicsPrefab.Shown

/-- One character between quotes. -/
def escape (character : Char) : List Char :=
  match character with
  | '"' => ['\\', '"']
  | '\\' => ['\\', '\\']
  | '\n' => ['\\', 'n']
  | '\r' => ['\\', 'r']
  | '\t' => ['\\', 't']
  | '\x00' => ['\\', '0']
  | _ =>
    if Visible.isVisible character then [character]
    else ['\\', 'u', '\x7b'] ++ Nat.toDigits 16 character.toNat ++ ['\x7d']

/-- A text as a message shows it. -/
def text (value : String) : String :=
  String.ofList ('"' :: value.toList.flatMap escape ++ ['"'])

end PhysicsPrefab.Shown
