import PhysicsPrefab.Text.Shown

/-!
# Paths

A path is a text whose parts are separated by slashes. It is kept as it is written, so that
messages show what the user gave; its components are what it means. Empty parts and single dots
mean nothing, except for a dot at the front of a relative path.
-/

namespace PhysicsPrefab

/-- A path as it is written. -/
structure Path where
  /-- The text of the path. -/
  text : String
deriving DecidableEq, Repr

/-- A meaningful part of a path. -/
inductive PathComponent where
  /-- The root of the file tree. -/
  | root
  /-- The dot at the front of a relative path. -/
  | current
  /-- The step to the directory above. -/
  | parent
  /-- A name. -/
  | name (text : String)
deriving DecidableEq, Repr

namespace PathComponent

/-- The order of components: the root, the dot, the step up, then names by their characters. -/
def before : PathComponent → PathComponent → Bool
  | root, root => false
  | root, _ => true
  | current, root | current, current => false
  | current, _ => true
  | parent, name _ => true
  | parent, _ => false
  | name left, name right => left < right
  | name _, _ => false

end PathComponent

namespace Path

/-- The parts of a text between slashes. -/
def pieces : List Char → List (List Char)
  | [] => [[]]
  | character :: rest =>
    if character = '/' then [] :: pieces rest
    else match pieces rest with
      | [] => [[character]]
      | first :: others => (character :: first) :: others

/-- A text has at least one part. -/
theorem pieces_ne_nil (text : List Char) : pieces text ≠ [] := by
  cases text with
  | nil => simp [pieces]
  | cons character rest =>
    simp only [pieces]
    split
    · simp
    · split <;> simp

/-- No part holds a slash. -/
theorem slash_not_mem_of_mem_pieces {text piece : List Char} (member : piece ∈ pieces text) :
    '/' ∉ piece := by
  induction text generalizing piece with
  | nil => simp_all [pieces]
  | cons character rest ih =>
    simp only [pieces] at member
    split at member
    · rcases List.mem_cons.1 member with rfl | later
      · simp
      · exact ih later
    · rename_i plain
      split at member
      · simpa [List.mem_singleton.1 member] using Ne.symm plain
      · rename_i first others same
        rw [same] at ih
        rcases List.mem_cons.1 member with rfl | later
        · simpa [Ne.symm plain] using ih List.mem_cons_self
        · exact ih (List.mem_cons_of_mem _ later)

/-- A text without slashes is one part. -/
theorem pieces_of_not_mem {text : List Char} (plain : '/' ∉ text) : pieces text = [text] := by
  induction text with
  | nil => rfl
  | cons character rest ih =>
    simp only [List.mem_cons, not_or] at plain
    simp [pieces, Ne.symm plain.1, ih plain.2]

/-- What stands before the first slash is the first part. -/
theorem pieces_append_slash {piece : List Char} (plain : '/' ∉ piece) (rest : List Char) :
    pieces (piece ++ '/' :: rest) = piece :: pieces rest := by
  induction piece with
  | nil => simp [pieces]
  | cons character others ih =>
    simp only [List.mem_cons, not_or] at plain
    simp [pieces, Ne.symm plain.1, ih plain.2]

/-- Whether the path starts at the root of the file tree. -/
def isAbsolute (path : Path) : Bool := path.text.toList.head? = some '/'

/-- The component of a part that is not at the front of a relative path. -/
def innerComponent? (piece : List Char) : Option PathComponent :=
  match piece with
  | [] | ['.'] => none
  | ['.', '.'] => some .parent
  | _ => some (.name (String.ofList piece))

/-- The components of a path. -/
def components (path : Path) : List PathComponent :=
  match pieces path.text.toList with
  | [] => []
  | first :: others =>
    let rest := others.filterMap innerComponent?
    if path.isAbsolute then .root :: rest
    else if first = ['.'] then .current :: rest
    else (innerComponent? first).toList ++ rest

/-- A path seen from a directory: an absolute path stays, another one follows the directory
after a slash. -/
def join (directory path : Path) : Path :=
  if path.isAbsolute then path
  else match directory.text.toList.getLast? with
    | none => path
    | some '/' => ⟨directory.text ++ path.text⟩
    | some _ => ⟨directory.text ++ "/" ++ path.text⟩

/-- Parts put together again. -/
def joinPieces : List (List Char) → List Char
  | [] => []
  | [piece] => piece
  | piece :: rest => piece ++ '/' :: joinPieces rest

/-- The parts of a text put together again are the text. -/
theorem joinPieces_pieces (text : List Char) : joinPieces (pieces text) = text := by
  induction text with
  | nil => rfl
  | cons character rest ih =>
    cases parts : pieces rest with
    | nil => exact absurd parts (pieces_ne_nil rest)
    | cons first others =>
      rw [parts] at ih
      by_cases slash : character = '/'
      · simp [pieces, slash, parts, joinPieces, ih]
      · cases others with
        | nil => simpa [pieces, slash, parts, joinPieces] using ih
        | cons second more => simpa [pieces, slash, parts, joinPieces] using ih

/-- Parts without slashes, put together, are the parts of the text that comes of it. -/
theorem pieces_joinPieces {parts : List (List Char)} (nonempty : parts ≠ [])
    (plain : ∀ piece ∈ parts, '/' ∉ piece) : pieces (joinPieces parts) = parts := by
  induction parts with
  | nil => contradiction
  | cons first others ih =>
    cases others with
    | nil => exact pieces_of_not_mem (plain first List.mem_cons_self)
    | cons second more =>
      simp only [joinPieces]
      rw [pieces_append_slash (plain first List.mem_cons_self),
        ih (by simp) fun piece member => plain piece (List.mem_cons_of_mem _ member)]

/-- Whether a part means nothing behind other parts. -/
def isFiller (piece : List Char) : Bool := piece.isEmpty || piece = ['.']

/-- Reversed parts of a relative path without the meaningless ones at the end. -/
def dropFillers : List (List Char) → List (List Char)
  | [] => []
  | [piece] => if piece.isEmpty then [] else [piece]
  | piece :: rest => if isFiller piece then dropFillers rest else piece :: rest

/-- The path without its last component and what means nothing before it; the root and the
empty path have none. -/
def parent? (path : Path) : Option Path :=
  if path.isAbsolute then
    match (pieces path.text.toList).tail.reverse.dropWhile isFiller with
    | [] => none
    | _ :: outer =>
      some ⟨String.ofList ('/' :: joinPieces (outer.dropWhile isFiller).reverse)⟩
  else
    match dropFillers (pieces path.text.toList).reverse with
    | [] => none
    | _ :: outer => some ⟨String.ofList (joinPieces (dropFillers outer).reverse)⟩

/-- The name at the end of a path. -/
def fileName? (path : Path) : Option String :=
  match path.components.getLast? with
  | some (.name text) => some text
  | _ => none

/-- What follows the last dot of a file name; a dot at the front does not count. -/
def extension? (path : Path) : Option String := do
  let reversed := (← path.fileName?).toList.reverse
  let ending := reversed.takeWhile (· ≠ '.')
  match reversed.dropWhile (· ≠ '.') with
  | '.' :: _ :: _ => some (String.ofList ending.reverse)
  | _ => none

/-- The order of component lists, the first difference deciding. -/
def componentsBefore : List PathComponent → List PathComponent → Bool
  | [], [] => false
  | [], _ :: _ => true
  | _ :: _, [] => false
  | left :: lefts, right :: rights =>
    if left = right then componentsBefore lefts rights else left.before right

/-- The order of paths by their components. -/
def before (left right : Path) : Bool := componentsBefore left.components right.components

/-- The path as a message shows it. -/
def shown (path : Path) : String := Shown.text path.text

end Path

end PhysicsPrefab
