import PhysicsPrefab.Files.Storage

/-!
# File trees

A model of a file tree: directories with named entries in the order in which they are listed, and
files with bytes. A location is the list of names that leads to a place from the root of the tree.
The model is ideal in that there are no links, no pipes or other special files, and no rights of
users: what is there can be listed, read and written. The one refusal that is modelled is that of
removing a file, since it alone comes after everything has been written.
-/

namespace PhysicsPrefab

/-- A place in the file tree, by the names that lead to it from the root. -/
abbrev Location := List String

/-- A file or a directory with all it holds. -/
inductive FileTree where
  | file (contents : ByteArray)
  /-- A directory; no two entries share a name. -/
  | directory (entries : List (String × FileTree))

namespace FileTree

instance : Inhabited FileTree := ⟨directory []⟩

/-- Whether this is a directory. -/
def isDirectory : FileTree → Bool
  | directory _ => true
  | file _ => false

/-- The entry of a name in a list of entries. -/
def child? (entries : List (String × FileTree)) (name : String) : Option FileTree :=
  (entries.find? fun entry => entry.1 == name).map (·.2)

/-- What is at a location. -/
def get? : FileTree → Location → Option FileTree
  | tree, [] => some tree
  | file _, _ :: _ => none
  | directory entries, name :: rest =>
    match child? entries name with
    | some tree => tree.get? rest
    | none => none

/-- Put an entry in the place of the one of its name, or at the end. -/
def putEntry (name : String) (tree : FileTree) :
    List (String × FileTree) → List (String × FileTree)
  | [] => [(name, tree)]
  | (other, held) :: rest =>
    if other = name then (name, tree) :: rest else (other, held) :: putEntry name tree rest

/-- The entry that was put is found. -/
theorem child?_putEntry_self (name : String) (tree : FileTree)
    (entries : List (String × FileTree)) :
    child? (putEntry name tree entries) name = some tree := by
  induction entries with
  | nil => simp [putEntry, child?]
  | cons head rest ih =>
    simp only [putEntry]
    split
    · simp [child?]
    · rename_i different
      simpa [child?, different] using ih

/-- Putting an entry leaves those of other names as they were. -/
theorem child?_putEntry_of_ne {name other : String} (different : other ≠ name) (tree : FileTree)
    (entries : List (String × FileTree)) :
    child? (putEntry name tree entries) other = child? entries other := by
  have apart : (name == other) = false := by simpa using Ne.symm different
  induction entries with
  | nil => simp [putEntry, child?, apart]
  | cons head rest ih =>
    simp only [putEntry]
    split
    · rename_i same
      simp [child?, same, apart]
    · cases found : head.1 == other with
      | true => simp [child?, found]
      | false => simpa [child?, found] using ih

/-- The tree with something put at a location; nothing changes if the location does not lie in
a directory of the tree. -/
def put : FileTree → Location → FileTree → FileTree
  | _, [], new => new
  | file contents, _ :: _, _ => file contents
  | directory entries, [name], new => directory (putEntry name new entries)
  | directory entries, name :: next :: rest, new =>
    match child? entries name with
    | some tree => directory (putEntry name (tree.put (next :: rest) new) entries)
    | none => directory entries

/-- The tree without what is at a location. -/
def erase : FileTree → Location → FileTree
  | tree, [] => tree
  | file contents, _ :: _ => file contents
  | directory entries, [name] => directory (entries.filter fun entry => entry.1 != name)
  | directory entries, name :: next :: rest =>
    match child? entries name with
    | some tree => directory (putEntry name (tree.erase (next :: rest)) entries)
    | none => directory entries

mutual

/-- The locations of all files, seen from the directory that holds them. -/
def files : FileTree → List Location
  | file _ => [[]]
  | directory entries => filesOf entries

/-- The locations of all files of some entries. -/
def filesOf : List (String × FileTree) → List Location
  | [] => []
  | (name, tree) :: rest => (files tree).map (name :: ·) ++ filesOf rest

end

end FileTree

namespace FileTree

/-- Whether a text can be the name of a file: it has at most 255 bytes. -/
def isName (name : List Char) : Bool := (String.ofList name).utf8ByteSize ≤ 255

/-- Refuse a path that leads nowhere whatever the tree holds: an empty one, one with a zero
character, or one of 4096 bytes or more. -/
def checkPath (path : Path) : Except StorageFault Unit :=
  if path.text.isEmpty then .error .missing
  else if path.text.toList.contains '\x00' || 4096 ≤ path.text.utf8ByteSize then .error .badName
  else .ok ()

/-- Follow the parts of a path from a location where there is a directory. An empty part stays,
a dot stays and two dots go up, but all of them only at a directory. -/
def follow (tree : FileTree) : Location → List (List Char) → Except StorageFault Location
  | location, [] => .ok location
  | location, piece :: rest =>
    match tree.get? location with
    | none => .error .missing
    | some (file _) => .error .notADirectory
    | some (directory entries) =>
      match piece with
      | [] | ['.'] => follow tree location rest
      | ['.', '.'] => follow tree location.dropLast rest
      | _ =>
        if !isName piece then .error .badName
        else
          let name := String.ofList piece
          match child? entries name with
          | none => .error .missing
          | some _ => follow tree (location ++ [name]) rest

/-- The location from which a path is followed, and its parts. -/
def startOf (current : Location) (path : Path) : Location × List (List Char) :=
  let pieces := Path.pieces path.text.toList
  if path.isAbsolute then ([], pieces.tail) else (current, pieces)

/-- The location that a path leads to, if there is something. -/
def resolve (tree : FileTree) (current : Location) (path : Path) :
    Except StorageFault Location := do
  checkPath path
  let (start, pieces) := startOf current path
  tree.follow start pieces

/-- The location of a path and what is there. -/
def lookup (tree : FileTree) (current : Location) (path : Path) :
    Except StorageFault (Location × FileTree) := do
  let location ← tree.resolve current path
  match tree.get? location with
  | some found => return (location, found)
  | none => throw .missing

/-- Where something new of a path goes: the location of its last name, whose directory is there.
`slash` says whether slashes may follow the name. -/
def newPlace (tree : FileTree) (current : Location) (path : Path) (slash : Bool) :
    Except StorageFault Location := do
  checkPath path
  let (start, pieces) := startOf current path
  match pieces.reverse.dropWhile List.isEmpty with
  | [] => throw .occupied
  | last :: outer =>
    let directory ← tree.follow start outer.reverse
    match tree.get? directory with
    | none => throw .missing
    | some (file _) => throw .notADirectory
    | some (.directory _) =>
      if last = ['.'] || last = ['.', '.'] then throw .occupied
      else if !isName last then throw .badName
      else if !slash && pieces.getLast? = some [] then throw .isADirectory
      else return directory ++ [String.ofList last]

/-- The tree with a new empty directory. -/
def makeDirectory (tree : FileTree) (current : Location) (path : Path) :
    Except StorageFault FileTree := do
  let location ← tree.newPlace current path true
  match tree.get? location with
  | some _ => throw .occupied
  | none => return tree.put location (directory [])

/-- Whether a path leads to a directory. -/
def isDirectoryAt (tree : FileTree) (current : Location) (path : Path) : Bool :=
  match tree.lookup current path with
  | .ok (_, found) => found.isDirectory
  | .error _ => false

/-- Whether a path leads to a file. -/
def isFileAt (tree : FileTree) (current : Location) (path : Path) : Bool :=
  match tree.lookup current path with
  | .ok (_, found) => !found.isDirectory
  | .error _ => false

/-- Make a directory and those above it, from the outermost that is missing. What has been made
stays when a further one cannot be made; `steps` bounds the number of directories. -/
def makeDirectories (current : Location) : Nat → FileTree → Path → FileTree × Except StorageFault Unit
  | 0, tree, _ => (tree, .error .badName)
  | steps + 1, tree, path =>
    if path.components.isEmpty then (tree, .ok ())
    else match tree.makeDirectory current path with
      | .ok made => (made, .ok ())
      | .error .missing =>
        match path.parent? with
        | none => (tree, .error .missing)
        | some outer =>
          let (tree, result) := makeDirectories current steps tree outer
          match result with
          | .error fault => (tree, .error fault)
          | .ok () =>
            match tree.makeDirectory current path with
            | .ok made => (made, .ok ())
            | .error fault =>
              if tree.isDirectoryAt current path then (tree, .ok ()) else (tree, .error fault)
      | .error fault =>
        if tree.isDirectoryAt current path then (tree, .ok ()) else (tree, .error fault)

/-- The text of a file. -/
def readText (tree : FileTree) (current : Location) (path : Path) : Except StorageFault String := do
  let (_, found) ← tree.lookup current path
  match found with
  | directory _ => throw .isADirectory
  | file contents =>
    match String.fromUTF8? contents with
    | some text => return text
    | none => throw .notText

/-- The tree with bytes put into a file, new or not. -/
def writeBytes (tree : FileTree) (current : Location) (path : Path) (contents : ByteArray) :
    Except StorageFault FileTree := do
  let location ← tree.newPlace current path false
  match tree.get? location with
  | some (directory _) => throw .isADirectory
  | _ => return tree.put location (file contents)

/-- The tree without a file, unless the file is in one of the places from which nothing can be
removed. -/
def removeFile (tree : FileTree) (locked : List Location) (current : Location) (path : Path) :
    Except StorageFault FileTree := do
  let (location, found) ← tree.lookup current path
  match found with
  | directory _ => throw .isADirectory
  | file _ => if location ∈ locked then throw .denied else return tree.erase location

/-- The path of a location seen from a directory: its names are joined to it one by one. -/
def pathBelow (directory : Path) (location : Location) : Path :=
  location.foldl (fun path name => path.join ⟨name⟩) directory

/-- All files in a directory and below it. Only the path of the directory itself is checked: it is
idealised that those below it can all be opened, even where their paths grow to 4096 bytes or more,
and that nothing but files and directories is in them. -/
def filesBelow (tree : FileTree) (current : Location) (path : Path) :
    Except (Path × StorageFault) (List Path) :=
  match tree.lookup current path with
  | .error fault => .error (path, fault)
  | .ok (_, file _) => .error (path, .notADirectory)
  | .ok (_, found) => .ok (found.files.map (pathBelow path))

/-- The path from the root to a location. -/
def absolutePath (location : Location) : Path := ⟨"/" ++ String.intercalate "/" location⟩

end FileTree

end PhysicsPrefab
