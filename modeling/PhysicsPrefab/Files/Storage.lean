import PhysicsPrefab.Files.Path
import PhysicsPrefab.Notice

/-!
# Storage

What the program needs of a file tree, for any monad that offers it: the real files, or a model
of them. Every operation answers; a failure is a value that says why.
-/

namespace PhysicsPrefab

/-- Why an operation on files failed. -/
inductive StorageFault where
  /-- There is nothing at the path. -/
  | missing
  /-- A part of the path that must be a directory is something else. -/
  | notADirectory
  /-- The path leads to a directory where a file is needed. -/
  | isADirectory
  /-- There is already something at the path. -/
  | occupied
  /-- The path holds a name that cannot be one. -/
  | badName
  /-- The file is not encoded text. -/
  | notText
  /-- The system does not let the program do it. -/
  | denied
  /-- Anything else, in the words of the system. -/
  | other (words : String)
deriving DecidableEq, Repr

/-- A fault in words. -/
def StorageFault.message : StorageFault → String
  | missing => "No such file or directory"
  | notADirectory => "Not a directory"
  | isADirectory => "Is a directory"
  | occupied => "File exists"
  | badName => "Invalid name"
  | notText => "stream did not contain valid UTF-8"
  | denied => "Permission denied"
  | other words => words

/-- The operations on files that the program needs. -/
class Storage (m : Type → Type) where
  /-- Whether there is a directory at a path. -/
  isDirectory : Path → m Bool
  /-- Whether there is a file at a path. -/
  isFile : Path → m Bool
  /-- All files in a directory and the directories below it, in any order; or the directory that
  cannot be listed. -/
  filesBelow : Path → m (Except (Path × StorageFault) (List Path))
  /-- The text of a file. -/
  readText : Path → m (Except StorageFault String)
  /-- Make a directory and those above it, unless they are there. -/
  makeDirectories : Path → m (Except StorageFault Unit)
  /-- Put a text into a file, new or not. -/
  writeText : Path → String → m (Except StorageFault Unit)
  /-- Remove a file. -/
  removeFile : Path → m (Except StorageFault Unit)
  /-- The place that a path leads to, if there is something. -/
  canonical : Path → m (Option Path)

/-- The telling of notices. -/
class Journal (m : Type → Type) where
  /-- Tell one notice. -/
  tell : Notice → m Unit

/-- Tell the notices of a result and go on with the result. -/
def Noted.publish {m : Type → Type} [Monad m] [Journal m] {α : Type} (noted : Noted α) : m α := do
  noted.notices.forM Journal.tell
  return noted.value

/-- Tell one notice. -/
def Journal.note {m : Type → Type} [Journal m] (level : Level) (text : String) : m Unit :=
  Journal.tell ⟨level, text⟩

end PhysicsPrefab
