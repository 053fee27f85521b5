import PhysicsPrefab.Files.Storage

/-!
# Sources

The sources of a project are the files in its source directory, and in those below it, whose
names end in `.json` with something before it. They are taken in the order of the components of
their paths, not of the text of the paths.
-/

namespace PhysicsPrefab.Sources

/-- Whether a file is a source. -/
def isSource (path : Path) : Bool := path.extension? == some "json"

/-- The sources among some files, in order. -/
def ofFiles (files : List Path) : List Path :=
  (files.filter isSource).mergeSort fun left right => !right.before left

/-- The sources in a directory, or the directory that cannot be listed. -/
def discover {m : Type → Type} [Monad m] [Storage m] (directory : Path) :
    m (Except (Path × StorageFault) (List Path)) := do
  return (← Storage.filesBelow directory).map ofFiles

end PhysicsPrefab.Sources
