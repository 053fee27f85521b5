import PhysicsPrefab.Files.Tree

/-!
# Disks

A disk is a file tree with a current directory and the places of the files that cannot be removed,
the effects that a program has had on it, and the notices that it has told. Programs that need
storage and a journal run on it as functions of its state.
-/

namespace PhysicsPrefab

/-- An operation on files that a program has attempted. -/
inductive FileEffect where
  /-- A file was read. -/
  | read (path : Path)
  /-- A directory was listed with all below it. -/
  | list (path : Path)
  /-- Directories were made. -/
  | makeDirectories (path : Path)
  /-- A file was written. -/
  | write (path : Path)
  /-- A file was removed. -/
  | remove (path : Path)
deriving DecidableEq, Repr

/-- A file tree and what has happened to it. -/
structure Disk where
  /-- The tree. -/
  tree : FileTree
  /-- Where relative paths start. -/
  current : Location
  /-- The places of the files that the system does not let the program remove, such as those of
  another user in a shared directory. -/
  locked : List Location
  /-- The effects so far, the last one first. -/
  effects : List FileEffect
  /-- The notices so far, the last one first. -/
  notices : List Notice

/-- A program that runs on a disk. -/
abbrev OnDisk := StateM Disk

namespace Disk

/-- A fresh disk with a tree, whose files can all be removed. -/
def ofTree (tree : FileTree) (current : Location) : Disk := ⟨tree, current, [], [], []⟩

/-- The disk after an attempted effect. -/
def note (disk : Disk) (effect : FileEffect) : Disk :=
  { disk with effects := effect :: disk.effects }

/-- The disk with another tree if there is one. -/
def update (disk : Disk) : Except StorageFault FileTree → Except StorageFault Unit × Disk
  | .ok tree => (.ok (), { disk with tree })
  | .error fault => (.error fault, disk)

/-- More directories than a path has parts are never made for it. -/
def stepsFor (path : Path) : Nat := path.text.length + 1

end Disk

instance : Storage OnDisk where
  isDirectory path := fun disk => (disk.tree.isDirectoryAt disk.current path, disk)
  isFile path := fun disk => (disk.tree.isFileAt disk.current path, disk)
  filesBelow path := fun disk =>
    (disk.tree.filesBelow disk.current path, disk.note (.list path))
  readText path := fun disk => (disk.tree.readText disk.current path, disk.note (.read path))
  makeDirectories path := fun disk =>
    let (tree, result) :=
      FileTree.makeDirectories disk.current (Disk.stepsFor path) disk.tree path
    (result, { disk with tree }.note (.makeDirectories path))
  writeText path text := fun disk =>
    (disk.note (.write path)).update (disk.tree.writeBytes disk.current path text.toUTF8)
  removeFile path := fun disk =>
    (disk.note (.remove path)).update (disk.tree.removeFile disk.locked disk.current path)
  canonical path := fun disk =>
    (match disk.tree.resolve disk.current path with
      | .ok location => some (FileTree.absolutePath location)
      | .error _ => none, disk)

instance : Journal OnDisk where
  tell notice := fun disk => ((), { disk with notices := notice :: disk.notices })

end PhysicsPrefab
