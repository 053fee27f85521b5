import PhysicsPrefab.Files.Disk
import PhysicsPrefab.Proofs.Files.Growth
import PhysicsPrefab.Proofs.Project.Programs

/-!
# What programs do to a disk

Three relations between a disk before and after a program: nothing but reading, nothing but
writing, nothing but removing. Each operation on files keeps one of them, and all are preorders,
so a program keeps what its operations keep.
-/

namespace PhysicsPrefab

namespace FileEffect

/-- A file was read or a directory listed. -/
def isReading : FileEffect → Bool
  | read _ | list _ => true
  | _ => false

/-- A file was written or a directory made. -/
def isWriting : FileEffect → Bool
  | write _ | makeDirectories _ => true
  | _ => false

/-- A file was removed. -/
def isRemoving : FileEffect → Bool
  | remove _ => true
  | _ => false

end FileEffect

namespace Disk

open Program

/-- The effects in the order in which they happened. -/
def history (disk : Disk) : List FileEffect := disk.effects.reverse

/-- One more effect is the last one. -/
@[simp] theorem history_note (disk : Disk) (effect : FileEffect) :
    (disk.note effect).history = disk.history ++ [effect] := List.reverse_cons

/-- From one disk to another only effects of one kind happened. -/
def Happens (kind : FileEffect → Bool) (before after : Disk) : Prop :=
  ∃ effects, after.history = before.history ++ effects ∧ ∀ effect ∈ effects, kind effect

instance (kind : FileEffect → Bool) : IsPreorder Disk (Happens kind) where
  refl disk := ⟨[], (List.append_nil _).symm, fun _ member => nomatch member⟩
  trans first second third := by
    rintro ⟨earlier, toSecond, earlierKind⟩ ⟨later, toThird, laterKind⟩
    refine ⟨earlier ++ later, by rw [toThird, toSecond, List.append_assoc], fun effect member => ?_⟩
    exact (List.mem_append.1 member).elim (earlierKind effect) (laterKind effect)

/-- One effect happened. -/
theorem Happens.note {kind : FileEffect → Bool} {before after : Disk} {effect : FileEffect}
    (isKind : kind effect) (same : after.history = before.history ++ [effect]) :
    Happens kind before after :=
  ⟨[effect], same, fun _ member => List.mem_singleton.1 member ▸ isKind⟩

/-- From one disk to another some effect happened, perhaps among others. -/
def Did (effect : FileEffect) (before after : Disk) : Prop :=
  ∃ effects, after.history = before.history ++ effects ∧ effect ∈ effects

/-- What happened stays so when more happens. -/
theorem Did.before {kind : FileEffect → Bool} {effect : FileEffect} {first second third : Disk}
    (did : Did effect first second) (more : Happens kind second third) :
    Did effect first third := by
  obtain ⟨effects, toSecond, member⟩ := did
  obtain ⟨later, toThird, -⟩ := more
  exact ⟨effects ++ later, by rw [toThird, toSecond, List.append_assoc],
    List.mem_append_left later member⟩

/-- What happens happens after all that happened earlier. -/
theorem Did.after {kind : FileEffect → Bool} {effect : FileEffect} {first second third : Disk}
    (did : Did effect second third) (earlier : Happens kind first second) :
    Did effect first third := by
  obtain ⟨effects, toThird, member⟩ := did
  obtain ⟨others, toSecond, -⟩ := earlier
  exact ⟨others ++ effects, by rw [toThird, toSecond, List.append_assoc],
    List.mem_append_right others member⟩

/-- Nothing but reading: the tree is as it was. -/
structure Reads (before after : Disk) : Prop where
  /-- The tree is the same. -/
  tree : after.tree = before.tree
  /-- Paths start at the same place. -/
  current : after.current = before.current
  /-- The same files cannot be removed. -/
  locked : after.locked = before.locked
  /-- Only reading happened. -/
  happens : Happens FileEffect.isReading before after

/-- Nothing but writing: the tree has grown. -/
structure Writes (before after : Disk) : Prop where
  /-- The tree has grown. -/
  tree : before.tree.Grows after.tree
  /-- Paths start at the same place. -/
  current : after.current = before.current
  /-- The same files cannot be removed. -/
  locked : after.locked = before.locked
  /-- Only writing happened. -/
  happens : Happens FileEffect.isWriting before after

/-- Nothing but removing. -/
structure Removes (before after : Disk) : Prop where
  /-- Paths start at the same place. -/
  current : after.current = before.current
  /-- The same files cannot be removed. -/
  locked : after.locked = before.locked
  /-- Only removing happened. -/
  happens : Happens FileEffect.isRemoving before after

instance : IsPreorder Disk Reads where
  refl disk := ⟨rfl, rfl, rfl, refl_of _ disk⟩
  trans _ _ _ first second := ⟨second.tree.trans first.tree, second.current.trans first.current,
    second.locked.trans first.locked, trans_of _ first.happens second.happens⟩

instance : IsPreorder Disk Writes where
  refl disk := ⟨refl_of _ disk.tree, rfl, rfl, refl_of _ disk⟩
  trans _ _ _ first second := ⟨trans_of _ first.tree second.tree,
    second.current.trans first.current, second.locked.trans first.locked,
    trans_of _ first.happens second.happens⟩

instance : IsPreorder Disk Removes where
  refl disk := ⟨rfl, rfl, refl_of _ disk⟩
  trans _ _ _ first second := ⟨second.current.trans first.current,
    second.locked.trans first.locked, trans_of _ first.happens second.happens⟩

/-- A disk that differs in its notices at most. -/
structure Silent (before after : Disk) : Prop where
  /-- The tree is the same. -/
  tree : after.tree = before.tree
  /-- Paths start at the same place. -/
  current : after.current = before.current
  /-- The same files cannot be removed. -/
  locked : after.locked = before.locked
  /-- Nothing happened. -/
  effects : after.effects = before.effects

/-- A silent step reads at most. -/
theorem Silent.reads {before after : Disk} (silent : Silent before after) : Reads before after :=
  ⟨silent.tree, silent.current, silent.locked, [], by simp [history, silent.effects],
    fun _ member => nomatch member⟩

/-- A silent step writes at most. -/
theorem Silent.writes {before after : Disk} (silent : Silent before after) :
    Writes before after :=
  ⟨silent.tree.symm ▸ refl_of _ before.tree, silent.current, silent.locked, [],
    by simp [history, silent.effects], fun _ member => nomatch member⟩

/-- A silent step removes at most. -/
theorem Silent.removes {before after : Disk} (silent : Silent before after) :
    Removes before after :=
  ⟨silent.current, silent.locked, [], by simp [history, silent.effects],
    fun _ member => nomatch member⟩

/-- Telling something is silent. -/
theorem tell_silent (notice : Notice) :
    Keeps Silent (Journal.tell notice : OnDisk Unit) := fun _ => ⟨rfl, rfl, rfl, rfl⟩

/-- Finding the place of a path is silent. -/
theorem canonical_silent (path : Path) :
    Keeps Silent (Storage.canonical path : OnDisk (Option Path)) := fun _ => ⟨rfl, rfl, rfl, rfl⟩

/-- Listing a directory reads. -/
theorem filesBelow_reads (path : Path) :
    Keeps Reads (Storage.filesBelow path : OnDisk (Except (Path × StorageFault) (List Path))) :=
  fun disk => ⟨rfl, rfl, rfl, .note rfl (disk.history_note (.list path))⟩

/-- Reading a file reads. -/
theorem readText_reads (path : Path) :
    Keeps Reads (Storage.readText path : OnDisk (Except StorageFault String)) :=
  fun disk => ⟨rfl, rfl, rfl, .note rfl (disk.history_note (.read path))⟩

/-- Making directories writes. -/
theorem makeDirectories_writes (path : Path) :
    Keeps Writes (Storage.makeDirectories path : OnDisk (Except StorageFault Unit)) :=
  fun disk => ⟨FileTree.makeDirectories_grows disk.current (stepsFor path) disk.tree path, rfl,
    rfl, .note rfl (disk.history_note (.makeDirectories path))⟩

/-- Writing a file writes. -/
theorem writeText_writes (path : Path) (text : String) :
    Keeps Writes (Storage.writeText path text : OnDisk (Except StorageFault Unit)) := by
  intro disk
  change Writes disk ((disk.note (.write path)).update
    (disk.tree.writeBytes disk.current path text.toUTF8)).2
  cases written : disk.tree.writeBytes disk.current path text.toUTF8 with
  | error fault =>
    exact ⟨refl_of _ disk.tree, rfl, rfl, .note rfl (disk.history_note (.write path))⟩
  | ok tree =>
    exact ⟨(FileTree.writeBytes_spec written).1, rfl, rfl,
      .note rfl (disk.history_note (.write path))⟩

/-- Removing a file removes. -/
theorem removeFile_removes (path : Path) :
    Keeps Removes (Storage.removeFile path : OnDisk (Except StorageFault Unit)) := by
  intro disk
  change Removes disk ((disk.note (.remove path)).update
    (disk.tree.removeFile disk.locked disk.current path)).2
  cases disk.tree.removeFile disk.locked disk.current path with
  | error fault => exact ⟨rfl, rfl, .note rfl (disk.history_note (.remove path))⟩
  | ok tree => exact ⟨rfl, rfl, .note rfl (disk.history_note (.remove path))⟩

end Disk

end PhysicsPrefab
