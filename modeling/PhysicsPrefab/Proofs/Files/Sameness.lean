import PhysicsPrefab.Proofs.Files.Routes

/-!
# Trees that differ in the order of listings

Two trees are the same if they have the same entries at every location, in whatever order their
directories list them. Every operation on files gives the same for both, and leaves them the same
(`Same.makeDirectories`, `Same.writeBytes`, `Same.removeFile`). Only a listing tells them apart.
-/

namespace PhysicsPrefab.FileTree

/-- The same entries at every location. -/
def Same (first second : FileTree) : Prop := first.entryAt = second.entryAt

instance : IsEquiv FileTree Same where
  refl _ := rfl
  symm _ _ same := Eq.symm same
  trans _ _ _ first second := Eq.trans first second

namespace Same

variable {first second : FileTree} (same : Same first second)

include same

/-- At a location of both trees there is nothing, the same file, or a directory. -/
theorem get? (location : Location) :
    (first.get? location = none ∧ second.get? location = none) ∨
      (∃ contents, first.get? location = some (file contents) ∧
        second.get? location = some (file contents)) ∨
      ∃ entries others, first.get? location = some (directory entries) ∧
        second.get? location = some (directory others) := by
  have entries : (first.get? location).map entry = (second.get? location).map entry :=
    congrFun same location
  cases held : first.get? location with
  | none =>
    rw [held, Option.map_none, eq_comm, Option.map_eq_none_iff] at entries
    exact .inl ⟨rfl, entries⟩
  | some found =>
    rw [held, Option.map_some, eq_comm, Option.map_eq_some_iff] at entries
    obtain ⟨other, isOther, entry⟩ := entries
    cases found <;> cases other <;>
      simp only [FileTree.entry, Entry.file.injEq, reduceCtorEq] at entry
    · exact .inr (.inl ⟨_, rfl, entry ▸ isOther⟩)
    · exact .inr (.inr ⟨_, _, rfl, isOther⟩)

/-- Both trees hold things of the same kind. -/
theorem kind? : first.kind? = second.kind? := by
  funext location
  rw [FileTree.kind?, FileTree.kind?]
  rcases same.get? location with ⟨isFirst, isSecond⟩ | ⟨_, isFirst, isSecond⟩ |
    ⟨_, _, isFirst, isSecond⟩ <;> simp [isFirst, isSecond, isDirectory]

/-- Both trees hold the same files. -/
theorem contents? : first.contents? = second.contents? := by
  funext location
  rw [FileTree.contents?, FileTree.contents?, show first.entryAt = _ from same]

/-- What is in one tree grows to what is in the other. -/
theorem grows : Grows first second := by
  rw [Grows, same.kind?]
  exact fun _ _ isThere => isThere

/-- Paths are followed in the same way. -/
theorem follow (location : Location) (pieces : List (List Char)) :
    first.follow location pieces = second.follow location pieces := by
  induction pieces generalizing location with
  | nil => rfl
  | cons piece rest ih =>
    have next := same.get? (location ++ [String.ofList piece])
    rw [FileTree.follow, FileTree.follow]
    rcases same.get? location with ⟨isFirst, isSecond⟩ | ⟨_, isFirst, isSecond⟩ |
      ⟨entries, others, isFirst, isSecond⟩
    · rw [isFirst, isSecond]
    · rw [isFirst, isSecond]
    · simp only [isFirst, isSecond, ih]
      rw [← child?_eq isFirst, ← child?_eq isSecond] at next
      rcases next with ⟨nextFirst, nextSecond⟩ | ⟨_, nextFirst, nextSecond⟩ |
        ⟨_, _, nextFirst, nextSecond⟩ <;> rw [nextFirst, nextSecond]

/-- Paths lead to the same locations. -/
theorem resolve (current : Location) (path : Path) :
    first.resolve current path = second.resolve current path := by
  simp only [FileTree.resolve, same.follow]

/-- New things have the same places. -/
theorem newPlace (current : Location) (path : Path) (slash : Bool) :
    first.newPlace current path slash = second.newPlace current path slash := by
  simp only [FileTree.newPlace, same.follow]
  refine bind_congr fun _ => ?_
  split
  · rfl
  · refine bind_congr fun directory => ?_
    rcases same.get? directory with ⟨isFirst, isSecond⟩ | ⟨_, isFirst, isSecond⟩ |
      ⟨_, _, isFirst, isSecond⟩ <;> simp only [isFirst, isSecond]

/-- A path leads nowhere in both trees, or to the same file, or to a directory. -/
theorem lookup (current : Location) (path : Path) :
    (∃ fault, first.lookup current path = .error fault ∧
        second.lookup current path = .error fault) ∨
      (∃ location contents, first.lookup current path = .ok (location, file contents) ∧
        second.lookup current path = .ok (location, file contents)) ∨
      ∃ location entries others, first.lookup current path = .ok (location, directory entries) ∧
        second.lookup current path = .ok (location, directory others) := by
  simp only [FileTree.lookup, same.resolve, bind, Except.bind]
  cases second.resolve current path with
  | error fault => exact .inl ⟨fault, rfl, rfl⟩
  | ok location =>
    rcases same.get? location with ⟨isFirst, isSecond⟩ | ⟨contents, isFirst, isSecond⟩ |
      ⟨entries, others, isFirst, isSecond⟩ <;> simp only [isFirst, isSecond]
    · exact .inl ⟨.missing, rfl, rfl⟩
    · exact .inr (.inl ⟨location, contents, rfl, rfl⟩)
    · exact .inr (.inr ⟨location, entries, others, rfl, rfl⟩)

/-- Paths lead to directories in both trees. -/
theorem isDirectoryAt (current : Location) (path : Path) :
    first.isDirectoryAt current path = second.isDirectoryAt current path := by
  rw [FileTree.isDirectoryAt, FileTree.isDirectoryAt]
  rcases same.lookup current path with ⟨_, isFirst, isSecond⟩ | ⟨_, _, isFirst, isSecond⟩ |
    ⟨_, _, _, isFirst, isSecond⟩ <;> simp [isFirst, isSecond, isDirectory]

/-- Files hold the same texts. -/
theorem readText (current : Location) (path : Path) :
    first.readText current path = second.readText current path := by
  rw [FileTree.readText, FileTree.readText]
  rcases same.lookup current path with ⟨_, isFirst, isSecond⟩ | ⟨_, _, isFirst, isSecond⟩ |
    ⟨_, _, _, isFirst, isSecond⟩ <;> simp [isFirst, isSecond, bind, Except.bind]

end Same

/-- Two attempts to change a tree have the same outcome. -/
inductive SameChange : Except StorageFault FileTree → Except StorageFault FileTree → Prop where
  /-- Both fail for the same reason. -/
  | error (fault : StorageFault) : SameChange (.error fault) (.error fault)
  /-- Both lead to trees that are the same. -/
  | ok {first second : FileTree} (same : Same first second) : SameChange (.ok first) (.ok second)

/-- Two attempts to make directories have the same outcome and lead to trees that are the same. -/
def SameOutcome (first second : FileTree × Except StorageFault Unit) : Prop :=
  first.2 = second.2 ∧ Same first.1 second.1

namespace Same

variable {first second : FileTree} (same : Same first second)

include same

/-- A directory is made in both trees or in neither. -/
theorem makeDirectory (current : Location) (path : Path) :
    SameChange (first.makeDirectory current path) (second.makeDirectory current path) := by
  have places := same.newPlace current path true
  cases placed : second.newPlace current path true with
  | error fault =>
    simp only [FileTree.makeDirectory, places, placed, bind, Except.bind]
    exact .error fault
  | ok location =>
    rcases same.get? location with ⟨isFirst, isSecond⟩ | ⟨_, isFirst, isSecond⟩ |
      ⟨_, _, isFirst, isSecond⟩
    · have firstMade := makeDirectory_eq_ok.2 ⟨location, places.trans placed, isFirst, rfl⟩
      have secondMade := makeDirectory_eq_ok.2 ⟨location, placed, isSecond, rfl⟩
      obtain ⟨firstPlace, firstPlaced, -, firstChanged⟩ := makeDirectory_spec firstMade
      obtain ⟨secondPlace, secondPlaced, -, secondChanged⟩ := makeDirectory_spec secondMade
      rw [places, secondPlaced] at firstPlaced
      obtain rfl := Except.ok.inj firstPlaced
      rw [firstMade, secondMade]
      exact .ok (by rw [Same, firstChanged, secondChanged, show first.entryAt = _ from same])
    all_goals
      simp only [FileTree.makeDirectory, places, placed, bind, Except.bind, isFirst, isSecond]
      exact .error .occupied

/-- A directory that could not be made is there in both trees or in neither. -/
theorem notMade (current : Location) (path : Path) (fault : StorageFault) :
    SameOutcome
      (if first.isDirectoryAt current path then (first, .ok ()) else (first, .error fault))
      (if second.isDirectoryAt current path then (second, .ok ()) else (second, .error fault)) := by
  rw [same.isDirectoryAt]
  split <;> exact ⟨rfl, same⟩

/-- Directories are made in both trees or in neither, and what has been made is the same. -/
theorem makeDirectories (current : Location) (steps : Nat) (path : Path) :
    SameOutcome (FileTree.makeDirectories current steps first path)
      (FileTree.makeDirectories current steps second path) := by
  induction steps generalizing first second path with
  | zero => exact ⟨rfl, same⟩
  | succ steps ih =>
    unfold FileTree.makeDirectories
    split
    · exact ⟨rfl, same⟩
    · have made := same.makeDirectory current path
      generalize first.makeDirectory current path = firstMade at made
      generalize second.makeDirectory current path = secondMade at made
      cases made with
      | ok grown => exact ⟨rfl, grown⟩
      | error fault =>
        cases fault with
        | missing =>
          dsimp only
          cases path.parent? with
          | none => exact ⟨rfl, same⟩
          | some outer =>
            dsimp only
            have above := ih same outer
            generalize FileTree.makeDirectories current steps first outer = firstAbove at above
            generalize FileTree.makeDirectories current steps second outer = secondAbove at above
            obtain ⟨firstTree, firstResult⟩ := firstAbove
            obtain ⟨secondTree, secondResult⟩ := secondAbove
            obtain ⟨rfl, grown⟩ : firstResult = secondResult ∧ Same firstTree secondTree := above
            cases firstResult with
            | error fault => exact ⟨rfl, grown⟩
            | ok _ =>
              dsimp only
              have made := grown.makeDirectory current path
              generalize firstTree.makeDirectory current path = firstMade at made
              generalize secondTree.makeDirectory current path = secondMade at made
              cases made with
              | ok larger => exact ⟨rfl, larger⟩
              | error fault => exact grown.notMade current path fault
        | _ => exact same.notMade current path _

/-- A file is written in both trees or in neither. -/
theorem writeBytes (current : Location) (path : Path) (contents : ByteArray) :
    SameChange (first.writeBytes current path contents)
      (second.writeBytes current path contents) := by
  have places := same.newPlace current path false
  cases placed : second.newPlace current path false with
  | error fault =>
    simp only [FileTree.writeBytes, places, placed, bind, Except.bind]
    exact .error fault
  | ok location =>
    by_cases isDirectory : second.kind? location = some true
    · have firstDirectory : first.kind? location = some true := same.kind? ▸ isDirectory
      obtain ⟨entries, isFirst⟩ := exists_directory firstDirectory
      obtain ⟨others, isSecond⟩ := exists_directory isDirectory
      simp only [FileTree.writeBytes, places, placed, bind, Except.bind, isFirst, isSecond]
      exact .error .isADirectory
    · have firstFree : first.kind? location ≠ some true := same.kind? ▸ isDirectory
      have firstWritten : first.writeBytes current path contents =
          .ok (first.put location (file contents)) :=
        writeBytes_eq_ok.2 ⟨location, places.trans placed, firstFree, rfl⟩
      have secondWritten : second.writeBytes current path contents =
          .ok (second.put location (file contents)) :=
        writeBytes_eq_ok.2 ⟨location, placed, isDirectory, rfl⟩
      obtain ⟨firstPlace, firstPlaced, -, firstChanged⟩ := writeBytes_entryAt firstWritten
      obtain ⟨secondPlace, secondPlaced, -, secondChanged⟩ := writeBytes_entryAt secondWritten
      rw [places, secondPlaced] at firstPlaced
      obtain rfl := Except.ok.inj firstPlaced
      rw [firstWritten, secondWritten]
      exact .ok (by rw [Same, firstChanged, secondChanged, show first.entryAt = _ from same])

/-- A file is removed from both trees or from neither. -/
theorem removeFile (locked : List Location) (current : Location) (path : Path) :
    SameChange (first.removeFile locked current path) (second.removeFile locked current path) := by
  rcases same.lookup current path with ⟨fault, isFirst, isSecond⟩ |
    ⟨location, contents, isFirst, isSecond⟩ | ⟨_, _, _, isFirst, isSecond⟩
  · simp only [FileTree.removeFile, isFirst, isSecond, bind, Except.bind]
    exact .error fault
  · by_cases isLocked : location ∈ locked
    · rw [removeFile_denied isFirst isLocked, removeFile_denied isSecond isLocked]
      exact .error .denied
    · obtain ⟨firstAfter, firstRemoved, firstChanged⟩ := removeFile_entryAt isFirst isLocked
      obtain ⟨secondAfter, secondRemoved, secondChanged⟩ := removeFile_entryAt isSecond isLocked
      rw [firstRemoved, secondRemoved]
      exact .ok (by rw [Same, firstChanged, secondChanged, show first.entryAt = _ from same])
  · simp only [FileTree.removeFile, isFirst, isSecond, bind, Except.bind]
    exact .error .isADirectory

end Same

end PhysicsPrefab.FileTree
