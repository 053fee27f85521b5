import PhysicsPrefab.Proofs.Project.Reading

/-!
# Writing and removing

After a plan has been made a run only writes, and if that fails some file or directory could not
be written (`Run.writePlan_obeys`); if not, all artifacts are there (`Run.writePlan_written`).
After that it only removes, and if that fails the last source could not be removed
(`Run.removePlanned_obeys`).
-/

namespace PhysicsPrefab

open Program

namespace Run

variable (schedule : Pool.Schedule) (root : Path)

/-- Some file or directory could not be written. -/
def IsUnwritable (error : EmitError) : Prop :=
  ∃ path cause, error = .unwritable path cause

/-- A step failed because some file or directory could not be written. -/
def WritingFailed (error : RunError) : Prop :=
  ∃ cause, IsUnwritable cause ∧ error = .emit cause

/-- An artifact has been written, and a file is where it goes. -/
structure Written (artifact : Artifact) (before after : Disk) : Prop where
  /-- It was written. -/
  did : before.Did (.write (root.join artifact.path)) after
  /-- There is a file. -/
  isFile : after.tree.isFileAt after.current (root.join artifact.path)

/-- An artifact that has been written stays so when more is written. -/
theorem Written.stays {root : Path} {artifact : Artifact} {before after later : Disk}
    (written : Written root artifact before after) (more : Disk.Writes after later) :
    Written root artifact before later :=
  ⟨written.did.before more.happens,
    more.current ▸ FileTree.isFileAt_grows more.tree written.isFile⟩

/-- An artifact that has been written was so after all that happened earlier. -/
theorem Written.later {root : Path} {artifact : Artifact} {earlier before after : Disk}
    (written : Written root artifact before after) (first : Disk.Writes earlier before) :
    Written root artifact earlier after :=
  ⟨written.did.after first.happens, written.isFile⟩

/-- A file that has been written is there. -/
theorem writeText_written {path : Path} {text : String} {disk : Disk}
    (succeeded : value (Storage.writeText path text : OnDisk (Except StorageFault Unit)) disk =
      .ok ()) :
    let after := final (Storage.writeText path text : OnDisk (Except StorageFault Unit)) disk
    disk.Did (.write path) after ∧ after.tree.isFileAt after.current path := by
  change ((disk.note (.write path)).update
    (disk.tree.writeBytes disk.current path text.toUTF8)).1 = .ok () at succeeded
  intro after
  have isAfter : after = ((disk.note (.write path)).update
    (disk.tree.writeBytes disk.current path text.toUTF8)).2 := rfl
  cases outcome : disk.tree.writeBytes disk.current path text.toUTF8 with
  | error fault =>
    rw [outcome] at succeeded
    contradiction
  | ok tree =>
    rw [outcome] at isAfter
    obtain ⟨-, location, isThere⟩ := FileTree.writeBytes_spec outcome
    rw [isAfter]
    refine ⟨⟨[.write path], disk.history_note (.write path), List.mem_singleton_self _⟩, ?_⟩
    change tree.isFileAt disk.current path
    rw [FileTree.isFileAt, isThere]
    rfl

/-- Making a directory only writes, and it fails if a directory cannot be made. -/
theorem ensureDirectory_obeys (path : Path) :
    Obeys Disk.Writes (Anywhere IsUnwritable)
      (ExceptT.mk (ensureDirectory path) : ExceptT EmitError OnDisk Unit) :=
  .wrapped (Disk.makeDirectories_writes path) fun _ cause _ => ⟨path, cause, rfl⟩

/-- Writing a file only writes, and it fails if the file cannot be written. -/
theorem writeText_obeys (path : Path) (text : String) :
    Obeys Disk.Writes (Anywhere IsUnwritable) (ExceptT.mk (do
      return (← Storage.writeText path text).mapError (.unwritable path)) :
        ExceptT EmitError OnDisk Unit) :=
  .wrapped (Disk.writeText_writes path text) fun _ cause _ => ⟨path, cause, rfl⟩

/-- The directories above a file, if it has any, are made before it. -/
def makeParents (path : Path) : ExceptT EmitError OnDisk Unit :=
  (path.parent?.map fun directory => ExceptT.mk (ensureDirectory directory)).getD (pure ())

/-- The file of an artifact is written and its path given back. -/
theorem write_eq (artifact : Artifact) (path : Path) :
    (writeArtifact.write artifact path : OnDisk (Except EmitError Path)) = (do
      ExceptT.mk (do
        return (← Storage.writeText path artifact.contents).mapError (.unwritable path))
      return path : ExceptT EmitError OnDisk Path).run := by
  rw [writeArtifact.write, ExceptT.run_bind, ExceptT.run_mk, bind_assoc]
  refine bind_congr fun result => ?_
  cases result <;> rfl

/-- The file of an artifact is written after the directories above it have been made. -/
theorem writeArtifact_eq (artifact : Artifact) :
    (writeArtifact root artifact : OnDisk (Except EmitError Path)) = (do
      makeParents (root.join artifact.path)
      ExceptT.mk (writeArtifact.write artifact (root.join artifact.path)) :
        ExceptT EmitError OnDisk Path).run := by
  delta writeArtifact makeParents
  dsimp only
  cases (root.join artifact.path).parent? with
  | none => rfl
  | some directory =>
    rw [Option.map_some, Option.getD_some, ensureDirectory, ExceptT.run_bind, ExceptT.run_mk,
      bind_assoc]
    refine bind_congr fun result => ?_
    cases result <;> rfl

/-- Making the directories above a file only writes, and it fails if one cannot be made. -/
theorem makeParents_obeys (path : Path) :
    Obeys Disk.Writes (Anywhere IsUnwritable) (makeParents path) := by
  rw [makeParents]
  cases path.parent? with
  | none => exact .pure _
  | some directory => exact ensureDirectory_obeys directory

/-- Writing an artifact only writes, and it fails if its file or a directory cannot be written. -/
theorem writeArtifact_obeys (artifact : Artifact) :
    Obeys Disk.Writes (Anywhere IsUnwritable)
      (ExceptT.mk (writeArtifact root artifact) : ExceptT EmitError OnDisk Path) := by
  rw [writeArtifact_eq, write_eq]
  exact .bind (makeParents_obeys _) fun _ =>
    .bind (writeText_obeys _ _) fun _ => .pure _

/-- A file of an artifact for which there was no error is there. -/
theorem write_written {artifact : Artifact} {disk : Disk} {path made : Path}
    (succeeded : value (writeArtifact.write artifact path : OnDisk (Except EmitError Path)) disk =
      .ok made) :
    let after := final (writeArtifact.write artifact path : OnDisk (Except EmitError Path)) disk
    disk.Did (.write path) after ∧ after.tree.isFileAt after.current path := by
  rw [write_eq] at succeeded ⊢
  obtain ⟨_, isMade, -⟩ := exists_of_run_bind_ok _ _ disk succeeded
  rw [(run_bind_ok _ _ disk isMade).2]
  exact writeText_written (mapError_eq_ok.1 isMade)

/-- An artifact for which there was no error has been written. -/
theorem writeArtifact_written {artifact : Artifact} {disk : Disk} {path : Path}
    (succeeded : value (writeArtifact root artifact : OnDisk (Except EmitError Path)) disk =
      .ok path) :
    Written root artifact disk
      (final (writeArtifact root artifact : OnDisk (Except EmitError Path)) disk) := by
  rw [writeArtifact_eq] at succeeded ⊢
  have first := (makeParents_obeys (root.join artifact.path)).keeps disk
  obtain ⟨_, isMade, succeeded⟩ := exists_of_run_bind_ok _ _ disk succeeded
  rw [(run_bind_ok _ _ disk isMade).2]
  obtain ⟨did, isFile⟩ := write_written succeeded
  exact Written.later ⟨did, isFile⟩ first

/-- What is given back for an artifact is its path under the root. -/
theorem path_of_writeArtifact {artifact : Artifact} {disk : Disk} {path : Path}
    (succeeded : value (writeArtifact root artifact : OnDisk (Except EmitError Path)) disk =
      .ok path) :
    path = root.join artifact.path := by
  rw [writeArtifact_eq, write_eq] at succeeded
  obtain ⟨_, -, succeeded⟩ := exists_of_run_bind_ok _ _ disk succeeded
  obtain ⟨_, -, succeeded⟩ := exists_of_run_bind_ok _ _ _ succeeded
  exact (Except.ok.inj succeeded).symm

/-- Telling something writes nothing. -/
theorem tell_writes (notice : Notice) :
    Keeps Disk.Writes (Journal.tell notice : OnDisk Unit) :=
  fun disk => (Disk.tell_silent notice disk).writes

/-- Artifacts are written one after the other, with a notice for each. -/
theorem writeArtifacts_cons (artifact : Artifact) (rest : List Artifact) :
    (writeArtifacts root (artifact :: rest) : OnDisk (Except EmitError (List Path))) = (do
      let path ← ExceptT.mk (writeArtifact root artifact)
      ExceptT.lift (Journal.note .debug s!"wrote {path.shown}")
      let others ← ExceptT.mk (writeArtifacts root rest)
      return path :: others : ExceptT EmitError OnDisk (List Path)).run := by
  rw [writeArtifacts, ExceptT.run_bind, ExceptT.run_mk]
  refine bind_congr fun result => ?_
  cases result with
  | error error => rfl
  | ok path =>
    simp only [ExceptT.run_bind, ExceptT.run_lift, ExceptT.run_mk]
    refine bind_congr fun _ => bind_congr fun others => ?_
    cases others <;> rfl

/-- Writing some artifacts only writes, and it fails if a file or directory cannot be written. -/
theorem writeArtifacts_obeys (artifacts : List Artifact) :
    Obeys Disk.Writes (Anywhere IsUnwritable)
      (ExceptT.mk (writeArtifacts root artifacts) : ExceptT EmitError OnDisk (List Path)) := by
  induction artifacts with
  | nil => exact .pure _
  | cons artifact rest ih =>
    rw [writeArtifacts_cons]
    exact .bind (writeArtifact_obeys root artifact) fun _ =>
      .bind (.lift (tell_writes _)) fun _ =>
      .bind ih fun _ => .pure _

/-- Artifacts for which there was no error have been written. -/
theorem writeArtifacts_written {artifacts : List Artifact} {disk : Disk} {paths : List Path}
    (succeeded : value (writeArtifacts root artifacts : OnDisk (Except EmitError (List Path)))
      disk = .ok paths) :
    ∀ artifact ∈ artifacts, Written root artifact disk
      (final (writeArtifacts root artifacts : OnDisk (Except EmitError (List Path))) disk) := by
  induction artifacts generalizing disk paths with
  | nil => exact fun _ member => nomatch member
  | cons first rest ih =>
    rw [writeArtifacts_cons] at succeeded ⊢
    obtain ⟨path, disk₁, isMade, toDisk₁, writes₁, succeeded, last⟩ :=
      (writeArtifact_obeys root first).keeps.exists_next succeeded rfl
    obtain ⟨_, disk₂, -, -, writes₂, succeeded, last⟩ :=
      (tell_writes _).run_lift.exists_next succeeded last
    obtain ⟨others, disk₃, isMade', toDisk₃, writes₃, -, last⟩ :=
      (writeArtifacts_obeys root rest).keeps.exists_next succeeded last
    intro artifact member
    rcases List.mem_cons.1 member with rfl | later
    · have written := toDisk₁ ▸ writeArtifact_written root isMade
      exact last ▸ (written.stays writes₂).stays writes₃
    · have written := toDisk₃ ▸ ih isMade' artifact later
      exact last ▸ (written.later writes₂).later writes₁

/-- What is given back for artifacts are their paths under the root. -/
theorem paths_of_writeArtifacts {artifacts : List Artifact} {disk : Disk} {paths : List Path}
    (succeeded : value (writeArtifacts root artifacts : OnDisk (Except EmitError (List Path)))
      disk = .ok paths) :
    paths = artifacts.map fun artifact => root.join artifact.path := by
  induction artifacts generalizing disk paths with
  | nil => exact (Except.ok.inj succeeded).symm
  | cons artifact rest ih =>
    rw [writeArtifacts_cons] at succeeded
    obtain ⟨path, first, succeeded⟩ := exists_of_run_bind_ok _ _ disk succeeded
    obtain ⟨_, -, succeeded⟩ := exists_of_run_bind_ok _ _ _ succeeded
    obtain ⟨others, more, succeeded⟩ := exists_of_run_bind_ok _ _ _ succeeded
    obtain rfl := Except.ok.inj succeeded
    rw [List.map_cons, path_of_writeArtifact root first, ih more]

/-- Make some directories one after the other. -/
def ensureDirectories (directories : List Path) : Step OnDisk PUnit :=
  forIn directories PUnit.unit fun directory _ => do
    attempt .emit (ensureDirectory (root.join directory))
    return .yield PUnit.unit

/-- The first directory is made before all others. -/
theorem ensureDirectories_cons (first : Path) (rest : List Path) :
    ensureDirectories root (first :: rest) = (do
      attempt .emit (ensureDirectory (root.join first))
      ensureDirectories root rest) := by
  rw [ensureDirectories, List.forIn_cons, bind_assoc]
  simp only [pure_bind]
  rfl

/-- What a pool of workers makes of all artifacts. -/
def writeAll (artifacts : List (List Artifact)) : OnDisk (Except EmitError (List Path)) :=
  return Pool.collect (← Pool.runJobs schedule (writeArtifact root) artifacts)

/-- Artifacts are written by a pool of workers, after all directories for them and before the
index. -/
theorem writePlan_eq (layout : OutputLayout) (plan : Plan) :
    (writePlan schedule root layout plan : Step OnDisk (List Path)) = (do
      ensureDirectories root layout.directories
      let written ← attempt .emit (writeAll schedule root plan.artifacts)
      let index ← attempt .emit (writeArtifacts root [plan.index])
      return written ++ index) := rfl

/-- A pool that writes artifacts only writes, and it fails if a file or directory cannot be
written. -/
theorem writeAll_obeys (artifacts : List (List Artifact)) :
    Obeys Disk.Writes (Anywhere IsUnwritable)
      (ExceptT.mk (writeAll schedule root artifacts) : ExceptT EmitError OnDisk (List Path)) where
  keeps := (Pool.runJobs_keeps (fun artifact => (writeArtifact_obeys root artifact).keeps)
    schedule artifacts).bind fun _ => .pure _
  blamed disk error failed := by
    obtain ⟨artifact, state, isError⟩ := Pool.runJobs_error failed
    exact (writeArtifact_obeys root artifact).blamed state error isError

/-- If a pool has written artifacts without an error, all of them have been written. -/
theorem writeAll_written {artifacts : List (List Artifact)} {disk : Disk} {paths : List Path}
    (succeeded : value (writeAll schedule root artifacts) disk = .ok paths) :
    ∀ artifact ∈ artifacts.flatten,
      Written root artifact disk (final (writeAll schedule root artifacts) disk) := by
  intro artifact member
  obtain ⟨job, isJob, isPiece⟩ := List.mem_flatten.1 member
  exact Pool.runJobs_established (fun artifact => (writeArtifact_obeys root artifact).keeps)
    (fun artifact state next (more : Disk.Writes state next)
      (written : Written root artifact disk state) => written.stays more)
    (fun artifact state _ earlier isWritten =>
      (writeArtifact_written root isWritten).later earlier)
    succeeded job isJob artifact isPiece

/-- Writing is a step that fails if a file or directory cannot be written. -/
theorem attempt_obeys {α : Type} {answer : OnDisk (Except EmitError α)}
    (obeys : Obeys Disk.Writes (Anywhere IsUnwritable) (ExceptT.mk answer)) :
    Obeys Disk.Writes (Anywhere WritingFailed)
      (attempt .emit answer : Step OnDisk α) :=
  .wrapped obeys.keeps fun disk cause failed => ⟨cause, obeys.blamed disk cause failed, rfl⟩

/-- Making the directories for all artifacts only writes, and it fails if one cannot be made. -/
theorem ensureDirectories_obeys (directories : List Path) :
    Obeys Disk.Writes (Anywhere WritingFailed) (ensureDirectories root directories) :=
  .forIn (fun _ => .bind (attempt_obeys (ensureDirectory_obeys _))
    fun _ => .pure _) _

/-- Writing what has been planned only writes, and it fails if a file or directory cannot be
written. -/
theorem writePlan_obeys (layout : OutputLayout) (plan : Plan) :
    Obeys Disk.Writes (Anywhere WritingFailed)
      (writePlan schedule root layout plan : Step OnDisk (List Path)) := by
  rw [writePlan_eq]
  exact .bind (ensureDirectories_obeys root _) fun _ =>
    .bind (attempt_obeys (writeAll_obeys schedule root _)) fun _ =>
    .bind (attempt_obeys (writeArtifacts_obeys root _)) fun _ => .pure _

/-- The steps in which a plan has been written: the directories were made, a pool of workers has
written the artifacts, and then the index was written. -/
structure WritingSteps (layout : OutputLayout) (plan : Plan) (before furnished stored after : Disk)
    (all index : List Path) : Prop where
  /-- The directories could be made. -/
  isMade : value (ensureDirectories root layout.directories).run before = .ok PUnit.unit
  /-- This led to the first disk in between. -/
  toFurnished : final (ensureDirectories root layout.directories).run before = furnished
  /-- Nothing else was done. -/
  furnishing : Disk.Writes before furnished
  /-- The artifacts could be written. -/
  allMade : value (writeAll schedule root plan.artifacts) furnished = .ok all
  /-- This led to the second disk in between. -/
  toStored : final (writeAll schedule root plan.artifacts) furnished = stored
  /-- Nothing else was done. -/
  storing : Disk.Writes furnished stored
  /-- The index could be written. -/
  indexMade : value (writeArtifacts root [plan.index] : OnDisk (Except EmitError (List Path)))
    stored = .ok index
  /-- This led to the last disk. -/
  toAfter : final (writeArtifacts root [plan.index] : OnDisk (Except EmitError (List Path)))
    stored = after
  /-- Nothing else was done. -/
  indexing : Disk.Writes stored after

/-- A plan that could be written has been written in steps, each of which has succeeded. -/
theorem exists_steps_of_writePlan {layout : OutputLayout} {plan : Plan} {before after : Disk}
    {paths : List Path}
    (succeeded : value (writePlan schedule root layout plan : Step OnDisk (List Path)).run before =
      .ok paths)
    (leads : final (writePlan schedule root layout plan : Step OnDisk (List Path)).run before =
      after) :
    ∃ furnished stored all index,
      WritingSteps schedule root layout plan before furnished stored after all index ∧
        paths = all ++ index := by
  rw [writePlan_eq] at succeeded leads
  obtain ⟨_, furnished, isMade, toFurnished, furnishing, succeeded, last⟩ :=
    (ensureDirectories_obeys root _).keeps.exists_next succeeded leads
  obtain ⟨all, stored, allMade, toStored, storing, succeeded, last⟩ :=
    (attempt_obeys (writeAll_obeys schedule root _)).keeps.exists_next succeeded last
  obtain ⟨index, _, indexMade, toAfter, indexing, succeeded, rfl⟩ :=
    (attempt_obeys (writeArtifacts_obeys root _)).keeps.exists_next succeeded last
  rw [value_attempt] at allMade indexMade
  rw [final_attempt] at toStored toAfter
  exact ⟨furnished, stored, all, index, ⟨isMade, toFurnished, furnishing, allMade, toStored, storing,
    indexMade, toAfter, indexing⟩, (Except.ok.inj succeeded).symm⟩

/-- If writing what has been planned succeeds, every artifact has been written. -/
theorem writePlan_written {layout : OutputLayout} {plan : Plan} {disk : Disk} {paths : List Path}
    (succeeded : value (writePlan schedule root layout plan : Step OnDisk (List Path)).run disk =
      .ok paths) :
    ∀ artifact ∈ plan.artifacts.flatten ++ [plan.index], Written root artifact disk
      (final (writePlan schedule root layout plan : Step OnDisk (List Path)).run disk) := by
  generalize leads : final (writePlan schedule root layout plan :
    Step OnDisk (List Path)).run disk = after
  obtain ⟨furnished, stored, _, _, steps, -⟩ := exists_steps_of_writePlan schedule root succeeded leads
  intro artifact member
  rcases List.mem_append.1 member with isPiece | isIndex
  · have written : Written root artifact furnished stored :=
      steps.toStored ▸ writeAll_written schedule root steps.allMade artifact isPiece
    exact (written.stays steps.indexing).later steps.furnishing
  · have written : Written root artifact stored after :=
      steps.toAfter ▸ writeArtifacts_written root steps.indexMade artifact isIndex
    exact (written.later steps.storing).later steps.furnishing

/-- If writing what has been planned succeeds, the paths of all artifacts are given back. -/
theorem paths_of_writePlan {layout : OutputLayout} {plan : Plan} {disk : Disk} {paths : List Path}
    (succeeded : value (writePlan schedule root layout plan : Step OnDisk (List Path)).run disk =
      .ok paths) :
    paths = (plan.artifacts.flatten ++ [plan.index]).map fun artifact =>
      root.join artifact.path := by
  obtain ⟨_, _, all, index, steps, rfl⟩ := exists_steps_of_writePlan schedule root succeeded rfl
  rw [List.map_append, ← paths_of_writeArtifacts root steps.indexMade]
  exact congrArg (· ++ index)
    (Pool.runJobs_made (fun _ _ _ => path_of_writeArtifact root) steps.allMade)

/-- The last thing that happened was that a source could not be removed. -/
def RemovalFailed (error : RunError) (before after : Disk) : Prop :=
  ∃ source cause last, error = .storage source cause ∧ Disk.Removes before last ∧
    value (Storage.removeFile source : OnDisk (Except StorageFault Unit)) last = .error cause ∧
    final (Storage.removeFile source : OnDisk (Except StorageFault Unit)) last = after

instance : Carried Disk.Removes RemovalFailed where
  behind earlier failed := by
    obtain ⟨source, cause, last, rfl, removes, isError, isLast⟩ := failed
    exact ⟨source, cause, last, rfl, trans_of _ earlier removes, isError, isLast⟩

/-- Telling something removes nothing. -/
theorem note_removes (level : Level) (text : String) :
    Obeys Disk.Removes RemovalFailed (note level text : Step OnDisk Unit) :=
  .lift fun disk => (Disk.tell_silent _ disk).removes

/-- Finding the place of a path removes nothing. -/
theorem place_removes (path : Path) : Keeps Disk.Removes (place path : OnDisk Path) :=
  .bind (fun disk => (Disk.canonical_silent path disk).removes) fun _ => .pure _

/-- Removing a source only removes, and it fails if the source cannot be removed. -/
theorem removeFile_obeys (source : Path) :
    Obeys Disk.Removes RemovalFailed
      (attempt (.storage source) (Storage.removeFile source) : Step OnDisk Unit) :=
  .wrapped (Disk.removeFile_removes source) fun disk cause failed =>
    ⟨source, cause, disk, rfl, refl_of _ disk, failed, rfl⟩

/-- Removing sources only removes, and it fails if a source cannot be removed. -/
theorem removeSources_obeys (outputs sources : List Path) :
    Obeys Disk.Removes RemovalFailed
      (removeSources outputs sources : Step OnDisk (List Path)) := by
  induction sources with
  | nil => exact .pure _
  | cons source rest ih =>
    rw [removeSources]
    refine .bind (.lift (place_removes source)) fun location => ?_
    split
    · exact .bind (note_removes _ _) fun _ => ih
    · exact .bind (removeFile_obeys source) fun _ =>
        .bind (note_removes _ _) fun _ =>
        .bind ih fun _ => .pure _

/-- After writing, a run only removes, and that fails if a source cannot be removed. -/
theorem removePlanned_obeys (keep : Bool) (sources written : List Path) :
    Obeys Disk.Removes RemovalFailed
      (removePlanned keep sources written : Step OnDisk (List Path)) := by
  rw [removePlanned]
  cases keep with
  | true => exact .bind (note_removes _ _) fun _ => .pure _
  | false =>
    exact .bind (.lift (.mapM place_removes written)) fun _ =>
      removeSources_obeys _ sources

end Run

end PhysicsPrefab
