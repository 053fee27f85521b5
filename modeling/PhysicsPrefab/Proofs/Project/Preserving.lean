import PhysicsPrefab.Proofs.Files.Forming
import PhysicsPrefab.Proofs.Project.Prediction

/-!
# What runs keep

What every operation on a disk keeps, a run keeps, whatever its schedule and however it ends
(`run_keeps`). So a run leaves a disk well-formed (`run_wellFormed`). After a plan has been made, it
is enough to look at the operations that the plan allows (`conclude_keeps`).
-/

namespace PhysicsPrefab

open Disk Program FileTree

/-- A relation between disks that every operation keeps whose effect is allowed. -/
structure Disk.KeptByOperations (allowed : FileEffect → Bool) (related : Disk → Disk → Prop) :
    Prop where
  /-- Reading and telling keep it. -/
  reads : ∀ {before after : Disk}, Reads before after → related before after
  /-- Making directories keeps it. -/
  makeDirectories : ∀ path : Path, allowed (.makeDirectories path) = true →
    Keeps related (Storage.makeDirectories path : OnDisk (Except StorageFault Unit))
  /-- Writing a file keeps it. -/
  writeText : ∀ (path : Path) (text : String), allowed (.write path) = true →
    Keeps related (Storage.writeText path text : OnDisk (Except StorageFault Unit))
  /-- Removing a file keeps it. -/
  removeFile : ∀ path : Path, allowed (.remove path) = true →
    Keeps related (Storage.removeFile path : OnDisk (Except StorageFault Unit))

/-- What every operation keeps is kept by those that are allowed. -/
theorem Disk.KeptByOperations.mono {allowed : FileEffect → Bool} {related : Disk → Disk → Prop}
    (kept : KeptByOperations (fun _ => true) related) : KeptByOperations allowed related where
  reads := kept.reads
  makeDirectories path _ := kept.makeDirectories path rfl
  writeText path text _ := kept.writeText path text rfl
  removeFile path _ := kept.removeFile path rfl

namespace Run

/-- The effects that a plan may have: directories are made for artifacts and above them, artifacts
are written and compiled sources removed. -/
def Plan.allows (plan : Plan) (root : Path) (layout : OutputLayout) : FileEffect → Bool
  | .read _ | .list _ => true
  | .makeDirectories path => path ∈ layout.directories.map root.join ++
      (plan.report root).artifacts.filterMap Path.parent?
  | .write path => path ∈ (plan.report root).artifacts
  | .remove path => path ∈ plan.compiled.sources

variable {related : Disk → Disk → Prop} [IsPreorder Disk related]

section Keeping

variable {allowed : FileEffect → Bool} (kept : KeptByOperations allowed related)

include kept

omit [IsPreorder Disk related] in
/-- Telling something keeps the relation. -/
theorem note_keeps (level : Level) (text : String) :
    Keeps related (note level text : Step OnDisk Unit).run :=
  fun disk => kept.reads ((IsReader.note level text).reads disk)

/-- Making a directory for artifacts keeps the relation. -/
theorem ensureDirectory_keeps {path : Path} (isAllowed : allowed (.makeDirectories path) = true) :
    Keeps related (ensureDirectory path : OnDisk (Except EmitError Unit)) :=
  (kept.makeDirectories path isAllowed).bind fun _ => .pure _

/-- Writing an artifact keeps the relation. -/
theorem writeArtifact_keeps {root : Path} {artifact : Artifact}
    (above : ∀ directory, (root.join artifact.path).parent? = some directory →
      allowed (.makeDirectories directory) = true)
    (isAllowed : allowed (.write (root.join artifact.path)) = true) :
    Keeps related (writeArtifact root artifact : OnDisk (Except EmitError Path)) := by
  rw [writeArtifact_eq, write_eq]
  refine Keeps.run_bind ?_ fun _ => Keeps.run_bind ?_ fun _ => .pure _
  · rw [makeParents]
    cases isParent : (root.join artifact.path).parent? with
    | none => exact .pure _
    | some directory => exact ensureDirectory_keeps kept (above directory isParent)
  · exact (kept.writeText _ _ isAllowed).bind fun _ => .pure _

/-- Looking for the place of a file keeps the relation. -/
theorem place_keeps (path : Path) : Keeps related (place path : OnDisk Path) :=
  Keeps.bind (fun disk => kept.reads (Disk.canonical_silent path disk).reads) fun _ => .pure _

/-- Removing sources keeps the relation. -/
theorem removeSources_keeps (outputs : List Path) {sources : List Path}
    (areAllowed : ∀ source ∈ sources, allowed (.remove source) = true) :
    Keeps related (removeSources outputs sources : Step OnDisk (List Path)).run := by
  induction sources with
  | nil => exact .pure _
  | cons source rest ih =>
    obtain ⟨isAllowed, areAllowed⟩ := List.forall_mem_cons.1 areAllowed
    rw [removeSources]
    refine Keeps.run_bind (place_keeps kept source).run_lift fun found => ?_
    split
    · exact Keeps.run_bind (note_keeps kept .debug _) fun _ => ih areAllowed
    · exact Keeps.run_bind ((kept.removeFile source isAllowed).bind fun _ => .pure _) fun _ =>
        Keeps.run_bind (note_keeps kept .debug _) fun _ =>
        Keeps.run_bind (ih areAllowed) fun _ => .pure _

/-- Removing the compiled sources keeps the relation. -/
theorem removePlanned_keeps (keep : Bool) {sources : List Path} (written : List Path)
    (areAllowed : ∀ source ∈ sources, allowed (.remove source) = true) :
    Keeps related (removePlanned keep sources written : Step OnDisk (List Path)).run := by
  cases keep with
  | true => exact Keeps.run_bind (note_keeps kept .debug _) fun _ => .pure _
  | false =>
    exact Keeps.run_bind ((Keeps.mapM (place_keeps kept) written).run_lift) fun outputs =>
      removeSources_keeps kept outputs areAllowed

end Keeping

section Concluding

variable {root : Path} {plan : Plan}

/-- Writing an artifact of a plan keeps what the allowed operations keep. -/
theorem Plan.writeArtifact_keeps {layout : OutputLayout}
    (kept : KeptByOperations (plan.allows root layout) related) {artifact : Artifact}
    (isPlanned : artifact ∈ plan.artifacts.flatten ++ [plan.index]) :
    Keeps related (writeArtifact root artifact : OnDisk (Except EmitError Path)) := by
  have isPath : root.join artifact.path ∈ (plan.report root).artifacts :=
    List.mem_map.2 ⟨artifact, isPlanned, rfl⟩
  refine Run.writeArtifact_keeps kept (fun directory isParent => ?_) (decide_eq_true isPath)
  exact decide_eq_true (List.mem_append_right _ (List.mem_filterMap.2 ⟨_, isPath, isParent⟩))

/-- Writing what has been planned keeps what the allowed operations keep. -/
theorem writePlan_keeps (schedule : Pool.Schedule) {layout : OutputLayout}
    (kept : KeptByOperations (plan.allows root layout) related) :
    Keeps related (writePlan schedule root layout plan : Step OnDisk (List Path)).run := by
  rw [writePlan_eq]
  refine Keeps.run_bind ?_ fun _ => Keeps.run_bind ?_ fun _ => Keeps.run_bind ?_ fun _ => .pure _
  · refine Keeps.forIn_of_mem fun directory isDirectory => ?_
    have isAllowed : plan.allows root layout (.makeDirectories (root.join directory)) = true :=
      decide_eq_true (List.mem_append_left _ (List.mem_map_of_mem isDirectory))
    exact Keeps.run_bind ((ensureDirectory_keeps kept isAllowed).bind fun _ => .pure _)
      fun _ => .pure _
  · have each : ∀ artifact ∈ plan.artifacts.flatten,
        Keeps related (writeArtifact root artifact : OnDisk (Except EmitError Path)) :=
      fun artifact member => Plan.writeArtifact_keeps kept (List.mem_append_left _ member)
    exact ((Pool.runJobs_keeps_of_mem each schedule).bind fun _ => .pure _).bind fun _ => .pure _
  · have index := Plan.writeArtifact_keeps kept (List.mem_append_right _ (List.mem_singleton_self _))
    have whole : Keeps related
        (writeArtifacts root [plan.index] : OnDisk (Except EmitError (List Path))) := by
      rw [writeArtifacts_cons]
      exact Keeps.run_bind index fun path => Keeps.run_bind (note_keeps kept .debug _) fun _ =>
        Keeps.run_bind (.pure _) fun _ => .pure _
    exact whole.bind fun _ => .pure _

/-- What every operation keeps that a plan allows is kept after the plan has been made. -/
theorem conclude_keeps (schedule : Pool.Schedule) {config : Config} (mode : RunMode)
    (kept : KeptByOperations (plan.allows root config.layout) related) :
    Keeps related (conclude schedule root config mode plan : Step OnDisk RunReport).run := by
  cases mode with
  | check => exact Keeps.run_bind (note_keeps kept .info _) fun _ => .pure _
  | write =>
    refine (writePlan_keeps schedule kept).run_bind fun written => ?_
    exact (removePlanned_keeps kept _ _ fun source member => decide_eq_true member).run_bind
      fun _ => Keeps.run_bind (note_keeps kept .info _) fun _ => .pure _

/-- A run without a source directory reads. -/
theorem run_reads_without_sources {config : Config} (schedule : Pool.Schedule) (mode : RunMode)
    {before : Disk} (absent :
      before.tree.isDirectoryAt before.current (root.join config.sourceDirectory) = false) :
    Reads before (final (run schedule root config mode : Step OnDisk RunReport).run before) := by
  have looked : value (Storage.isDirectory (root.join config.sourceDirectory) : OnDisk Bool)
      before = false := absent
  rw [run_eq_runIn, runIn, (run_lift_bind before _ _).2, looked]
  exact (IsReader.run_bind (.note .warn _) fun _ => .run_pure _).reads before

/-- What reading keeps, and every operation that is allowed by the plan that is made, a run keeps. -/
theorem run_keeps_of_plan (schedule : Pool.Schedule) (root : Path) (config : Config)
    (mode : RunMode) (reads : ∀ {before after : Disk}, Reads before after → related before after)
    {before : Disk} (kept : ∀ plan,
      value (Run.plan schedule root config (root.join config.sourceDirectory) :
        Step OnDisk Plan).run before = .ok plan →
      KeptByOperations (plan.allows root config.layout) related) :
    related before (final (run schedule root config mode : Step OnDisk RunReport).run before) := by
  cases isThere : before.tree.isDirectoryAt before.current (root.join config.sourceDirectory) with
  | false => exact reads (run_reads_without_sources schedule mode isThere)
  | true =>
    have planning := (plan_isReader schedule root config
      (root.join config.sourceDirectory)).reads before
    cases planned : value (Run.plan schedule root config (root.join config.sourceDirectory) :
        Step OnDisk Plan).run before with
    | error error =>
      rw [(run_of_plan_error schedule mode isThere planned).2]
      exact reads planning
    | ok plan =>
      rw [(run_of_plan schedule mode isThere planned).2]
      exact trans_of related (reads planning) (conclude_keeps schedule mode (kept plan planned) _)

/-- What every operation keeps, a run keeps. -/
theorem run_keeps (kept : KeptByOperations (fun _ => true) related) (schedule : Pool.Schedule)
    (root : Path) (config : Config) (mode : RunMode) :
    Keeps related (run schedule root config mode : Step OnDisk RunReport).run :=
  fun _ => run_keeps_of_plan schedule root config mode kept.reads fun _ _ => kept.mono

end Concluding

/-- One disk is well-formed if another one is. -/
def KeepsFormed (before after : Disk) : Prop := before.WellFormed → after.WellFormed

instance : IsPreorder Disk KeepsFormed where
  refl _ formed := formed
  trans _ _ _ first second formed := second (first formed)

/-- Every operation leaves a disk well-formed. -/
theorem keepsFormed_keptByOperations : KeptByOperations (fun _ => true) KeepsFormed where
  reads reads formed := ⟨reads.tree ▸ formed.tree, by rw [reads.tree, reads.current]; exact formed.current⟩
  makeDirectories path _ disk formed :=
    ⟨makeDirectories_wellFormed disk.current (Disk.stepsFor path) formed.tree path,
      makeDirectories_grows disk.current (Disk.stepsFor path) disk.tree path _ _ formed.current⟩
  writeText path text _ disk formed := by
    change ((disk.note (.write path)).update
      (disk.tree.writeBytes disk.current path text.toUTF8)).2.WellFormed
    cases written : disk.tree.writeBytes disk.current path text.toUTF8 with
    | error fault => exact ⟨formed.tree, formed.current⟩
    | ok tree =>
      exact ⟨writeBytes_wellFormed formed.tree written,
        (writeBytes_spec written).1 _ _ formed.current⟩
  removeFile path _ disk formed := by
    change ((disk.note (.remove path)).update
      (disk.tree.removeFile disk.locked disk.current path)).2.WellFormed
    cases removed : disk.tree.removeFile disk.locked disk.current path with
    | error fault => exact ⟨formed.tree, formed.current⟩
    | ok tree =>
      exact ⟨removeFile_wellFormed formed.tree removed, removeFile_directory removed formed.current⟩

/-- A run leaves a disk well-formed. -/
theorem run_wellFormed (schedule : Pool.Schedule) (root : Path) (config : Config) (mode : RunMode)
    {before : Disk} (formed : before.WellFormed) :
    (final (run schedule root config mode : Step OnDisk RunReport).run before).WellFormed :=
  run_keeps keepsFormed_keptByOperations schedule root config mode before formed

/-- Paths start at the same place on both disks. -/
def SameStart (before after : Disk) : Prop := after.current = before.current

instance : IsPreorder Disk SameStart where
  refl _ := rfl
  trans _ _ _ first second := second.trans first

/-- No operation changes where paths start. -/
theorem sameStart_keptByOperations : KeptByOperations (fun _ => true) SameStart where
  reads reads := reads.current
  makeDirectories path _ disk := (makeDirectories_writes path disk).current
  writeText path text _ disk := (writeText_writes path text disk).current
  removeFile path _ disk := (removeFile_removes path disk).current

/-- A run does not change where paths start. -/
theorem run_current (schedule : Pool.Schedule) (root : Path) (config : Config) (mode : RunMode)
    (before : Disk) :
    (final (run schedule root config mode : Step OnDisk RunReport).run before).current =
      before.current :=
  run_keeps sameStart_keptByOperations schedule root config mode before

end Run

end PhysicsPrefab
