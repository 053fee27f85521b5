import PhysicsPrefab.Proofs.Emit.Confinement
import PhysicsPrefab.Proofs.Project.Preserving

/-!
# Runs stay in the directories for artifacts

Whatever its sources hold, a run writes no file outside the directories for artifacts, and makes no
directories but these and those above the files (`Run.run_confined`): the artifacts of a plan are
below these directories, and nothing else is written.
-/

namespace PhysicsPrefab

open Disk Program
open FileTree (pathBelow_join components_pathBelow)

/-- A path leads from a directory down through plain names, at least one. -/
def Path.IsBelow (path directory : Path) : Prop :=
  ∃ names : Location, names ≠ [] ∧ (∀ name ∈ names, IsPlainName name) ∧
    path.components = directory.components ++ names.map .name

/-- A disk on which an effect happened has it in its history, whatever came of it. -/
theorem Disk.history_update (disk : Disk) (effect : FileEffect)
    (outcome : Except StorageFault FileTree) :
    ((disk.note effect).update outcome).2.history = disk.history ++ [effect] := by
  cases outcome <;> exact disk.history_note effect

namespace Run

variable {root : Path} {layout : OutputLayout} {plan : Plan}

/-- A file is below one of the directories for artifacts. -/
def IsInside (root : Path) (layout : OutputLayout) (file : Path) : Prop :=
  ∃ directory ∈ layout.directories, file.IsBelow (root.join directory)

/-- An effect makes nothing outside the directories for artifacts: it writes a file below one of
them, or makes one of them or the directory of a file below it. -/
def StaysInside (root : Path) (layout : OutputLayout) : FileEffect → Prop
  | .write file => IsInside root layout file
  | .makeDirectories path => path ∈ layout.directories.map root.join ∨
      ∃ file, IsInside root layout file ∧ file.parent? = some path
  | .read _ | .list _ | .remove _ => True

/-- An output is below its directory. -/
theorem IsOutputOf.isInside {id : String} {artifact : Artifact} {output : Output}
    (isOutput : IsOutputOf layout id artifact output) :
    IsInside root layout (root.join artifact.path) := by
  refine ⟨output.directory, isOutput.directory, output.name.names, ?_, isOutput.plain, ?_⟩
  · cases output.name <;> exact List.cons_ne_nil _ _
  · rw [isOutput.path_eq, Output.path, ← pathBelow_join _ _ isOutput.plain,
      components_pathBelow _ isOutput.plain]

/-- All artifacts of a plan are below the directories for artifacts. -/
theorem Stamped.isInside (stamped : Stamped layout plan) :
    ∀ file ∈ (plan.report root).artifacts, IsInside root layout file := by
  intro file member
  obtain ⟨artifact, isPlanned, rfl⟩ := List.mem_map.1 member
  obtain ⟨id, output, isOutput⟩ := stamped.exists_of_mem artifact isPlanned
  exact isOutput.isInside

/-- What a plan allows makes nothing outside the directories for artifacts. -/
theorem Stamped.staysInside (stamped : Stamped layout plan) {effect : FileEffect}
    (isAllowed : plan.allows root layout effect = true) : StaysInside root layout effect := by
  cases effect with
  | read | list | remove => exact trivial
  | write file => exact stamped.isInside file (of_decide_eq_true isAllowed)
  | makeDirectories path =>
    rcases List.mem_append.1 (of_decide_eq_true isAllowed) with isDirectory | isAbove
    · exact .inl isDirectory
    · obtain ⟨file, isFile, isParent⟩ := List.mem_filterMap.1 isAbove
      exact .inr ⟨file, stamped.isInside file isFile, isParent⟩

variable {config : Config}

/-- What a run reports after it has made a plan. -/
theorem artifacts_of_conclude {schedule : Pool.Schedule} {mode : RunMode} {disk : Disk}
    {report : RunReport}
    (succeeded : value (conclude schedule root config mode plan : Step OnDisk RunReport).run disk =
      .ok report) :
    report.artifacts = (plan.report root).artifacts ∧
      (report.written = [] ∨ report.written = (plan.report root).artifacts) := by
  cases mode with
  | check =>
    obtain ⟨_, -, succeeded⟩ := exists_of_run_bind_ok _ _ disk succeeded
    obtain rfl := Except.ok.inj succeeded
    exact ⟨rfl, .inl rfl⟩
  | write =>
    obtain ⟨written, isWritten, succeeded⟩ := exists_of_run_bind_ok _ _ disk succeeded
    obtain ⟨deleted, -, succeeded⟩ := exists_of_run_bind_ok _ _ _ succeeded
    obtain ⟨_, -, succeeded⟩ := exists_of_run_bind_ok _ _ _ succeeded
    obtain rfl := Except.ok.inj succeeded
    exact ⟨rfl, .inr (paths_of_writePlan schedule root isWritten)⟩

/-- A run from one disk to another has made nothing outside the directories for artifacts, and tells
of nothing outside them. -/
structure Confined (root : Path) (layout : OutputLayout) (before after : Disk)
    (outcome : Except RunError RunReport) : Prop where
  /-- Everything that happened stays inside. -/
  effects : ∃ effects, after.history = before.history ++ effects ∧
    ∀ effect ∈ effects, StaysInside root layout effect
  /-- All artifacts that are told of are inside, written or not. -/
  reported : ∀ report, outcome = .ok report →
    ∀ file ∈ report.artifacts ++ report.written, IsInside root layout file

/-- From one disk to another nothing has been made outside the directories for artifacts. -/
def MakesInside (root : Path) (layout : OutputLayout) (before after : Disk) : Prop :=
  ∃ effects, after.history = before.history ++ effects ∧
    ∀ effect ∈ effects, StaysInside root layout effect

instance : IsPreorder Disk (MakesInside root layout) where
  refl _ := ⟨[], (List.append_nil _).symm, List.forall_mem_nil _⟩
  trans _ _ _ := by
    rintro ⟨earlier, toSecond, earlierInside⟩ ⟨later, toThird, laterInside⟩
    exact ⟨earlier ++ later, by rw [toThird, toSecond, List.append_assoc],
      List.forall_mem_append.2 ⟨earlierInside, laterInside⟩⟩

/-- Nothing but reading makes nothing. -/
theorem makesInside_of_reads {before after : Disk} (reads : Reads before after) :
    MakesInside root layout before after := by
  obtain ⟨effects, same, areRead⟩ := reads.happens
  refine ⟨effects, same, fun effect member => ?_⟩
  have isRead := areRead effect member
  cases effect with
  | read | list | remove => exact trivial
  | write | makeDirectories => contradiction

/-- The operations that a plan allows make nothing outside the directories for artifacts. -/
theorem Stamped.keptByOperations (stamped : Stamped layout plan) :
    KeptByOperations (plan.allows root layout) (MakesInside root layout) := by
  have one {before after : Disk} {effect : FileEffect} (isAllowed : plan.allows root layout effect)
      (same : after.history = before.history ++ [effect]) : MakesInside root layout before after :=
    ⟨[effect], same, List.forall_mem_singleton.2 (stamped.staysInside isAllowed)⟩
  constructor
  case reads => exact makesInside_of_reads
  case makeDirectories => exact fun path isAllowed disk => one isAllowed (disk.history_note _)
  case writeText => exact fun path text isAllowed disk => one isAllowed (history_update disk _ _)
  case removeFile => exact fun path isAllowed disk => one isAllowed (history_update disk _ _)

/-- A run makes nothing outside the directories for artifacts, however it ends. -/
theorem run_confined (schedule : Pool.Schedule) (root : Path) (config : Config) (mode : RunMode)
    (before : Disk) :
    Confined root config.layout before
      (final (run schedule root config mode : Step OnDisk RunReport).run before)
      (value (run schedule root config mode : Step OnDisk RunReport).run before) := by
  constructor
  case effects =>
    refine run_keeps_of_plan schedule root config mode makesInside_of_reads fun plan isPlan => ?_
    obtain ⟨sources, models, templates, prepared⟩ := plan_prepared schedule root config _ isPlan
    exact prepared.stamped.keptByOperations
  case reported =>
    intro report succeeded file member
    cases isThere : before.tree.isDirectoryAt before.current (root.join config.sourceDirectory) with
    | false =>
      rw [(run_without_sources schedule mode isThere).1] at succeeded
      obtain rfl := Except.ok.inj succeeded
      contradiction
    | true =>
      obtain ⟨plan, planned, sources, models, templates, -, -, prepared, concluded, -⟩ :=
        exists_planned schedule root config isThere succeeded
      refine prepared.stamped.isInside file ?_
      obtain ⟨artifacts, none | all⟩ := artifacts_of_conclude concluded
      · rwa [none, List.append_nil, artifacts] at member
      · rw [all, artifacts] at member
        exact (List.mem_append.1 member).elim id id

/-- An emitter whose model template has a bone for cubes refuses nothing but unsafe ids and has the
artifacts of all other prefabs at fixed places, and no run makes anything outside the directories
for artifacts. -/
theorem outputs_confined {emitter : Emitter}
    (hasBone : emitter.templates.geometry.HasTemplateBone) (prefab : Prefab)
    (schedule : Pool.Schedule) (root : Path) (config : Config) (mode : RunMode) (before : Disk) :
    emitter.Confines prefab ∧ Confined root config.layout before
      (final (run schedule root config mode : Step OnDisk RunReport).run before)
      (value (run schedule root config mode : Step OnDisk RunReport).run before) :=
  ⟨Emitter.prefabArtifacts_confines hasBone prefab, run_confined schedule root config mode before⟩

/-- The outputs of a door and of the project with a barrel are confined. -/
theorem outputs_confined_door :
    Emitter.bareEmitter.templates.geometry.HasTemplateBone ∧
      Emitter.bareEmitter.Confines Emitter.door ∧
      Confined ⟨""⟩ barrelConfig.layout barrelDisk
        (final (run .sequential ⟨""⟩ barrelConfig .write : Step OnDisk RunReport).run barrelDisk)
        (value (run .sequential ⟨""⟩ barrelConfig .write : Step OnDisk RunReport).run barrelDisk) := by
  have hasBone : Emitter.bareEmitter.templates.geometry.HasTemplateBone :=
    ⟨_, rfl, _, List.mem_singleton_self _, rfl⟩
  exact ⟨hasBone, outputs_confined hasBone Emitter.door .sequential ⟨""⟩ barrelConfig .write barrelDisk⟩

end Run

end PhysicsPrefab
