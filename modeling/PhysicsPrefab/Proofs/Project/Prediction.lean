import PhysicsPrefab.Proofs.Emit.Builtin
import PhysicsPrefab.Proofs.Project.Artifacts
import PhysicsPrefab.Proofs.Project.Removing

/-!
# What a check predicts

A check and a run that writes make the same plan (`plan_sameAt`), and only writing can then fail, or
removing a source that the system does not let the program remove (`conclude_write`). So a check
tells beforehand what a run does, whatever the schedules of both (`check_predicts_write`).
-/

namespace PhysicsPrefab

/-- A disk with a well-formed tree, on which relative paths start at a directory. -/
structure Disk.WellFormed (disk : Disk) : Prop where
  /-- The tree is well-formed. -/
  tree : disk.tree.WellFormed
  /-- Relative paths start at a directory. -/
  current : disk.tree.kind? disk.current = some true

/-- The same disk, if the system lets the program remove every file. -/
def Disk.unlocked (disk : Disk) : Disk := { disk with locked := [] }

/-- The text of a source whose geometry has one body. -/
def barrelText (geometry : String) : String :=
  "\x7b\"minecraft:geometry\":[\x7b\"description\":\x7b\"identifier\":\"" ++ geometry ++
    "\"\x7d,\"bones\":[\x7b\"name\":\"b\",\"parent\":\"Objects\"\x7d]\x7d]\x7d"

/-- A source whose geometry has one body. -/
def barrelSource : FileTree := .file (barrelText "g").toUTF8

/-- A project with one source and a directory for its artifacts. -/
def barrelDisk : Disk :=
  .ofTree (.directory [("m", .directory [("a.json", barrelSource)]), ("o", .directory [])]) []

/-- The settings of the project. -/
def barrelConfig : Config :=
  { Config.default with sourceDirectory := ⟨"m"⟩, layout := ⟨⟨"o"⟩, ⟨"o"⟩, ⟨"o"⟩, ⟨"o"⟩⟩ }

/-- The project is well-formed. -/
theorem barrelDisk_wellFormed : barrelDisk.WellFormed := by
  refine ⟨.directory (by decide) (by decide) ?_, rfl⟩
  refine List.forall_mem_cons.2 ⟨?_, List.forall_mem_singleton.2 ?_⟩
  · exact .directory (by decide) (by decide) (List.forall_mem_singleton.2 (.file _))
  · exact .directory List.nodup_nil (List.forall_mem_nil _) (List.forall_mem_nil _)

namespace Run

open Disk Program FileTree

variable (schedule : Pool.Schedule) (root : Path) (config : Config) {before : Disk}

/-- What a run does after it has written. -/
def settle (plan : Plan) (written : List Path) : Step OnDisk RunReport := do
  let report := plan.report root
  let deleted ← removePlanned config.keepSources report.compiled written
  note .info s!"compiled {report.prefabs.length} prefab(s) from {report.compiled.length} source(s): wrote {written.length} file(s), deleted {deleted.length}"
  return { report with written, deleted }

/-- What a run does after it has made a plan. -/
def conclude (mode : RunMode) (plan : Plan) : Step OnDisk RunReport :=
  match mode with
  | .check => do
    let report := plan.report root
    note .info s!"checked {report.prefabs.length} prefab(s) from {report.compiled.length} source(s), {report.artifacts.length} artifact(s) would be written"
    return report
  | .write => writePlan schedule root config.layout plan >>= settle root config plan

/-- How the workers of a run take turns: those that read the sources, and those that write. -/
structure Turns where
  /-- The workers that read and their turns. -/
  reading : Pool.Schedule
  /-- The workers that write and their turns. -/
  writing : Pool.Schedule

/-- A run whose workers take turns in some way. -/
def runIn (turns : Turns) (mode : RunMode) : Step OnDisk RunReport := do
  let directory := root.join config.sourceDirectory
  if !(← ExceptT.lift (Storage.isDirectory directory)) then
    note .warn s!"source directory {directory.shown} does not exist, nothing to compile"
    return .empty
  conclude turns.writing root config mode (← Run.plan turns.reading root config directory)

/-- A run has one schedule for all of its workers. -/
theorem run_eq_runIn (mode : RunMode) :
    run schedule root config mode = runIn root config ⟨schedule, schedule⟩ mode := by
  cases mode <;> rfl

section

variable {root config} (turns : Turns) (mode : RunMode)

/-- A run without a source directory does nothing. -/
theorem runIn_without_sources
    (absent : before.tree.isDirectoryAt before.current (root.join config.sourceDirectory) = false) :
    value (runIn root config turns mode).run before = .ok .empty ∧
      (final (runIn root config turns mode).run before).tree = before.tree := by
  have looked : value (Storage.isDirectory (root.join config.sourceDirectory) : OnDisk Bool) before =
      false := absent
  rw [runIn, (run_lift_bind before _ _).1, (run_lift_bind before _ _).2, looked]
  exact ⟨rfl, rfl⟩

variable
  (isThere : before.tree.isDirectoryAt before.current (root.join config.sourceDirectory) = true)

include isThere

/-- A run makes a plan and concludes. -/
theorem runIn_eq :
    let whole : Step OnDisk RunReport := do
      conclude turns.writing root config mode
        (← Run.plan turns.reading root config (root.join config.sourceDirectory))
    value (runIn root config turns mode).run before = value whole.run before ∧
      final (runIn root config turns mode).run before = final whole.run before := by
  have looked : value (Storage.isDirectory (root.join config.sourceDirectory) : OnDisk Bool) before =
      true := isThere
  rw [runIn, (run_lift_bind before _ _).1, (run_lift_bind before _ _).2, looked]
  exact ⟨rfl, rfl⟩

/-- A run that cannot make a plan does nothing else. -/
theorem runIn_of_plan_error {error : RunError}
    (failed : value (Run.plan turns.reading root config (root.join config.sourceDirectory) :
      Step OnDisk Plan).run before = .error error) :
    value (runIn root config turns mode).run before = .error error ∧
      final (runIn root config turns mode).run before =
        final (Run.plan turns.reading root config (root.join config.sourceDirectory) :
          Step OnDisk Plan).run before := by
  rw [(runIn_eq turns mode isThere).1, (runIn_eq turns mode isThere).2]
  exact run_bind_error _ (conclude turns.writing root config mode) before failed

/-- A run that has made a plan goes on to conclude. -/
theorem runIn_of_plan {plan : Plan}
    (planned : value (Run.plan turns.reading root config (root.join config.sourceDirectory) :
      Step OnDisk Plan).run before = .ok plan) :
    value (runIn root config turns mode).run before =
        value (conclude turns.writing root config mode plan).run
          (final (Run.plan turns.reading root config (root.join config.sourceDirectory) :
            Step OnDisk Plan).run before) ∧
      final (runIn root config turns mode).run before =
        final (conclude turns.writing root config mode plan).run
          (final (Run.plan turns.reading root config (root.join config.sourceDirectory) :
            Step OnDisk Plan).run before) := by
  rw [(runIn_eq turns mode isThere).1, (runIn_eq turns mode isThere).2]
  exact run_bind_ok _ (conclude turns.writing root config mode) before planned

omit isThere in
/-- With one schedule for all of its workers a run without a source directory does nothing. -/
theorem run_without_sources
    (absent : before.tree.isDirectoryAt before.current (root.join config.sourceDirectory) = false) :
    value (run schedule root config mode : Step OnDisk RunReport).run before = .ok .empty ∧
      (final (run schedule root config mode : Step OnDisk RunReport).run before).tree =
        before.tree := by
  rw [run_eq_runIn]
  exact runIn_without_sources ⟨schedule, schedule⟩ mode absent

/-- With one schedule for all of its workers a run that cannot make a plan does nothing else. -/
theorem run_of_plan_error {error : RunError}
    (failed : value (Run.plan schedule root config (root.join config.sourceDirectory) :
      Step OnDisk Plan).run before = .error error) :
    value (run schedule root config mode : Step OnDisk RunReport).run before = .error error ∧
      final (run schedule root config mode : Step OnDisk RunReport).run before =
        final (Run.plan schedule root config (root.join config.sourceDirectory) :
          Step OnDisk Plan).run before := by
  rw [run_eq_runIn]
  exact runIn_of_plan_error ⟨schedule, schedule⟩ mode isThere failed

/-- With one schedule for all of its workers a run that has made a plan goes on to conclude. -/
theorem run_of_plan {plan : Plan}
    (planned : value (Run.plan schedule root config (root.join config.sourceDirectory) :
      Step OnDisk Plan).run before = .ok plan) :
    value (run schedule root config mode : Step OnDisk RunReport).run before =
        value (conclude schedule root config mode plan).run
          (final (Run.plan schedule root config (root.join config.sourceDirectory) :
            Step OnDisk Plan).run before) ∧
      final (run schedule root config mode : Step OnDisk RunReport).run before =
        final (conclude schedule root config mode plan).run
          (final (Run.plan schedule root config (root.join config.sourceDirectory) :
            Step OnDisk Plan).run before) := by
  rw [run_eq_runIn]
  exact runIn_of_plan ⟨schedule, schedule⟩ mode isThere planned

end

/-- After writing, a run removes the compiled sources that are no outputs, and reports if none of
them is locked. -/
theorem settle_spec {disk : Disk} {plan : Plan} {written : List Path}
    (plain : ∀ name ∈ disk.current, IsPlainName name)
    (files : DifferentFiles disk plan.compiled.sources)
    (outputs : ∀ path ∈ written, disk.tree.isFileAt disk.current path = true) :
    ∃ outcome, value (settle root config plan written).run disk =
        outcome.map (fun deleted => { plan.report root with written, deleted }) ∧
      Removal disk (final (settle root config plan written).run disk)
        (unwanted config.keepSources disk plan.compiled.sources written) outcome := by
  have removal := removePlanned_spec config.keepSources plain files outputs
  let removing : Step OnDisk (List Path) :=
    removePlanned config.keepSources (plan.report root).compiled written
  change Removal disk (final removing.run disk) _ (value removing.run disk) at removal
  rw [settle]
  refine ⟨value removing.run disk, ?_⟩
  cases outcome : value removing.run disk with
  | error error =>
    obtain ⟨isError, stays⟩ := run_bind_error removing _ disk outcome
    rw [outcome] at removal
    exact ⟨isError, stays ▸ removal⟩
  | ok deleted =>
    obtain ⟨isValue, leads⟩ := run_bind_ok removing _ disk outcome
    rw [outcome] at removal
    refine ⟨isValue, ?_⟩
    rw [leads]
    exact removal.later (Disk.tell_silent _ _)

/-- What a run has done with a plan: first it has written, then removed. -/
structure Concluded (plan : Plan) (before written after : Disk) (deleted : List Path) : Prop where
  /-- The tree has grown at first. -/
  grows : before.tree.Grows written.tree
  /-- Paths start at the same place. -/
  current : written.current = before.current
  /-- All artifacts have been stored one after the other, the index last. -/
  stored : written.tree.contents? =
    overlay ((plan.artifacts.flatten ++ [plan.index]).map (fileOf root written))
      before.tree.contents?
  /-- All artifacts are there. -/
  isFile : ∀ path ∈ (plan.report root).artifacts, written.tree.isFileAt written.current path = true
  /-- Then files have been removed. -/
  removed : Removed written after deleted
  /-- They are the compiled sources that are not overwritten, unless sources are to be kept. -/
  deleted : deleted = if config.keepSources then [] else plan.compiled.sources.filter fun source =>
    written.tree.place? written.current source ∉
      (plan.report root).artifacts.map (written.tree.place? written.current)

/-- A run that removes its sources fails at a compiled source that is locked. -/
def RemovalDenied (config : Config) (before : Disk) (report : RunReport) (error : RunError) : Prop :=
  config.keepSources = false ∧
    ∃ source ∈ report.compiled, IsLocked before source ∧ error = .storage source .denied

/-- What holds once all artifacts of a plan have been written. -/
structure AllWritten (plan : Plan) (before written : Disk) : Prop where
  /-- The tree has grown. -/
  grows : before.tree.Grows written.tree
  /-- Paths start at the same place. -/
  current : written.current = before.current
  /-- The same files cannot be removed. -/
  locked : written.locked = before.locked
  /-- The artifacts have been stored one after the other, the index last. -/
  stored : written.tree.contents? =
    overlay ((plan.artifacts.flatten ++ [plan.index]).map (fileOf root written))
      before.tree.contents?
  /-- All of them are there. -/
  isFile : ∀ path ∈ (plan.report root).artifacts, written.tree.isFileAt written.current path = true

section

variable {planned : Disk} {sources : List Path} {models : List (Model Float)}
  {templates : Templates} {plan : Plan} {directory : Path}

/-- A plan that was made and written without failure is all written. -/
theorem allWritten_of_writePlan (formed : before.WellFormed) (reads : Reads before planned)
    (prepared : Prepared root config directory before planned sources models templates plan)
    (outcome : value (writePlan schedule root config.layout plan : Step OnDisk (List Path)).run
      planned = .ok (plan.report root).artifacts) :
    AllWritten root plan before
      (final (writePlan schedule root config.layout plan : Step OnDisk (List Path)).run planned) := by
  have writes := (writePlan_obeys schedule root config.layout plan).keeps planned
  have here : planned.tree.kind? planned.current = some true := by
    rw [reads.tree, reads.current]
    exact formed.current
  constructor
  case grows => exact reads.tree ▸ writes.tree
  case current => exact writes.current.trans reads.current
  case locked => exact writes.locked.trans reads.locked
  case stored =>
    rw [← reads.tree]
    exact contents_of_writePlan prepared.stamped here outcome rfl
  case isFile =>
    intro path member
    obtain ⟨artifact, isArtifact, rfl⟩ := List.mem_map.1 member
    exact (writePlan_written schedule root outcome artifact isArtifact).isFile

/-- After all artifacts of a plan have been written, everything else is done, unless a source that
is to be removed is locked. -/
theorem conclude_of_written (formed : before.WellFormed) (reads : Reads before planned)
    (prepared : Prepared root config directory before planned sources models templates plan)
    {paths : List Path}
    (outcome : value (writePlan schedule root config.layout plan : Step OnDisk (List Path)).run
      planned = .ok paths) :
    let written :=
      final (writePlan schedule root config.layout plan : Step OnDisk (List Path)).run planned
    (∃ error, value (conclude schedule root config .write plan).run planned = .error error ∧
      RemovalDenied config before (plan.report root) error) ∨
    ∃ deleted,
      value (conclude schedule root config .write plan).run planned =
        .ok { plan.report root with written := (plan.report root).artifacts, deleted } ∧
      Concluded root config plan before written
        (final (conclude schedule root config .write plan).run planned) deleted := by
  intro written
  obtain rfl := paths_of_writePlan schedule root outcome
  change value _ planned = Except.ok (plan.report root).artifacts at outcome
  have done : AllWritten root plan before written :=
    allWritten_of_writePlan schedule root config formed reads prepared outcome
  have plain : ∀ name ∈ written.current, IsPlainName name := by
    rw [done.current]
    exact formed.tree.plain (by rw [formed.current]; rfl)
  have found := (prepared.differentFiles formed.tree).sublist prepared.compiled_sublist
  obtain ⟨files, places⟩ := found.later done.grows done.current
  obtain ⟨result, settled, removal⟩ := settle_spec root config plain files done.isFile
  have whole := run_bind_ok (writePlan schedule root config.layout plan)
    (settle root config plan) planned outcome
  rw [← whole.2] at removal
  have isValue := whole.1.trans settled
  generalize toRemove : unwanted config.keepSources written plan.compiled.sources
    (plan.report root).artifacts = unwantedSources at removal
  cases removal with
  | all free removed =>
    exact .inr ⟨_, isValue, ⟨done.grows, done.current, done.stored, done.isFile, removed,
      toRemove.symm⟩⟩
  | denied free isLocked removed =>
    obtain ⟨removes, compiled⟩ :=
      mem_unwanted (toRemove ▸ List.mem_append_right _ List.mem_cons_self)
    have wasLocked := (isLocked_congr done.locked (places _ compiled)).1 isLocked
    exact .inl ⟨_, isValue, removes, _, compiled, wasLocked, rfl⟩

end

/-- After a plan has been made, either something could not be written or removed, or everything is
done. -/
theorem conclude_write {planned : Disk} {sources : List Path} {models : List (Model Float)}
    {templates : Templates} {plan : Plan} {directory : Path} (formed : before.WellFormed)
    (reads : Reads before planned)
    (prepared : Prepared root config directory before planned sources models templates plan) :
    (∃ error, value (conclude schedule root config .write plan).run planned = .error error ∧
        WritingFailed error) ∨
      (∃ error, value (conclude schedule root config .write plan).run planned = .error error ∧
        RemovalDenied config before (plan.report root) error) ∨
      ∃ written deleted,
        value (conclude schedule root config .write plan).run planned =
          .ok { plan.report root with written := (plan.report root).artifacts, deleted } ∧
        Concluded root config plan before written
          (final (conclude schedule root config .write plan).run planned) deleted := by
  cases outcome : value (writePlan schedule root config.layout plan :
      Step OnDisk (List Path)).run planned with
  | error error =>
    exact .inl ⟨error, (run_bind_error _ _ planned outcome).1,
      (writePlan_obeys schedule root config.layout plan).blamed planned error outcome⟩
  | ok paths =>
    exact .inr ((conclude_of_written schedule root config formed reads prepared outcome).imp_right
      fun done => ⟨_, done⟩)

/-- A run that succeeds where there are sources has made a plan and concluded it. -/
theorem exists_planned {mode : RunMode}
    (isThere : before.tree.isDirectoryAt before.current (root.join config.sourceDirectory) = true)
    {report : RunReport}
    (succeeded : value (run schedule root config mode : Step OnDisk RunReport).run before =
      .ok report) :
    ∃ plan planned sources models templates,
      value (Run.plan schedule root config (root.join config.sourceDirectory) :
        Step OnDisk Plan).run before = .ok plan ∧
      Reads before planned ∧
      Prepared root config (root.join config.sourceDirectory) before planned sources models
        templates plan ∧
      value (conclude schedule root config mode plan).run planned = .ok report ∧
      final (run schedule root config mode : Step OnDisk RunReport).run before =
        final (conclude schedule root config mode plan).run planned := by
  cases isPlan : value (Run.plan schedule root config (root.join config.sourceDirectory) :
      Step OnDisk Plan).run before with
  | error error =>
    rw [(run_of_plan_error schedule mode isThere isPlan).1] at succeeded
    contradiction
  | ok plan =>
    obtain ⟨sources, models, templates, prepared⟩ := plan_prepared schedule root config _ isPlan
    obtain ⟨isValue, isFinal⟩ := run_of_plan schedule mode isThere isPlan
    exact ⟨plan, _, sources, models, templates, rfl, (plan_isReader schedule root config _).reads before,
      prepared, isValue.symm.trans succeeded, isFinal⟩

/-- What a check tells about a run that writes, on the same disk, if nothing else than the given
failures can come in between. -/
structure Predicts (checking writing : Pool.Schedule) (root : Path) (config : Config)
    (before : Disk) (unforeseen : RunReport → RunError → Prop) : Prop where
  /-- The check leaves the tree as it is. -/
  unchanged : (final (run checking root config .check : Step OnDisk RunReport).run before).tree =
    before.tree
  /-- If the check fails, the run fails for the same reason and leaves the tree as it is. -/
  failed : ∀ error,
    value (run checking root config .check : Step OnDisk RunReport).run before = .error error →
      value (run writing root config .write : Step OnDisk RunReport).run before = .error error ∧
      (final (run writing root config .write : Step OnDisk RunReport).run before).tree = before.tree
  /-- If the check succeeds, the run has an unforeseen failure or does what the check says, and all
  artifacts are written in their order. -/
  succeeded : ∀ report,
    value (run checking root config .check : Step OnDisk RunReport).run before = .ok report →
      (∃ error, value (run writing root config .write : Step OnDisk RunReport).run before =
        .error error ∧ unforeseen report error) ∨
      ∃ deleted, value (run writing root config .write : Step OnDisk RunReport).run before =
        .ok { report with written := report.artifacts, deleted }

namespace Predicts

variable {checking writing : Pool.Schedule} {root config}
  {unforeseen others : RunReport → RunError → Prop}

/-- More failures may be left unforeseen. -/
theorem imp (predicts : Predicts checking writing root config before unforeseen)
    (implies : ∀ report error, unforeseen report error → others report error) :
    Predicts checking writing root config before others where
  unchanged := predicts.unchanged
  failed := predicts.failed
  succeeded := by
    intro report succeeded
    refine (predicts.succeeded report succeeded).imp_left ?_
    rintro ⟨error, failed, isUnforeseen⟩
    exact ⟨error, failed, implies report error isUnforeseen⟩

/-- A check that fails predicts a run that fails for the same reason, if both leave the tree as it
is. -/
theorem of_error {error : RunError}
    (checked : value (run checking root config .check : Step OnDisk RunReport).run before =
      .error error)
    (unchanged : (final (run checking root config .check : Step OnDisk RunReport).run before).tree =
      before.tree)
    (written : value (run writing root config .write : Step OnDisk RunReport).run before =
      .error error)
    (untouched : (final (run writing root config .write : Step OnDisk RunReport).run before).tree =
      before.tree) : Predicts checking writing root config before unforeseen where
  unchanged := unchanged
  failed := by
    intro other failed
    obtain rfl := Except.error.inj (checked.symm.trans failed)
    exact ⟨written, untouched⟩
  succeeded := by
    intro report succeeded
    rw [checked] at succeeded
    contradiction

/-- A check that succeeds and leaves the tree as it is predicts a run that has an unforeseen failure
or does what the check says. -/
theorem of_report {report : RunReport}
    (checked : value (run checking root config .check : Step OnDisk RunReport).run before =
      .ok report)
    (unchanged : (final (run checking root config .check : Step OnDisk RunReport).run before).tree =
      before.tree)
    (written : (∃ error,
        value (run writing root config .write : Step OnDisk RunReport).run before = .error error ∧
          unforeseen report error) ∨
      ∃ deleted, value (run writing root config .write : Step OnDisk RunReport).run before =
        .ok { report with written := report.artifacts, deleted }) :
    Predicts checking writing root config before unforeseen where
  unchanged := unchanged
  failed := by
    intro error failed
    rw [checked] at failed
    contradiction
  succeeded := by
    intro other succeeded
    obtain rfl := Except.ok.inj (checked.symm.trans succeeded)
    exact written

end Predicts

/-- A check predicts a run that writes but for what cannot be written, and for sources that are
locked. -/
theorem predicts_unlessDenied (checking writing : Pool.Schedule) (root : Path) (config : Config)
    (formed : before.WellFormed) :
    Predicts checking writing root config before fun report error =>
      WritingFailed error ∨ RemovalDenied config before report error := by
  cases isThere : before.tree.isDirectoryAt before.current (root.join config.sourceDirectory) with
  | false =>
    obtain ⟨checked, unchanged⟩ := run_without_sources checking .check isThere
    obtain ⟨written, -⟩ := run_without_sources writing .write isThere
    exact .of_report checked unchanged (.inr ⟨[], written⟩)
  | true =>
    have same := plan_sameAt checking writing root config (root.join config.sourceDirectory)
      (refl_of Alike before) formed.tree formed.tree
    have checkReads := (plan_isReader checking root config
      (root.join config.sourceDirectory)).reads before
    have writeReads := (plan_isReader writing root config
      (root.join config.sourceDirectory)).reads before
    cases outcome : value (Run.plan checking root config (root.join config.sourceDirectory) :
        Step OnDisk Plan).run before with
    | error error =>
      obtain ⟨checked, checkLeads⟩ := run_of_plan_error checking .check isThere outcome
      obtain ⟨written, writeLeads⟩ :=
        run_of_plan_error writing .write isThere (same.value.symm.trans outcome)
      exact .of_error checked (checkLeads ▸ checkReads.tree) written (writeLeads ▸ writeReads.tree)
    | ok plan =>
      have planned := same.value.symm.trans outcome
      obtain ⟨checked, checkLeads⟩ := run_of_plan checking .check isThere outcome
      obtain ⟨isValue, -⟩ := run_of_plan writing .write isThere planned
      obtain ⟨sources, models, templates, prepared⟩ := plan_prepared writing root config _ planned
      have unchanged :
          (final (run checking root config .check : Step OnDisk RunReport).run before).tree =
            before.tree := by
        rw [checkLeads]
        exact checkReads.tree
      refine .of_report checked unchanged ?_
      rw [isValue]
      rcases conclude_write writing root config formed writeReads prepared with
        ⟨error, failed, notWritten⟩ | ⟨error, failed, denied⟩ | ⟨_, deleted, done, -⟩
      · exact .inl ⟨error, failed, .inl notWritten⟩
      · exact .inl ⟨error, failed, .inr denied⟩
      · exact .inr ⟨deleted, done⟩

/-- A check predicts a run that writes, for every tree: it tells why the run fails or what it does,
unless something cannot be written. Where the system moreover does not let the program remove some
of the files, a run that removes its sources may also fail at one of these. -/
theorem check_predicts_write (checking writing : Pool.Schedule) (root : Path) (config : Config)
    (formed : before.WellFormed) :
    (Predicts checking writing root config before.unlocked fun _ => WritingFailed) ∧
    Predicts checking writing root config before fun report error =>
      WritingFailed error ∨ RemovalDenied config before report error := by
  refine ⟨?_, predicts_unlessDenied checking writing root config formed⟩
  have free : ∀ path, ¬ IsLocked before.unlocked path := fun path => by
    rintro ⟨location, isLocked, -⟩
    exact absurd isLocked List.not_mem_nil
  have unlockedFormed : before.unlocked.WellFormed := ⟨formed.tree, formed.current⟩
  refine (predicts_unlessDenied checking writing root config unlockedFormed).imp ?_
  intro report error failed
  rcases failed with notWritten | ⟨-, source, -, isLocked, -⟩
  · exact notWritten
  · exact absurd isLocked (free source)

/-- The project with a barrel, whose source the system does not let the program remove. -/
def lockedBarrelDisk : Disk := { barrelDisk with locked := [["m", "a.json"]] }

/-- Whether a run failed because it could not remove a file. -/
def isDenied (source : Path) : Except RunError RunReport → Bool
  | .error (.storage path .denied) => path = source
  | _ => false

/-- The failure of such a run tells which file it was. -/
theorem eq_error_of_isDenied {source : Path} {outcome : Except RunError RunReport}
    (denied : isDenied source outcome = true) : outcome = .error (.storage source .denied) := by
  unfold isDenied at denied
  split at denied
  · rw [of_decide_eq_true denied]
  · contradiction

/-- A check of the locked project succeeds, and a run on it fails at the source. -/
theorem lockedBarrelDisk_denied : ∃ report error,
    value (run .sequential ⟨""⟩ barrelConfig .check : Step OnDisk RunReport).run
      lockedBarrelDisk = .ok report ∧
    value (run .sequential ⟨""⟩ barrelConfig .write : Step OnDisk RunReport).run
      lockedBarrelDisk = .error error ∧
    RemovalDenied barrelConfig lockedBarrelDisk report error := by
  have checks : (value (run .sequential ⟨""⟩ barrelConfig .check :
      Step OnDisk RunReport).run lockedBarrelDisk).toOption.any
        (fun report => report.compiled == [⟨"m/a.json"⟩]) = true := by
    unfold run Run.plan Templates.load
    rw [Templates.builtin_eq]
    decide +kernel
  have fails : isDenied ⟨"m/a.json"⟩ (value (run .sequential ⟨""⟩ barrelConfig .write :
      Step OnDisk RunReport).run lockedBarrelDisk) = true := by
    unfold run Run.plan Templates.load
    rw [Templates.builtin_eq]
    decide +kernel
  obtain ⟨report, checked, compiled⟩ := Answer.exists_of_any checks
  have isCompiled : ⟨"m/a.json"⟩ ∈ report.compiled := by
    rw [beq_iff_eq.1 compiled]
    exact List.mem_cons_self
  have isLocked : IsLocked lockedBarrelDisk ⟨"m/a.json"⟩ :=
    ⟨["m", "a.json"], List.mem_cons_self, by decide⟩
  exact ⟨report, _, checked, eq_error_of_isDenied fails, rfl, _, isCompiled, isLocked, rfl⟩

/-- What a run on the locked project does is predicted, but for its failure at the source. -/
theorem check_predicts_write_barrel : lockedBarrelDisk.WellFormed ∧
    ((Predicts .sequential .sequential ⟨""⟩ barrelConfig lockedBarrelDisk.unlocked
      fun _ => WritingFailed) ∧
    Predicts .sequential .sequential ⟨""⟩ barrelConfig lockedBarrelDisk fun report error =>
      WritingFailed error ∨ RemovalDenied barrelConfig lockedBarrelDisk report error) ∧
    ∃ report error,
      value (run .sequential ⟨""⟩ barrelConfig .check : Step OnDisk RunReport).run
        lockedBarrelDisk = .ok report ∧
      value (run .sequential ⟨""⟩ barrelConfig .write : Step OnDisk RunReport).run
        lockedBarrelDisk = .error error ∧
      RemovalDenied barrelConfig lockedBarrelDisk report error := by
  have formed : lockedBarrelDisk.WellFormed := ⟨barrelDisk_wellFormed.tree, rfl⟩
  exact ⟨formed, check_predicts_write .sequential .sequential ⟨""⟩ barrelConfig formed,
    lockedBarrelDisk_denied⟩

/-- On the locked project something else comes between a check and a run than a failure in
writing. -/
theorem lockedBarrelDisk_unpredicted : ¬ Predicts .sequential .sequential ⟨""⟩ barrelConfig
    lockedBarrelDisk fun _ => WritingFailed := by
  intro predicts
  obtain ⟨report, error, checked, failed, -, source, -, -, isDenied⟩ := lockedBarrelDisk_denied
  rcases predicts.succeeded report checked with ⟨other, alsoFailed, notWritten⟩ | ⟨deleted, done⟩
  · have same : error = other := Except.error.inj (failed.symm.trans alsoFailed)
    obtain ⟨cause, -, isEmit⟩ := notWritten
    rw [isDenied, isEmit] at same
    nomatch same
  · nomatch failed.symm.trans done

end Run

end PhysicsPrefab
