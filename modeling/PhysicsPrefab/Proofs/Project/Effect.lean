import PhysicsPrefab.Proofs.Emit.Builtin
import PhysicsPrefab.Proofs.Project.Prediction

/-!
# The effect of a run

A run that writes and succeeds stores its artifacts, removes the compiled sources that it has not
written over, unless they are to be kept, and leaves all other files as they are (`run_effect`).
Files are told apart by their places, so it does not matter how their paths are written.
-/

namespace PhysicsPrefab.Run

open Disk Program FileTree

/-- What a run that has written has done to the files of a project. -/
structure Effect (root : Path) (config : Config) (before after : Disk) (sources : List Path)
    (models : List (Model Float)) (plan : Plan) (report : RunReport) : Prop where
  /-- The sources are those that were found. -/
  found : value (Sources.discover (root.join config.sourceDirectory) : OnDisk _) before = .ok sources
  /-- Each was read. -/
  loaded : List.Forall₂ (fun path model =>
    value (loadSource path) before = .ok model) sources models
  /-- Those with a part in the physics were compiled, in order. -/
  compiled : report.compiled = ((sources.zip models).filter takesPart).map (·.1)
  /-- The others were ignored, in order. -/
  ignored : report.ignored = ((sources.zip models).filter fun entry => !takesPart entry).map (·.1)
  /-- The artifacts are those of the plan, the index last. -/
  artifacts : report.artifacts =
    (plan.artifacts.flatten ++ [plan.index]).map fun artifact => root.join artifact.path
  /-- All artifacts were written. -/
  written : report.written = report.artifacts
  /-- Each artifact is in the place of its path, unless a later one has the same place. -/
  stored : ∀ earlier artifact later,
    plan.artifacts.flatten ++ [plan.index] = earlier ++ artifact :: later → ∃ location,
      after.tree.place? after.current (root.join artifact.path) = some location ∧
      ((∀ other ∈ later,
          after.tree.place? after.current (root.join other.path) ≠ some location) →
        after.tree.contents? location = some artifact.contents.toUTF8)
  /-- Compiled sources that are in no place of an artifact were deleted, in order, unless sources
  are to be kept. -/
  deleted : report.deleted = if config.keepSources then [] else report.compiled.filter fun source =>
    before.tree.place? before.current source ∉
      report.written.map (after.tree.place? after.current)
  /-- A file is gone if and only if it was a deleted source. -/
  removed : ∀ location, (before.tree.contents? location).isSome = true →
    (after.tree.contents? location = none ↔
      some location ∈ report.deleted.map (before.tree.place? before.current))
  /-- In all other places files are as they were. -/
  unchanged : ∀ location,
    some location ∉ report.written.map (after.tree.place? after.current) →
    some location ∉ report.deleted.map (before.tree.place? before.current) →
      after.tree.contents? location = before.tree.contents? location
  /-- Ignored sources and written files are there. -/
  remain : ∀ path ∈ report.ignored ++ report.written,
    after.tree.isFileAt after.current path = true

variable {root directory : Path} {config : Config} {before planned written after : Disk}
  {sources : List Path} {models : List (Model Float)} {templates : Templates} {plan : Plan}
  {deleted : List Path}

/-- Deleted sources are compiled ones. -/
theorem Concluded.deleted_sublist
    (concluded : Concluded root config plan before written after deleted) :
    deleted.Sublist plan.compiled.sources := by
  rw [concluded.deleted]
  split
  · exact List.nil_sublist _
  · exact List.filter_sublist

section

variable (formed : before.WellFormed)
  (prepared : Prepared root config directory before planned sources models templates plan)
  (concluded : Concluded root config plan before written after deleted)

include formed prepared concluded

/-- Writing leaves the sources in their places. -/
theorem Concluded.sources_stay :
    DifferentFiles written sources ∧ ∀ path ∈ sources,
      written.tree.place? written.current path = before.tree.place? before.current path :=
  (prepared.differentFiles formed.tree).later concluded.grows concluded.current

/-- Writing leaves the deleted sources in their places. -/
theorem Concluded.deleted_places :
    deleted.map (written.tree.place? written.current) =
      deleted.map (before.tree.place? before.current) := by
  have sublist := concluded.deleted_sublist.trans prepared.compiled_sublist
  exact List.map_congr_left fun path member =>
    (concluded.sources_stay formed prepared).2 path (sublist.subset member)

/-- A file that is there when the artifacts are written stays, unless it is in the place of a
deleted source. -/
theorem Concluded.stays {path : Path}
    (isFile : written.tree.isFileAt written.current path = true)
    (apart : written.tree.place? written.current path ∉
      deleted.map (before.tree.place? before.current)) :
    after.tree.isFileAt after.current path = true ∧
      after.tree.place? after.current path = written.tree.place? written.current path := by
  have sublist := concluded.deleted_sublist.trans prepared.compiled_sublist
  have files := (concluded.sources_stay formed prepared).1.sublist sublist
  rw [← concluded.deleted_places formed prepared] at apart
  exact concluded.removed.stays files.isFile isFile apart

/-- No artifact is in the place of a deleted source. -/
theorem Concluded.artifacts_apart :
    ∀ path ∈ (plan.report root).artifacts, written.tree.place? written.current path ∉
      deleted.map (before.tree.place? before.current) := by
  rw [← concluded.deleted_places formed prepared, concluded.deleted]
  intro path isArtifact member
  obtain ⟨source, isDeleted, same⟩ := List.mem_map.1 member
  split at isDeleted
  · contradiction
  · have apart := of_decide_eq_true (List.mem_filter.1 isDeleted).2
    exact apart (same ▸ List.mem_map_of_mem isArtifact)

/-- Artifacts stay in the places where they have been written. -/
theorem Concluded.artifacts_stay :
    ∀ path ∈ (plan.report root).artifacts, after.tree.isFileAt after.current path = true ∧
      after.tree.place? after.current path = written.tree.place? written.current path :=
  fun path member => concluded.stays formed prepared (concluded.isFile path member)
    (concluded.artifacts_apart formed prepared path member)

/-- Ignored sources stay. -/
theorem Concluded.ignored_stay :
    ∀ path ∈ plan.compiled.ignored, after.tree.isFileAt after.current path = true := by
  obtain ⟨files, -⟩ := concluded.sources_stay formed prepared
  intro path isIgnored
  obtain ⟨isSource, apart⟩ := prepared.ignored_apart files path isIgnored
  refine (concluded.stays formed prepared (files.isFile path isSource) fun isDeleted => apart ?_).1
  rw [← concluded.deleted_places formed prepared] at isDeleted
  exact (concluded.deleted_sublist.map _).subset isDeleted

/-- The artifacts are stored in the places that they have in the end. -/
theorem Concluded.contents?_eq (location : Location) :
    after.tree.contents? location =
      if some location ∈ deleted.map (before.tree.place? before.current) then none
      else overlay ((plan.artifacts.flatten ++ [plan.index]).map (fileOf root after))
        before.tree.contents? location := by
  have files : (plan.artifacts.flatten ++ [plan.index]).map (fileOf root written) =
      (plan.artifacts.flatten ++ [plan.index]).map (fileOf root after) := by
    refine List.map_congr_left fun artifact member => ?_
    rw [fileOf, fileOf, (concluded.artifacts_stay formed prepared _ (List.mem_map_of_mem member)).2]
  rw [concluded.removed.contents?_eq, concluded.deleted_places formed prepared, concluded.stored,
    files]

/-- An artifact is stored in its place, unless a later one has the same place. -/
theorem Concluded.exists_stored {earlier later : List Artifact} {artifact : Artifact}
    (parts : plan.artifacts.flatten ++ [plan.index] = earlier ++ artifact :: later) :
    ∃ location, after.tree.place? after.current (root.join artifact.path) = some location ∧
      ((∀ other ∈ later,
          after.tree.place? after.current (root.join other.path) ≠ some location) →
        after.tree.contents? location = some artifact.contents.toUTF8) := by
  have member : root.join artifact.path ∈ (plan.report root).artifacts :=
    List.mem_map_of_mem (parts ▸ List.mem_append_right earlier List.mem_cons_self)
  obtain ⟨isFile, place⟩ := concluded.artifacts_stay formed prepared _ member
  obtain ⟨location, leads, -⟩ := isFileAt_iff_place?.1 isFile
  refine ⟨location, leads, fun isLast => ?_⟩
  have notDeleted := concluded.artifacts_apart formed prepared _ member
  rw [← place, leads] at notDeleted
  have notLater : some location ∉ (later.map (fileOf root after)).map (·.1) := by
    rw [places_of_artifacts, List.map_map]
    intro isLater
    obtain ⟨other, member, same⟩ := List.mem_map.1 isLater
    exact isLast other member same
  rw [concluded.contents?_eq formed prepared, if_neg notDeleted, parts, List.map_append,
    List.map_cons, fileOf, leads]
  exact overlay_last notLater _ _ _

/-- What was a file is gone if and only if it was a deleted source. -/
theorem Concluded.contents?_eq_none_iff {location : Location}
    (isFile : (before.tree.contents? location).isSome = true) :
    after.tree.contents? location = none ↔
      some location ∈ deleted.map (before.tree.place? before.current) := by
  have remains : (written.tree.contents? location).isSome = true :=
    isSome_contents?.2 (concluded.grows _ _ (isSome_contents?.1 isFile))
  rw [Option.isSome_iff_ne_none] at remains
  rw [concluded.removed.contents?_eq, concluded.deleted_places formed prepared]
  constructor
  · exact fun gone => by_contra fun absent => remains ((if_neg absent).symm.trans gone)
  · exact fun isDeleted => if_pos isDeleted

end

/-- What has been done with a plan is the effect that a run is to have. -/
theorem Concluded.effect (formed : before.WellFormed)
    (prepared : Prepared root config (root.join config.sourceDirectory) before planned sources
      models templates plan)
    (concluded : Concluded root config plan before written after deleted) :
    Effect root config before after sources models plan
      { plan.report root with written := (plan.report root).artifacts, deleted } := by
  have compiled := prepared.compiled
  rw [value_compileSources] at compiled
  have stay := concluded.artifacts_stay formed prepared
  have outputs : (plan.report root).artifacts.map (after.tree.place? after.current) =
      (plan.report root).artifacts.map (written.tree.place? written.current) :=
    List.map_congr_left fun path member => (stay path member).2
  constructor
  case found => exact prepared.discovered
  case loaded => exact prepared.loaded
  case compiled => exact congrArg Compiled.sources compiled
  case ignored => exact congrArg Compiled.ignored compiled
  case artifacts => rfl
  case written => rfl
  case stored => exact fun _ _ _ parts => concluded.exists_stored formed prepared parts
  case deleted =>
    refine concluded.deleted.trans ?_
    split
    · rfl
    · refine List.filter_congr fun source member => ?_
      rw [outputs, (concluded.sources_stay formed prepared).2 source
        (prepared.compiled_sublist.subset member)]
  case removed => exact fun _ isFile => concluded.contents?_eq_none_iff formed prepared isFile
  case unchanged =>
    intro location notWritten notDeleted
    rw [concluded.contents?_eq formed prepared, if_neg notDeleted, overlay_of_not_mem]
    rwa [places_of_artifacts]
  case remain =>
    intro path member
    rcases List.mem_append.1 member with isIgnored | isArtifact
    · exact concluded.ignored_stay formed prepared path isIgnored
    · exact (stay path isArtifact).1

/-- A run that writes and succeeds has made a plan, and its effect is that the artifacts of the
plan are stored and its sources are removed, except those that are kept. -/
theorem run_effect (schedule : Pool.Schedule) (root : Path) (config : Config)
    (formed : before.WellFormed)
    (isThere : before.tree.isDirectoryAt before.current (root.join config.sourceDirectory) = true)
    {report : RunReport}
    (succeeded : value (run schedule root config .write : Step OnDisk RunReport).run before =
      .ok report) :
    ∃ sources models plan,
      value (Run.plan schedule root config (root.join config.sourceDirectory) :
        Step OnDisk Plan).run before = .ok plan ∧
      Effect root config before
        (final (run schedule root config .write : Step OnDisk RunReport).run before)
        sources models plan report := by
  obtain ⟨plan, planned, sources, models, templates, isPlan, reads, prepared, succeeded, leads⟩ :=
    exists_planned schedule root config isThere succeeded
  refine ⟨sources, models, plan, isPlan, ?_⟩
  rw [leads]
  rcases conclude_write schedule root config formed reads prepared with
    ⟨error, failed, -⟩ | ⟨error, failed, -⟩ | ⟨written, deleted, done, concluded⟩
  · rw [failed] at succeeded
    contradiction
  · rw [failed] at succeeded
    contradiction
  · obtain rfl := Except.ok.inj (done.symm.trans succeeded)
    exact concluded.effect formed prepared

/-- A run on the project with a barrel succeeds and deletes the source. -/
theorem exists_barrel_report : ∃ report,
    value (run .sequential ⟨""⟩ barrelConfig .write : Step OnDisk RunReport).run barrelDisk =
      .ok report ∧ report.deleted = [⟨"m/a.json"⟩] := by
  have succeeds : (value (run .sequential ⟨""⟩ barrelConfig .write :
      Step OnDisk RunReport).run barrelDisk).toOption.map RunReport.deleted =
        some [⟨"m/a.json"⟩] := by
    unfold run Run.plan Templates.load
    rw [Templates.builtin_eq]
    decide +kernel
  obtain ⟨report, isReport, deleted⟩ := Option.map_eq_some_iff.1 succeeds
  refine ⟨report, ?_, deleted⟩
  cases outcome : value (run .sequential ⟨""⟩ barrelConfig .write :
      Step OnDisk RunReport).run barrelDisk with
  | error error =>
    rw [outcome] at isReport
    contradiction
  | ok made =>
    rw [outcome] at isReport
    exact congrArg _ (Option.some.inj isReport)

/-- The effect of a run on the project with a barrel, which deletes the source. -/
theorem run_effect_barrel : ∃ report sources models plan, report.deleted = [⟨"m/a.json"⟩] ∧
    Effect ⟨""⟩ barrelConfig barrelDisk
      (final (run .sequential ⟨""⟩ barrelConfig .write : Step OnDisk RunReport).run barrelDisk)
      sources models plan report := by
  obtain ⟨report, succeeded, deleted⟩ := exists_barrel_report
  obtain ⟨sources, models, plan, -, effect⟩ :=
    run_effect .sequential ⟨""⟩ barrelConfig barrelDisk_wellFormed (by decide) succeeded
  exact ⟨report, sources, models, plan, deleted, effect⟩

end PhysicsPrefab.Run
