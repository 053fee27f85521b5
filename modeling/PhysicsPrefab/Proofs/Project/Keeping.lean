import PhysicsPrefab.Proofs.Emit.Contents
import PhysicsPrefab.Proofs.Project.Effect

/-!
# Kept sources

A run that keeps its sources removes none of them, but it may write an artifact over one. So a
compiled source is still there after the run, and it holds what it held, unless artifacts have its
place: then it holds the last of them (`sources_kept`). With the directories of a project that says
nothing else this can happen, as the models of bodies go where the sources are
(`crate_overwritten`).
-/

namespace PhysicsPrefab.Run

open Disk Program FileTree Emitter

/-- The last artifact whose path has a place. -/
def lastStored (root : Path) (disk : Disk) (artifacts : List Artifact) (location : Location) :
    Option Artifact :=
  artifacts.reverse.find? fun artifact =>
    disk.tree.place? disk.current (root.join artifact.path) == some location

/-- The last artifact of a place is an artifact that has the place. -/
theorem of_lastStored {root : Path} {disk : Disk} {artifacts : List Artifact} {location : Location}
    {artifact : Artifact} (last : lastStored root disk artifacts location = some artifact) :
    artifact ∈ artifacts ∧
      disk.tree.place? disk.current (root.join artifact.path) = some location := by
  rw [lastStored] at last
  have isAt := List.find?_some last
  exact ⟨List.mem_reverse.1 (List.mem_of_find?_eq_some last), beq_iff_eq.1 isAt⟩

/-- A place has no last artifact if no artifact has the place. -/
theorem lastStored_eq_none {root : Path} {disk : Disk} {artifacts : List Artifact}
    {location : Location} : lastStored root disk artifacts location = none ↔
      ∀ artifact ∈ artifacts, disk.tree.place? disk.current (root.join artifact.path) ≠
        some location := by
  rw [lastStored, List.find?_eq_none]
  simp

/-- What artifacts leave in a place is the last of them that has the place. -/
theorem overlay_fileOf (root : Path) (disk : Disk) (artifacts : List Artifact)
    (held : Location → Option ByteArray) (location : Location) :
    overlay (artifacts.map (fileOf root disk)) held location =
      match lastStored root disk artifacts location with
      | some artifact => some artifact.contents.toUTF8
      | none => held location := by
  induction artifacts using List.reverseRecOn with
  | nil => rfl
  | append_singleton earlier last ih =>
    rw [List.map_append, overlay_append, lastStored, List.reverse_append, List.reverse_singleton,
      List.singleton_append, List.find?_cons]
    change (if _ then _ else _) = _
    by_cases same : disk.tree.place? disk.current (root.join last.path) = some location
    · simp [same]
    · rw [if_neg same, ih, beq_eq_false_iff_ne.2 same]
      rfl

variable {root : Path} {config : Config} {before planned written after : Disk}
  {sources deleted : List Path} {models : List (Model Float)} {templates : Templates} {plan : Plan}

/-- A run that writes and succeeds where there are sources has made a plan, written it and concluded
it. -/
theorem exists_written (schedule : Pool.Schedule) (root : Path) (config : Config)
    (formed : before.WellFormed)
    (isThere : before.tree.isDirectoryAt before.current (root.join config.sourceDirectory) = true)
    {report : RunReport}
    (succeeded : value (run schedule root config .write : Step OnDisk RunReport).run before =
      .ok report) :
    ∃ plan planned sources models templates written deleted,
      value (Run.plan schedule root config (root.join config.sourceDirectory) :
        Step OnDisk Plan).run before = .ok plan ∧
      Reads before planned ∧
      Prepared root config (root.join config.sourceDirectory) before planned sources models
        templates plan ∧
      (∃ paths, value (writePlan schedule root config.layout plan : Step OnDisk (List Path)).run
        planned = .ok paths) ∧
      final (writePlan schedule root config.layout plan : Step OnDisk (List Path)).run planned =
        written ∧
      Concluded root config plan before written
        (final (run schedule root config .write : Step OnDisk RunReport).run before) deleted ∧
      report = { plan.report root with written := (plan.report root).artifacts, deleted } := by
  obtain ⟨plan, planned, sources, models, templates, isPlan, reads, prepared, succeeded, leads⟩ :=
    exists_planned schedule root config isThere succeeded
  rw [leads]
  obtain ⟨paths, isWritten, -⟩ := exists_of_run_bind_ok _ _ _ succeeded
  rcases conclude_of_written schedule root config formed reads prepared isWritten with
    ⟨error, failed, -⟩ | ⟨deleted, done, concluded⟩
  · rw [failed] at succeeded
    contradiction
  · exact ⟨plan, planned, sources, models, templates, _, deleted, isPlan, reads, prepared,
      ⟨paths, isWritten⟩, rfl, concluded, (Except.ok.inj (done.symm.trans succeeded)).symm⟩

/-- A run that writes and succeeds where there are sources has made a plan and concluded it. -/
theorem exists_concluded (schedule : Pool.Schedule) (root : Path) (config : Config)
    (formed : before.WellFormed)
    (isThere : before.tree.isDirectoryAt before.current (root.join config.sourceDirectory) = true)
    {report : RunReport}
    (succeeded : value (run schedule root config .write : Step OnDisk RunReport).run before =
      .ok report) :
    ∃ plan planned sources models templates written deleted,
      value (Run.plan schedule root config (root.join config.sourceDirectory) :
        Step OnDisk Plan).run before = .ok plan ∧
      Prepared root config (root.join config.sourceDirectory) before planned sources models
        templates plan ∧
      Concluded root config plan before written
        (final (run schedule root config .write : Step OnDisk RunReport).run before) deleted ∧
      report = { plan.report root with written := (plan.report root).artifacts, deleted } := by
  obtain ⟨plan, planned, sources, models, templates, written, deleted, isPlan, -, prepared, -, -,
    concluded, isReport⟩ := exists_written schedule root config formed isThere succeeded
  exact ⟨plan, planned, sources, models, templates, written, deleted, isPlan, prepared, concluded,
    isReport⟩

/-- There are sources if some were compiled. -/
theorem isDirectoryAt_of_compiled (schedule : Pool.Schedule) {mode : RunMode} {report : RunReport}
    (succeeded : value (run schedule root config mode : Step OnDisk RunReport).run before =
      .ok report) {source : Path} (compiled : source ∈ report.compiled) :
    before.tree.isDirectoryAt before.current (root.join config.sourceDirectory) = true := by
  cases isThere : before.tree.isDirectoryAt before.current (root.join config.sourceDirectory) with
  | true => rfl
  | false =>
    rw [(run_without_sources schedule mode isThere).1] at succeeded
    obtain rfl := Except.ok.inj succeeded
    contradiction

/-- What is left of a kept source: it is in its place, and holds the last artifact of that place,
or else what it held. -/
structure Kept (root : Path) (plan : Plan) (before after : Disk) (source : Path)
    (location : Location) (contents : ByteArray) : Prop where
  /-- The source was in the place. -/
  wasAt : before.tree.place? before.current source = some location
  /-- It held the contents. -/
  held : before.tree.contents? location = some contents
  /-- It is in the place. -/
  isAt : after.tree.place? after.current source = some location
  /-- It holds the last artifact of the place, or else what it held. -/
  holds : after.tree.contents? location =
    some (match lastStored root after (plan.artifacts.flatten ++ [plan.index]) location with
      | some artifact => artifact.contents.toUTF8
      | none => contents)

/-- If sources are kept, each of them is left. -/
theorem Concluded.kept (formed : before.WellFormed)
    (prepared : Prepared root config (root.join config.sourceDirectory) before planned sources
      models templates plan)
    (concluded : Concluded root config plan before written after deleted)
    (keep : config.keepSources = true) {source : Path} (isSource : source ∈ sources) :
    ∃ location contents, Kept root plan before after source location contents := by
  obtain ⟨files, stay⟩ := concluded.sources_stay formed prepared
  obtain ⟨location, wasAt, isFile⟩ := isFileAt_iff_place?.1
    ((prepared.differentFiles formed.tree).isFile source isSource)
  obtain ⟨contents, held⟩ := Option.isSome_iff_exists.1 isFile
  have none : deleted = [] := by rw [concluded.deleted, if_pos keep]
  have isAt := (concluded.stays formed prepared (files.isFile source isSource)
    (by rw [none]; exact List.not_mem_nil)).2
  have holds := concluded.contents?_eq formed prepared location
  rw [none, List.map_nil, if_neg List.not_mem_nil, overlay_fileOf, held] at holds
  refine ⟨location, contents, wasAt, held, isAt.trans ((stay source isSource).trans wasAt), ?_⟩
  rw [holds]
  cases lastStored root after (plan.artifacts.flatten ++ [plan.index]) location <;> rfl

/-- Without files for templates the built-in ones are loaded. -/
theorem value_loadTemplates_none (disk : Disk) :
    value (Templates.load none none none : ExceptT EmitError OnDisk Templates).run disk =
      .ok ⟨Template.builtinBehavior, Template.builtinAppearance, Template.builtinModel⟩ := by
  rw [Templates.load, Templates.builtin_eq]
  -- the texts are hidden, as it takes long to find that they are the same
  generalize Template.builtinModel.notice _ = notice
  generalize Template.builtinBehavior = behavior
  generalize Template.builtinAppearance = appearance
  generalize Template.builtinModel = geometry
  rfl

/-- The templates of a project that replaces none are the built-in ones. -/
theorem Prepared.templates_eq {directory : Path}
    (prepared : Prepared root config directory before planned sources models templates plan)
    (isNone : config.templates = .none) :
    templates = ⟨Template.builtinBehavior, Template.builtinAppearance, Template.builtinModel⟩ := by
  have loaded := prepared.templatesLoaded
  rw [isNone] at loaded
  exact Except.ok.inj (loaded.symm.trans (value_loadTemplates_none before))

/-- No artifact of a project that replaces no template begins with a blank. -/
theorem Prepared.head?_ne_blank {directory : Path}
    (prepared : Prepared root config directory before planned sources models templates plan)
    (isNone : config.templates = .none) :
    ∀ artifact ∈ plan.artifacts.flatten ++ [plan.index],
      artifact.contents.toList.head? ≠ some ' ' := by
  obtain rfl := prepared.templates_eq isNone
  intro artifact member
  rcases List.mem_append.1 member with isArtifact | isIndex
  · obtain ⟨own, isOwn, isArtifact⟩ := List.mem_flatten.1 isArtifact
    obtain ⟨prefab, -, made⟩ := Answer.exists_of_mem_right
      (forall₂_of_value_run_mapM prepared.artifacts) isOwn
    rcases prefabArtifacts_head? rfl rfl made artifact isArtifact with brace | letter
    · simp [brace]
    · simp [letter]
  · obtain rfl := List.mem_singleton.1 isIndex
    rw [prepared.index, indexArtifact]
    dsimp only
    rcases Script.head?_index (plan.compiled.compilation.prefabs.map (·.id)) with empty | letter
    · simp [empty]
    · simp [letter]

/-- A source with one body that is drawn. It begins with a blank, as no artifact does. -/
def crateSource : String :=
  " " ++ ("\x7b\"minecraft:geometry\":[\x7b\"description\":\x7b\"identifier\":\"g\"\x7d," ++
    "\"bones\":[\x7b\"name\":\"b\",\"parent\":\"Objects\",\"cubes\":[" ++
    "\x7b\"origin\":[0,0,0],\"size\":[0,0,0]\x7d]\x7d]\x7d]\x7d")

/-- A tree in directories that hold nothing else. -/
def treeBelow (tree : FileTree) : Location → FileTree
  | [] => tree
  | name :: rest => .directory [(name, treeBelow tree rest)]

/-- The place of the model of the body. -/
def cratePlace : Location := ["RP", "models", "entity", "physics", "prefabs", "g", "b.json"]

/-- The path of the model of the body. -/
def cratePath : Path := ⟨"RP/models/entity/physics/prefabs/g/b.json"⟩

/-- A project whose only source is where the model of its body goes. -/
def crateDisk : Disk := .ofTree (treeBelow (.file crateSource.toUTF8) cratePlace) []

/-- The settings of a project that only says that sources are kept. -/
def keepingConfig : Config := { Config.default with keepSources := true }

/-- A well-formed tree stays one in directories with plain names. -/
theorem wellFormed_treeBelow {tree : FileTree} (formed : tree.WellFormed) {location : Location}
    (plain : ∀ name ∈ location, IsPlainName name) : (treeBelow tree location).WellFormed := by
  induction location with
  | nil => exact formed
  | cons name rest ih =>
    obtain ⟨isPlain, restPlain⟩ := List.forall_mem_cons.1 plain
    exact .directory (List.nodup_singleton _) (List.forall_mem_singleton.2 isPlain)
      (List.forall_mem_singleton.2 (ih restPlain))

/-- The project is well-formed. -/
theorem crateDisk_wellFormed : crateDisk.WellFormed :=
  ⟨wellFormed_treeBelow (.file _) (by decide : ∀ name ∈ cratePlace, IsPlainName name), rfl⟩

/-- A run on the project succeeds, compiles the source and writes to its path. -/
theorem exists_crate_report : ∃ report,
    value (run .sequential ⟨""⟩ keepingConfig .write : Step OnDisk RunReport).run crateDisk =
      .ok report ∧ report.compiled = [cratePath] ∧ cratePath ∈ report.artifacts := by
  have succeeds : (value (run .sequential ⟨""⟩ keepingConfig .write :
      Step OnDisk RunReport).run crateDisk).toOption.any (fun report =>
        report.compiled == [cratePath] && report.artifacts.contains cratePath) = true := by
    unfold run Run.plan Templates.load
    rw [Templates.builtin_eq, Template.builtinModel_eq]
    decide +kernel
  obtain ⟨report, succeeded, made⟩ := Answer.exists_of_any succeeds
  exact ⟨report, succeeded, by simpa using made⟩

/-- After a run that writes, succeeds and keeps its sources, every compiled source is in its place,
and holds what it held, unless an artifact has its place: then it holds the last of those. -/
theorem sources_kept (schedule : Pool.Schedule) (root : Path) (config : Config)
    (formed : before.WellFormed) (keep : config.keepSources = true) {report : RunReport}
    (succeeded : value (run schedule root config .write : Step OnDisk RunReport).run before =
      .ok report) :
    ∀ source ∈ report.compiled, ∃ plan location contents,
      value (Run.plan schedule root config (root.join config.sourceDirectory) :
        Step OnDisk Plan).run before = .ok plan ∧
      Kept root plan before
        (final (run schedule root config .write : Step OnDisk RunReport).run before)
        source location contents := by
  intro source compiled
  obtain ⟨plan, planned, sources, models, templates, written, deleted, isPlan, prepared,
    concluded, rfl⟩ := exists_concluded schedule root config formed
      (isDirectoryAt_of_compiled schedule succeeded compiled) succeeded
  obtain ⟨location, contents, kept⟩ := concluded.kept formed prepared keep
    (prepared.compiled_sublist.subset compiled)
  exact ⟨plan, location, contents, isPlan, kept⟩

/-- What is left of the source of the project with a crate. -/
theorem sources_kept_crate : ∃ (report : RunReport) (plan : Plan) (location : Location)
    (contents : ByteArray), report.compiled = [cratePath] ∧
    Kept ⟨""⟩ plan crateDisk
      (final (run .sequential ⟨""⟩ keepingConfig .write : Step OnDisk RunReport).run crateDisk)
      cratePath location contents := by
  obtain ⟨report, succeeded, compiled, -⟩ := exists_crate_report
  obtain ⟨plan, location, contents, -, kept⟩ :=
    sources_kept .sequential ⟨""⟩ keepingConfig crateDisk_wellFormed rfl succeeded cratePath
      (by simp [compiled])
  exact ⟨report, plan, location, contents, compiled, kept⟩

/-- A kept source may be written over: it is compiled, and does not hold any more what it held. -/
theorem crate_overwritten : ∃ report location, keepingConfig.keepSources = true ∧
    crateDisk.WellFormed ∧
    value (run .sequential ⟨""⟩ keepingConfig .write : Step OnDisk RunReport).run crateDisk =
      .ok report ∧
    cratePath ∈ report.compiled ∧
    crateDisk.tree.place? crateDisk.current cratePath = some location ∧
    (final (run .sequential ⟨""⟩ keepingConfig .write : Step OnDisk RunReport).run
      crateDisk).tree.contents? location ≠ crateDisk.tree.contents? location := by
  obtain ⟨report, succeeded, compiled, isArtifact⟩ := exists_crate_report
  have isSource : cratePath ∈ report.compiled := by simp [compiled]
  refine ⟨report, cratePlace, rfl, crateDisk_wellFormed, succeeded, isSource, by decide, ?_⟩
  obtain ⟨plan, planned, sources, models, templates, written, deleted, isPlan, prepared,
    concluded, rfl⟩ := exists_concluded .sequential ⟨""⟩ keepingConfig crateDisk_wellFormed
      (isDirectoryAt_of_compiled .sequential succeeded isSource) succeeded
  obtain ⟨location, contents, kept⟩ := concluded.kept crateDisk_wellFormed prepared rfl
    (prepared.compiled_sublist.subset isSource)
  have atPlace : crateDisk.tree.place? crateDisk.current cratePath = some cratePlace := by decide
  obtain rfl := Option.some.inj (kept.wasAt.symm.trans atPlace)
  obtain rfl := Option.some.inj (kept.held.symm.trans
    (rfl : crateDisk.tree.contents? cratePlace = some crateSource.toUTF8))
  obtain ⟨artifact, isArtifact, isPath⟩ := List.mem_map.1 isArtifact
  have blank : crateSource.toList.head? = some ' ' := by
    rw [crateSource, String.toList_append, List.head?_append]
    rfl
  cases last : lastStored ⟨""⟩ _ (plan.artifacts.flatten ++ [plan.index]) cratePlace with
  | none =>
    have elsewhere := List.find?_eq_none.1 last artifact (List.mem_reverse.2 isArtifact)
    rw [isPath, kept.isAt] at elsewhere
    exact absurd (beq_self_eq_true _) elsewhere
  | some stored =>
    have isStored := List.mem_reverse.1 (List.mem_of_find?_eq_some last)
    rw [kept.holds, last, kept.held]
    intro same
    have texts := String.toByteArray_inj.1 (Option.some.inj same)
    exact prepared.head?_ne_blank rfl stored isStored (texts ▸ blank)

end PhysicsPrefab.Run
