import PhysicsPrefab.Proofs.Project.Replanning

/-!
# Running once more

A run that keeps its sources can be repeated: the next run succeeds, makes the same artifacts of the
same sources and leaves all files as they are, though the models that the first run has put among
the sources are sources of the next one (`rerun_same`).
-/

namespace PhysicsPrefab

open Disk Program FileTree Emitter

namespace Run

variable {root : Path} {config : Config} {before planned written after last : Disk}
  {sources deleted : List Path} {models : List (Model Float)} {templates : Templates}
  {plan again : Plan}

/-- Reading changes no kinds. -/
theorem sameKinds_of_reads (reads : Reads before after) : SameKinds before after :=
  ⟨by rw [reads.tree], reads.current⟩

/-- After a run that keeps its sources the same things are there as after writing. -/
theorem Concluded.sameKinds (concluded : Concluded root config plan before written after deleted)
    (onlyKeeps : config.OnlyKeeps) : SameKinds written after := by
  obtain ⟨same, current⟩ := concluded.same onlyKeeps
  exact ⟨same.kind?.symm, current.trans concluded.current.symm⟩

/-- A plan that repeats another one is ready to be written where the other one is. -/
theorem Ready.repeats {layout : OutputLayout} {disk : Disk} (ready : Ready root layout plan disk)
    (repeats : plan.Repeats again) : Ready root layout again disk := by
  refine ⟨ready.furnished, ready.good, ?_⟩
  rw [repeats.artifacts, repeats.index]
  exact ready.isFile

/-- The last artifacts of places are the same where the same things are. -/
theorem lastStored_congr (same : SameKinds before after) (artifacts : List Artifact)
    (location : Location) :
    lastStored root after artifacts location = lastStored root before artifacts location := by
  rw [lastStored, lastStored]
  simp only [same.place?]

/-- A plan that is written again leaves all files as they are. -/
theorem Concluded.same_again (formed : before.WellFormed)
    (prepared : Prepared root config (root.join config.sourceDirectory) before planned sources models
      templates plan)
    (concluded : Concluded root config plan before written after deleted)
    (afterFormed : after.WellFormed) {nextPlanned nextWritten : Disk} {nextSources nextDeleted : List Path}
    {nextModels : List (Model Float)} {nextTemplates : Templates}
    (nextPrepared : Prepared root config (root.join config.sourceDirectory) after nextPlanned
      nextSources nextModels nextTemplates again)
    (nextConcluded : Concluded root config again after nextWritten last nextDeleted)
    (onlyKeeps : config.OnlyKeeps) (repeats : plan.Repeats again) (same : SameKinds after last) :
    after.tree.Same last.tree := by
  funext location
  refine (entryAt_congr (congrFun same.kinds location) ?_).symm
  have holds := concluded.holds formed prepared onlyKeeps location
  have holdsAgain := nextConcluded.holds afterFormed nextPrepared onlyKeeps location
  rw [repeats.artifacts, repeats.index, lastStored_congr same] at holdsAgain
  cases stored : lastStored root after (plan.artifacts.flatten ++ [plan.index]) location with
  | some artifact =>
    rw [stored] at holds holdsAgain
    exact holdsAgain.trans holds.symm
  | none =>
    rw [stored] at holdsAgain
    exact holdsAgain

/-- A written file whose place is below the source directory. -/
def IsAmongSources (root : Path) (config : Config) (disk : Disk) (path : Path) : Prop :=
  ∃ base names, disk.tree.LeadsTo disk.current (root.join config.sourceDirectory) base ∧
    disk.tree.place? disk.current path = some (base ++ names)

/-- A run has done the same as the run before it. -/
structure Repeated (root : Path) (config : Config) (after last : Disk) (first second : RunReport) :
    Prop where
  /-- The same sources were compiled. -/
  compiled : second.compiled = first.compiled
  /-- The same prefabs were made. -/
  prefabs : second.prefabs = first.prefabs
  /-- The same constraints were left out. -/
  skipped : second.skipped = first.skipped
  /-- The same artifacts were made. -/
  artifacts : second.artifacts = first.artifacts
  /-- The same artifacts were written. -/
  written : second.written = first.written
  /-- Nothing was deleted. -/
  deleted : second.deleted = []
  /-- All files and directories are as they were. -/
  same : after.tree.Same last.tree
  /-- What the first run has written among the sources can be loaded; the second one ignores it. -/
  models : ∀ path ∈ first.written, IsAmongSources root config after path →
    (∃ model, value (loadSource path) after = .ok model) ∧
      path ∈ second.ignored ∧ path ∉ second.compiled

/-- Without sources a run is repeated by doing nothing. -/
theorem repeated_without_sources (second : Pool.Schedule)
    (absent : before.tree.isDirectoryAt before.current (root.join config.sourceDirectory) = false)
    (tree : after.tree = before.tree) (current : after.current = before.current) :
    value (run second root config .write : Step OnDisk RunReport).run after = .ok .empty ∧
      Repeated root config after
        (final (run second root config .write : Step OnDisk RunReport).run after) .empty .empty := by
  rw [← tree, ← current] at absent
  obtain ⟨isValue, unchanged⟩ := run_without_sources second .write absent
  refine ⟨isValue, rfl, rfl, rfl, rfl, rfl, rfl, ?_, List.forall_mem_nil _⟩
  rw [unchanged]
  exact Eq.refl after.tree.entryAt

/-- A plan that repeats the one of a run before it can be concluded, and that repeats the run. -/
theorem Concluded.repeated (second : Pool.Schedule) (formed : before.WellFormed)
    (prepared : Prepared root config (root.join config.sourceDirectory) before planned sources models
      templates plan)
    (concluded : Concluded root config plan before written after deleted)
    (onlyKeeps : config.OnlyKeeps) (ready : Ready root config.layout plan after)
    (afterFormed : after.WellFormed) (finite : plan.IsFinite)
    (isThere : after.tree.isDirectoryAt after.current (root.join config.sourceDirectory) = true)
    (apart : ∀ source ∈ plan.compiled.sources, ∀ artifact ∈ plan.artifacts.flatten ++ [plan.index],
      after.tree.place? after.current (root.join artifact.path) ≠
        after.tree.place? after.current source)
    {report : RunReport} (isReport : report =
      { plan.report root with written := (plan.report root).artifacts, deleted }) :
    ∃ again, value (run second root config .write : Step OnDisk RunReport).run after = .ok again ∧
      Repeated root config after
        (final (run second root config .write : Step OnDisk RunReport).run after) report again := by
  obtain ⟨next, isPlan, repeats, ignored⟩ := concluded.replanned second formed prepared onlyKeeps
    ready.furnished afterFormed isThere finite apart
  have reads := (plan_isReader second root config (root.join config.sourceDirectory)).reads after
  obtain ⟨nextSources, nextModels, nextTemplates, nextPrepared⟩ :=
    plan_prepared second root config _ isPlan
  have nextReady := (ready.repeats repeats).sameKinds (sameKinds_of_reads reads)
  obtain ⟨⟨paths, isWritten⟩, sameWritten⟩ :=
    writePlan_again second nextPrepared.stamped nextReady
  obtain ⟨nextDeleted, done, nextConcluded⟩ :=
    (conclude_of_written second root config afterFormed reads nextPrepared isWritten).resolve_left
      fun ⟨_, _, removes, _⟩ => absurd (onlyKeeps.keepSources.symm.trans removes) (by decide)
  obtain ⟨isValue, isFinal⟩ := run_of_plan second .write isThere isPlan
  rw [isValue, isFinal]
  refine ⟨_, done, ?_⟩
  have same := trans_of SameKinds (trans_of SameKinds (sameKinds_of_reads reads) sameWritten)
    (nextConcluded.sameKinds onlyKeeps)
  have sameArtifacts : (next.report root).artifacts = (plan.report root).artifacts := by
    rw [Plan.report, Plan.report, repeats.artifacts, repeats.index]
  subst isReport
  constructor
  case compiled => exact repeats.sources
  case prefabs => exact congrArg (fun made => made.prefabs.map (·.id)) repeats.compilation
  case skipped => exact congrArg Compilation.skipped repeats.compilation
  case artifacts => exact sameArtifacts
  case written => exact sameArtifacts
  case deleted =>
    change nextDeleted = []
    rw [nextConcluded.deleted, if_pos onlyKeeps.keepSources]
  case same =>
    exact concluded.same_again formed prepared afterFormed nextPrepared nextConcluded onlyKeeps
      repeats same
  case models =>
    rintro path isPath ⟨base, names, leads, isAt⟩
    obtain ⟨artifact, isArtifact, rfl⟩ := List.mem_map.1 isPath
    obtain ⟨⟨entry, isDrawn, rfl⟩, -⟩ :=
      prepared.exists_modelFile onlyKeeps ready.furnished leads isArtifact isAt
    have isIgnored := ignored entry isDrawn
    obtain ⟨isSource, elsewhere⟩ := nextPrepared.ignored_apart
      (nextPrepared.differentFiles afterFormed.tree) _ isIgnored
    obtain ⟨model, -, isLoaded⟩ := Answer.exists_of_mem_right nextPrepared.loaded.flip isSource
    exact ⟨⟨model, isLoaded⟩, isIgnored, fun isCompiled =>
      elsewhere (List.mem_map_of_mem isCompiled)⟩

/-- A run that keeps its sources and succeeds can be repeated, if no artifact was written over a
compiled source and all numbers in the cubes of bodies are finite. -/
theorem rerun_same (first second : Pool.Schedule) (root : Path) (config : Config)
    (formed : before.WellFormed) (onlyKeeps : config.OnlyKeeps) {report : RunReport}
    (succeeded : value (run first root config .write : Step OnDisk RunReport).run before =
      .ok report)
    (leads : final (run first root config .write : Step OnDisk RunReport).run before = after)
    (apart : ∀ source ∈ report.compiled, ∀ path ∈ report.artifacts,
      after.tree.place? after.current path ≠ after.tree.place? after.current source)
    (finite : ∀ plan, value (Run.plan first root config (root.join config.sourceDirectory) :
      Step OnDisk Plan).run before = .ok plan → plan.IsFinite) :
    ∃ again, value (run second root config .write : Step OnDisk RunReport).run after = .ok again ∧
      Repeated root config after
        (final (run second root config .write : Step OnDisk RunReport).run after) report again := by
  have current := run_current first root config .write before
  have afterFormed := run_wellFormed first root config .write formed
  rw [leads] at current afterFormed
  cases isThere : before.tree.isDirectoryAt before.current (root.join config.sourceDirectory) with
  | false =>
    obtain ⟨isValue, unchanged⟩ := run_without_sources first .write isThere
    obtain rfl := Except.ok.inj (isValue.symm.trans succeeded)
    rw [leads] at unchanged
    exact ⟨.empty, repeated_without_sources second isThere unchanged current⟩
  | true =>
    obtain ⟨plan, planned, sources, models, templates, written, deleted, isPlan, reads, prepared,
      ⟨paths, isWritten⟩, toWritten, concluded, isReport⟩ :=
        exists_written first root config formed isThere succeeded
    rw [leads] at concluded
    have here : planned.tree.kind? planned.current = some true := by
      rw [reads.tree, reads.current]
      exact formed.current
    have ready := (ready_of_writePlan here isWritten toWritten).sameKinds
      (concluded.sameKinds onlyKeeps)
    obtain ⟨isGood, base, leadsBase⟩ := isDirectoryAt_iff.1 isThere
    have grows := trans_of Grows concluded.grows (concluded.same onlyKeeps).1.grows
    have isThereAfter :
        after.tree.isDirectoryAt after.current (root.join config.sourceDirectory) = true :=
      isDirectoryAt_iff.2 ⟨isGood, base, current.symm ▸ leadsBase.grows grows⟩
    refine concluded.repeated second formed prepared onlyKeeps ready afterFormed
      (finite plan isPlan) isThereAfter ?_ isReport
    intro source isCompiled artifact isArtifact
    subst isReport
    exact apart source isCompiled _ (List.mem_map_of_mem isArtifact)

/-- A project with one source, which has a body that is drawn. -/
def kegDisk : Disk := .ofTree (treeBelow (.file crateSource.toUTF8) yardPlace) []

/-- The project is well-formed. -/
theorem kegDisk_wellFormed : kegDisk.WellFormed :=
  ⟨wellFormed_treeBelow (.file _) (by decide : ∀ name ∈ yardPlace, IsPlainName name), rfl⟩

/-- A first run on the project compiles the source and draws a finite body, whose model goes
elsewhere. -/
theorem exists_keg_report : ∃ report,
    value (run .sequential ⟨""⟩ keepingConfig .write : Step OnDisk RunReport).run kegDisk =
      .ok report ∧
    report.compiled.length = 1 ∧
    (∀ source ∈ report.compiled, ∀ path ∈ report.artifacts,
      let after := final (run .sequential ⟨""⟩ keepingConfig .write :
        Step OnDisk RunReport).run kegDisk
      after.tree.place? after.current path ≠ after.tree.place? after.current source) ∧
    ∀ plan, value (Run.plan .sequential ⟨""⟩ keepingConfig
      ((⟨""⟩ : Path).join keepingConfig.sourceDirectory) : Step OnDisk Plan).run kegDisk =
        .ok plan → plan.IsFinite := by
  have succeed :
      (value (run .sequential ⟨""⟩ keepingConfig .write :
        Step OnDisk RunReport).run kegDisk).toOption.any (fun report =>
          report.compiled.length = 1 ∧
          ∀ source ∈ report.compiled, ∀ path ∈ report.artifacts,
            let after := final (run .sequential ⟨""⟩ keepingConfig .write :
              Step OnDisk RunReport).run kegDisk
            after.tree.place? after.current path ≠ after.tree.place? after.current source) = true ∧
      (value (Run.plan .sequential ⟨""⟩ keepingConfig
        ((⟨""⟩ : Path).join keepingConfig.sourceDirectory) : Step OnDisk Plan).run
          kegDisk).toOption.all (fun plan => decide plan.IsFinite) = true := by
    unfold run Run.plan Templates.load
    rw [Templates.builtin_eq, Template.builtinModel_eq]
    decide +kernel
  obtain ⟨report, succeeded, made⟩ := Answer.exists_of_any succeed.1
  obtain ⟨one, apart⟩ := of_decide_eq_true made
  refine ⟨report, succeeded, one, apart, fun plan planned => ?_⟩
  have finite := succeed.2
  rw [planned] at finite
  exact of_decide_eq_true finite

/-- Two runs on the project do the same. -/
theorem rerun_same_keg : ∃ (report again : RunReport) (after : Disk),
    value (run .sequential ⟨""⟩ keepingConfig .write : Step OnDisk RunReport).run kegDisk =
      .ok report ∧ report.compiled.length = 1 ∧
    value (run .sequential ⟨""⟩ keepingConfig .write : Step OnDisk RunReport).run after =
      .ok again ∧
    Repeated ⟨""⟩ keepingConfig after
      (final (run .sequential ⟨""⟩ keepingConfig .write : Step OnDisk RunReport).run after)
      report again := by
  obtain ⟨report, succeeded, one, apart, finite⟩ := exists_keg_report
  obtain ⟨again, isAgain, repeated⟩ := rerun_same .sequential .sequential ⟨""⟩ keepingConfig
    kegDisk_wellFormed ⟨rfl, rfl, rfl, rfl⟩ succeeded rfl apart finite
  exact ⟨report, again, _, succeeded, one, isAgain, repeated⟩

end Run

end PhysicsPrefab
