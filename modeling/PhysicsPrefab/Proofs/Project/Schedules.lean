import PhysicsPrefab.Proofs.Project.Prediction

/-!
# Runs under different schedules

Runs do not depend on the number of workers, on their turns or on the order in which directories
are listed (`run_independent`). The workers that read and those that write may take turns in
different ways (`runIn`). The same plan is made and the same is told; if sources cannot be loaded,
the first of them in order counts (`plan_blames`); and if a run that writes succeeds when its
workers take turns in one way, it does the same when they do in any other (`conclude_sameAt`).
-/

namespace PhysicsPrefab.Run

open Disk Program FileTree

variable {schedule : Pool.Schedule} {first second : Turns} {root directory : Path}
  {config : Config} {disk other : Disk}

/-- If a source cannot be loaded and all before it can, its error is that of the plan. -/
theorem plan_blames {earlier later : List Path} {source : Path} {error : ModelError}
    (found : value (Sources.discover directory : OnDisk _) disk =
      .ok (earlier ++ source :: later))
    (good : ∀ path ∈ earlier, ∃ model, value (loadSource path) disk = .ok model)
    (bad : value (loadSource source) disk = .error error) :
    value (Run.plan schedule root config directory : Step OnDisk Plan).run disk =
      .error (.model error) := by
  unfold Run.plan
  rw [(run_bind_ok (attempt _ (Sources.discover directory)) _ disk (value_attempt.2 found)).1,
    note, (run_lift_bind _ _ _).1]
  generalize reached : final (Journal.note _ _ : OnDisk Unit) _ = later₁
  have reads : Reads disk later₁ := by
    rw [← reached]
    exact trans_of Reads (IsReader.discover directory |>.reads disk) ((IsReader.tell _).reads _)
  have failed : value (loadSources schedule (earlier ++ source :: later)) later₁ =
      .error error := by
    rw [value_loadSources]
    simp only [(loadSource_isReader _).value_eq reads]
    exact Answer.mapM_of_first_error good bad
  have blames : value (readSources schedule (earlier ++ source :: later) :
      Step OnDisk (List (Model Float))).run later₁ = .error (.model error) :=
    congrArg (Except.mapError RunError.model) failed
  exact (run_bind_error _ _ later₁ blames).1

/-- If a source cannot be loaded and all before it can, a run fails with its error. -/
theorem runIn_blames (turns : Turns) (mode : RunMode) {earlier later : List Path} {source : Path}
    {error : ModelError}
    (found : value (Sources.discover (root.join config.sourceDirectory) : OnDisk _) disk =
      .ok (earlier ++ source :: later))
    (good : ∀ path ∈ earlier, ∃ model, value (loadSource path) disk = .ok model)
    (bad : value (loadSource source) disk = .error error) :
    value (runIn root config turns mode).run disk = .error (.model error) := by
  obtain ⟨base, entries, isThere, -⟩ := Sources.exists_of_filesBelow found
  have isDirectory : disk.tree.isDirectoryAt disk.current (root.join config.sourceDirectory) =
      true := by
    rw [isDirectoryAt, isThere]
    rfl
  exact (runIn_of_plan_error turns mode isDirectory (plan_blames found good bad)).1

/-- Finishing after writing does the same on disks that are alike. -/
theorem settle_twins (plan : Plan) (written : List Path) :
    Twins Alike (settle root config plan written).run (settle root config plan written).run := by
  rw [settle]
  exact .run_bind (removePlanned_twins _ _ _) fun _ => .run_bind (note_twins _ _) fun _ =>
    .run_pure _

/-- Checks conclude in the same way. -/
theorem conclude_check_twins (plan : Plan) :
    Twins Alike (conclude first.writing root config .check plan).run
      (conclude second.writing root config .check plan).run :=
  .run_bind (note_twins _ _) fun _ => .run_pure _

/-- A run that writes what has been planned and succeeds concludes in the same way however its
workers take turns. -/
theorem conclude_sameAt {plan : Plan} (stamped : Stamped config.layout plan)
    (same : Alike disk other) (here : disk.tree.kind? disk.current = some true)
    {report : RunReport}
    (succeeded : value (conclude first.writing root config .write plan).run disk = .ok report) :
    SameAt Alike (conclude first.writing root config .write plan).run
      (conclude second.writing root config .write plan).run disk other := by
  obtain ⟨paths, written, -⟩ := exists_of_run_bind_ok _ _ _ succeeded
  have writing := writePlan_sameAt first.writing second.writing stamped same here written
  exact writing.run_bind fun paths _ => settle_twins plan paths _ _ writing.final

/-- Runs do the same if they conclude in the same way. -/
theorem runIn_sameAt (mode : RunMode) (same : Alike disk other) (formed : disk.tree.WellFormed)
    (otherFormed : other.tree.WellFormed)
    (concluded : disk.tree.isDirectoryAt disk.current (root.join config.sourceDirectory) = true →
      ∀ plan, value (Run.plan first.reading root config (root.join config.sourceDirectory) :
        Step OnDisk Plan).run disk = .ok plan →
      SameAt Alike (conclude first.writing root config mode plan).run
        (conclude second.writing root config mode plan).run
        (final (Run.plan first.reading root config (root.join config.sourceDirectory) :
          Step OnDisk Plan).run disk)
        (final (Run.plan second.reading root config (root.join config.sourceDirectory) :
          Step OnDisk Plan).run other)) :
    SameAt Alike (runIn root config first mode).run (runIn root config second mode).run
      disk other := by
  have looked := Twins.run_lift (ε := RunError)
    (isDirectory_twins (root.join config.sourceDirectory)) _ _ same
  refine looked.run_bind fun isThere found => ?_
  cases isThere with
  | false => exact Twins.run_bind (note_twins _ _) (fun _ => .run_pure _) _ _ looked.final
  | true =>
    have planned := plan_sameAt first.reading second.reading root config
      (root.join config.sourceDirectory) same formed otherFormed
    exact planned.run_bind (concluded (Except.ok.inj found))

/-- What two runs have in common whose workers take turns in different ways, on disks that are
alike. -/
structure Independent (first second : Turns) (root : Path) (config : Config)
    (disk other : Disk) : Prop where
  /-- Both are runs, but for the turns of their workers. -/
  runs : ∀ schedule mode,
    run schedule root config mode = runIn root config ⟨schedule, schedule⟩ mode
  /-- They make the same plan, or fail for the same reason, and tell the same. -/
  plan : SameAt Alike
    (Run.plan first.reading root config (root.join config.sourceDirectory) : Step OnDisk Plan).run
    (Run.plan second.reading root config (root.join config.sourceDirectory) : Step OnDisk Plan).run
    disk other
  /-- They find the same sources. -/
  sources : value (Sources.discover (root.join config.sourceDirectory) : OnDisk _) disk =
    value (Sources.discover (root.join config.sourceDirectory) : OnDisk _) other
  /-- The sources are in order. -/
  sorted : ∀ sources,
    value (Sources.discover (root.join config.sourceDirectory) : OnDisk _) disk = .ok sources →
      sources.Pairwise fun left right => left.before right = true
  /-- If sources cannot be loaded, the runs fail with the error of the first. -/
  blamed : ∀ earlier source later error,
    value (Sources.discover (root.join config.sourceDirectory) : OnDisk _) disk =
        .ok (earlier ++ source :: later) →
    (∀ path ∈ earlier, ∃ model, value (loadSource path) disk = .ok model) →
    value (loadSource source) disk = .error error → ∀ mode,
      value (runIn root config first mode).run disk = .error (.model error) ∧
        value (runIn root config second mode).run other = .error (.model error)
  /-- They check in the same way. -/
  check : SameAt Alike (runIn root config first .check).run (runIn root config second .check).run
    disk other
  /-- If one of them writes and succeeds, so does the other, and they lead to the same tree. -/
  write : ∀ report, value (runIn root config first .write).run disk = .ok report →
    SameAt Alike (runIn root config first .write).run (runIn root config second .write).run
      disk other

/-- Runs do not depend on the turns of their workers, nor on the order of listings. -/
theorem run_independent (first second : Turns) (root : Path) (config : Config)
    (same : Alike disk other) (formed : disk.WellFormed) (otherFormed : other.WellFormed) :
    Independent first second root config disk other := by
  have planned := plan_sameAt first.reading second.reading root config
    (root.join config.sourceDirectory) same formed.tree otherFormed.tree
  have found := discover_sameAt (root.join config.sourceDirectory) same formed.tree otherFormed.tree
  constructor
  case runs => exact fun schedule mode => run_eq_runIn schedule root config mode
  case plan => exact planned
  case sources => exact found.value
  case sorted => exact fun _ found => Sources.pairwise_before formed.tree found
  case blamed =>
    intro earlier source later error isFound good bad mode
    have loads := fun path => (loadSource_twins path _ _ same).value
    refine ⟨runIn_blames first mode isFound good bad,
      runIn_blames second mode (found.value ▸ isFound) ?_ ?_⟩
    · exact fun path member => loads path ▸ good path member
    · exact loads source ▸ bad
  case check =>
    exact runIn_sameAt .check same formed.tree otherFormed.tree fun _ plan _ =>
      conclude_check_twins plan _ _ planned.final
  case write =>
    intro report succeeded
    refine runIn_sameAt .write same formed.tree otherFormed.tree fun isThere plan isPlan => ?_
    obtain ⟨sources, models, templates, prepared⟩ :=
      plan_prepared first.reading root config _ isPlan
    have reads := (plan_isReader first.reading root config
      (root.join config.sourceDirectory)).reads disk
    rw [(runIn_of_plan first .write isThere isPlan).1] at succeeded
    refine conclude_sameAt prepared.stamped planned.final ?_ succeeded
    rw [reads.tree, reads.current]
    exact formed.current

/-- Two sources, each with one body. -/
def caskSources : List (String × FileTree) :=
  [("a.json", barrelSource), ("b.json", .file (barrelText "h").toUTF8)]

/-- A project with two sources and a directory for its artifacts. -/
def cellarDisk : Disk := .ofTree (.directory [("m", .directory caskSources), ("o", .directory [])]) []

/-- The same project when all its directories are listed in the other order. -/
def relistedDisk : Disk :=
  .ofTree (.directory [("o", .directory []), ("m", .directory caskSources.reverse)]) []

/-- The project is well-formed. -/
theorem cellarDisk_wellFormed : cellarDisk.WellFormed := by
  have sources : (FileTree.directory caskSources).WellFormed := by
    refine .directory (by decide) (by decide) (List.forall_mem_cons.2 ⟨.file _, ?_⟩)
    exact List.forall_mem_singleton.2 (.file _)
  refine ⟨.directory (by decide) (by decide) (List.forall_mem_cons.2 ⟨sources, ?_⟩), rfl⟩
  exact List.forall_mem_singleton.2
    (.directory List.nodup_nil (List.forall_mem_nil _) (List.forall_mem_nil _))

/-- The relisted project is well-formed. -/
theorem relistedDisk_wellFormed : relistedDisk.WellFormed := by
  have relisted : (FileTree.directory caskSources.reverse).WellFormed := by
    cases cellarDisk_wellFormed.tree with
    | directory _ _ each => exact (each _ List.mem_cons_self).perm (List.reverse_perm _).symm
  refine ⟨.directory (by decide) (by decide) (List.forall_mem_cons.2 ⟨?_, ?_⟩), rfl⟩
  · exact .directory List.nodup_nil (List.forall_mem_nil _) (List.forall_mem_nil _)
  · exact List.forall_mem_singleton.2 relisted

/-- Both projects are alike. -/
theorem cellarDisk_alike : cellarDisk.Alike relistedDisk := by
  have inner : Same (.directory caskSources) (.directory caskSources.reverse) :=
    same_of_perm (by decide) (List.reverse_perm _).symm
  have outer : Same (.directory [("m", .directory caskSources.reverse), ("o", .directory [])])
      (.directory [("o", .directory []), ("m", .directory caskSources.reverse)]) :=
    same_of_perm (by decide) (List.Perm.swap _ _ _)
  exact ⟨trans_of Same (same_of_entry inner "m" _) outer, rfl, rfl, rfl⟩

/-- One worker does the same on a project with two sources as two that take turns do when its
directories are listed in the other order. -/
theorem run_independent_cellar : cellarDisk.Alike relistedDisk ∧
    Independent ⟨.sequential, .sequential⟩
      ⟨⟨2, by decide, [1, 0, 1]⟩, ⟨2, by decide, [0, 1, 1]⟩⟩ ⟨""⟩ barrelConfig
      cellarDisk relistedDisk :=
  ⟨cellarDisk_alike, run_independent _ _ _ _ cellarDisk_alike cellarDisk_wellFormed
    relistedDisk_wellFormed⟩

end PhysicsPrefab.Run
