import PhysicsPrefab.Proofs.Project.Compiling
import PhysicsPrefab.Proofs.Project.Reordering
import PhysicsPrefab.Proofs.Project.Storing
import PhysicsPrefab.Proofs.Project.Twins

/-!
# Writing the artifacts of a plan

Artifacts of different prefabs have different files (`Stamped`), so pieces of the jobs that write
them commute (`writeArtifact_commuting`) once the directories for all artifacts are there
(`Furnished`). Whatever the schedule, files hold in the end what they hold when the artifacts are
stored one after the other and the index last (`contents_of_writePlan`), and any other schedule
does the same on a disk that is alike (`writePlan_sameAt`).
-/

namespace PhysicsPrefab.Run

open Disk Program FileTree Emitter

variable {root : Path} {layout : OutputLayout} {plan : Plan}

/-- An artifact is an output of the prefab with an id. -/
structure IsOutputOf (layout : OutputLayout) (id : String) (artifact : Artifact)
    (output : Output) : Prop where
  /-- It has the path of the output. -/
  path_eq : artifact.path = output.path
  /-- The output has plain names. -/
  plain : output.IsPlain
  /-- The output is in one of the directories for artifacts. -/
  directory : output.directory ∈ layout.directories
  /-- The output is named after the prefab. -/
  prefabId : output.name.prefabId = id

/-- The artifacts of a plan are outputs of different prefabs. -/
structure Stamped (layout : OutputLayout) (plan : Plan) : Prop where
  /-- No two prefabs have one id. -/
  distinct : (plan.compiled.compilation.prefabs.map (·.id)).Nodup
  /-- Each prefab has its own artifacts. -/
  artifacts : List.Forall₂ (fun prefab own => ∀ artifact ∈ own, ∃ output,
    IsOutputOf layout prefab.id artifact output) plan.compiled.compilation.prefabs plan.artifacts
  /-- The index is an output as well. -/
  index : ∃ output, IsOutputOf layout "index" plan.index output

/-- The artifacts of a plan that has been made are outputs of different prefabs. -/
theorem Prepared.stamped {config : Config} {directory : Path} {before planned : Disk}
    {sources : List Path} {models : List (Model Float)} {templates : Templates}
    (prepared : Prepared root config directory before planned sources models templates plan) :
    Stamped config.layout plan := by
  constructor
  case distinct =>
    rw [prepared.compiled]
    exact compileSources_distinct _
  case artifacts =>
    refine (forall₂_of_value_run_mapM prepared.artifacts).imp fun prefab own made => ?_
    obtain ⟨plain, paths⟩ := prefabArtifacts_outputs made
    intro artifact member
    obtain ⟨output, isOutput, same⟩ :=
      List.mem_map.1 (paths ▸ List.mem_map_of_mem (f := Artifact.path) member)
    exact ⟨output, same.symm, plain output isOutput, directory_mem isOutput,
      prefabId_of_mem isOutput⟩
  case index =>
    refine ⟨indexOutput config.layout, by rw [prepared.index]; rfl, ?_, ?_, rfl⟩
    · exact List.forall_mem_singleton.2
        (isPlainName_of_isFileName (by decide : isFileName "index.js" = true))
    · simp [indexOutput, OutputLayout.directories]

/-- A piece of a job is an output of the prefab with the number of the job. -/
theorem Stamped.exists_output (stamped : Stamped layout plan) {job : Nat} {artifact : Artifact}
    (isPiece : Pool.IsPiece plan.artifacts job artifact) :
    ∃ prefab output, plan.compiled.compilation.prefabs[job]? = some prefab ∧
      IsOutputOf layout prefab.id artifact output := by
  obtain ⟨own, isOwn, member⟩ := isPiece
  obtain ⟨inside, rfl⟩ := List.getElem?_eq_some_iff.1 isOwn
  have known := inside
  rw [← stamped.artifacts.length_eq] at known
  obtain ⟨output, isOutput⟩ := stamped.artifacts.get known inside artifact member
  exact ⟨_, output, List.getElem?_eq_getElem known, isOutput⟩

/-- Prefabs with one id have one number. -/
theorem Stamped.job_eq (stamped : Stamped layout plan) {first second : Nat}
    {prefab other : Prefab} (found : plan.compiled.compilation.prefabs[first]? = some prefab)
    (otherFound : plan.compiled.compilation.prefabs[second]? = some other)
    (same : prefab.id = other.id) : first = second := by
  have ids : (plan.compiled.compilation.prefabs.map (·.id))[first]? =
      (plan.compiled.compilation.prefabs.map (·.id))[second]? := by
    simp [found, otherFound, same]
  have inside := (List.getElem?_eq_some_iff.1 found).1
  exact (List.getElem?_inj (by rwa [List.length_map]) stamped.distinct).1 ids

/-- Every artifact is an output. -/
theorem Stamped.exists_of_mem (stamped : Stamped layout plan) :
    ∀ artifact ∈ plan.artifacts.flatten ++ [plan.index], ∃ id output,
      IsOutputOf layout id artifact output := by
  intro artifact member
  rcases List.mem_append.1 member with isPiece | isIndex
  · obtain ⟨own, isOwn, isPiece⟩ := List.mem_flatten.1 isPiece
    obtain ⟨job, isJob⟩ := List.getElem?_of_mem isOwn
    obtain ⟨prefab, output, -, isOutput⟩ := stamped.exists_output ⟨own, isJob, isPiece⟩
    exact ⟨prefab.id, output, isOutput⟩
  · obtain rfl := List.mem_singleton.1 isIndex
    exact ⟨"index", stamped.index⟩

/-- The directories for artifacts are there. -/
def Furnished (root : Path) (layout : OutputLayout) (disk : Disk) : Prop :=
  ∀ directory ∈ layout.directories, ∃ base,
    disk.tree.LeadsTo disk.current (root.join directory) base

/-- The directories for artifacts stay there when more is written. -/
theorem Furnished.later {before after : Disk} (furnished : Furnished root layout before)
    (writes : Writes before after) : Furnished root layout after := by
  intro directory member
  obtain ⟨base, leads⟩ := furnished directory member
  exact ⟨base, writes.current ▸ leads.grows writes.tree⟩

/-- The directories for artifacts are there on all disks that are alike. -/
theorem Furnished.alike {disk other : Disk} (furnished : Furnished root layout disk)
    (same : Alike disk other) : Furnished root layout other := by
  intro directory member
  obtain ⟨base, leads⟩ := furnished directory member
  exact ⟨base, same.current ▸ leads.grows same.tree.grows⟩

/-- An output goes into its directory. -/
theorem IsOutputOf.goes {id : String} {artifact : Artifact} {output : Output} {disk : Disk}
    (isOutput : IsOutputOf layout id artifact output) (furnished : Furnished root layout disk) :
    ∃ base, GoesTo disk.tree disk.current root artifact output base := by
  obtain ⟨base, leads⟩ := furnished _ isOutput.directory
  exact ⟨base, isOutput.path_eq, isOutput.plain, leads⟩

/-- Making a directory changes no file. -/
theorem contents?_ensureDirectory (path : Path) (disk : Disk) :
    (final (ensureDirectory path : OnDisk (Except EmitError Unit)) disk).tree.contents? =
      disk.tree.contents? :=
  contents?_makeDirectories disk.current (Disk.stepsFor path) disk.tree path

/-- Making directories changes no file, and if there was no error they are there. -/
theorem ensureDirectories_spec {directories : List Path} {before after : Disk} {done : PUnit}
    (here : before.tree.kind? before.current = some true)
    (made : value (ensureDirectories root directories).run before = .ok done)
    (leads : final (ensureDirectories root directories).run before = after) :
    after.tree.contents? = before.tree.contents? ∧ ∀ directory ∈ directories, ∃ base,
      after.tree.LeadsTo after.current (root.join directory) base := by
  induction directories generalizing before with
  | nil =>
    subst leads
    exact ⟨rfl, List.forall_mem_nil _⟩
  | cons directory rest ih =>
    have obeys := attempt_obeys (ensureDirectory_obeys (root.join directory))
    rw [ensureDirectories_cons] at made leads
    obtain ⟨_, middle, isMade, toMiddle, writes, made, leads⟩ :=
      obeys.keeps.exists_next made leads
    have stays : middle.tree.kind? middle.current = some true :=
      writes.current ▸ writes.tree _ _ here
    obtain ⟨contents, others⟩ := ih stays made leads
    rw [value_attempt] at isMade
    rw [final_attempt] at toMiddle
    have isThere : makeDirectories before.current (stepsFor (root.join directory)) before.tree
        (root.join directory) = (middle.tree, .ok ()) := by
      rw [← toMiddle]
      exact Prod.ext rfl (mapError_eq_ok.1 isMade)
    have more : Writes middle after := leads ▸ (ensureDirectories_obeys root rest).keeps middle
    refine ⟨contents.trans (toMiddle ▸ contents?_ensureDirectory _ before), ?_⟩
    refine List.forall_mem_cons.2 ⟨?_, others⟩
    obtain ⟨base, leads⟩ := leadsTo_of_makeDirectories here isThere
    exact ⟨base, more.current ▸ writes.current ▸ leads.grows more.tree⟩

/-- The directories for artifacts are there before the artifacts of a plan are written. -/
theorem WritingSteps.isFurnished {schedule : Pool.Schedule} {before furnished stored after : Disk}
    {all index : List Path}
    (steps : WritingSteps schedule root layout plan before furnished stored after all index)
    (here : before.tree.kind? before.current = some true) : Furnished root layout furnished :=
  (ensureDirectories_spec here steps.isMade steps.toFurnished).2

/-- Two artifacts with different files that were written one after the other can be written in
either order. -/
theorem writeArtifact_swap {first second : Artifact} {output other : Output}
    {base otherBase : Location} {disk : Disk} {made result : Path}
    (goes : GoesTo disk.tree disk.current root first output base)
    (otherGoes : GoesTo disk.tree disk.current root second other otherBase)
    (apart : (output.slot base).file ≠ (other.slot otherBase).file)
    (isMade : value (writeArtifact root first : OnDisk (Except EmitError Path)) disk = .ok made)
    (isResult : value (writeArtifact root second : OnDisk (Except EmitError Path))
      (final (writeArtifact root first : OnDisk (Except EmitError Path)) disk) = .ok result) :
    value (writeArtifact root second : OnDisk (Except EmitError Path)) disk = .ok result ∧
      value (writeArtifact root first : OnDisk (Except EmitError Path))
        (final (writeArtifact root second : OnDisk (Except EmitError Path)) disk) = .ok made ∧
      Alike
        (final (writeArtifact root second : OnDisk (Except EmitError Path))
          (final (writeArtifact root first : OnDisk (Except EmitError Path)) disk))
        (final (writeArtifact root first : OnDisk (Except EmitError Path))
          (final (writeArtifact root second : OnDisk (Except EmitError Path)) disk)) := by
  have writable := writeArtifact_writable goes isMade
  have stored := writeArtifact_stores goes writable
  have otherLater := otherGoes.later (writeArtifact_writes root first disk)
  have otherWritable := writeArtifact_writable otherLater isResult
  have otherStored := writeArtifact_stores otherLater otherWritable
  obtain ⟨otherFits, fits, swapped⟩ := Slot.swap apart writable.fits
    (stored.stored ▸ otherWritable.fits)
  have otherFirst := writeArtifact_stores otherGoes
    ⟨otherWritable.good, otherWritable.names, otherFits⟩
  have later := writeArtifact_stores (goes.later (writeArtifact_writes root second disk))
    ⟨writable.good, writable.names, otherFirst.stored ▸ fits⟩
  refine ⟨?_, ?_, ?_, ?_, ?_, ?_⟩
  · rw [otherFirst.succeeds, ← isResult, otherStored.succeeds]
  · rw [later.succeeds, ← isMade, stored.succeeds]
  · rw [FileTree.Same, otherStored.stored, stored.stored, later.stored, otherFirst.stored, swapped]
  · rw [otherStored.current, stored.current, later.current, otherFirst.current]
  · rw [otherStored.locked, stored.locked, later.locked, otherFirst.locked]
  · rw [otherStored.notices, stored.notices, later.notices, otherFirst.notices]

/-- Artifacts of different prefabs can be written in either order. -/
theorem writeArtifact_commuting (root : Path) (stamped : Stamped layout plan) :
    Pool.Commuting Alike (Furnished root layout)
      (writeArtifact root : Artifact → OnDisk (Except EmitError Path)) plan.artifacts := by
  constructor
  case stays =>
    exact fun {_ artifact disk} _ furnished =>
      furnished.later (writeArtifact_writes root artifact disk)
  case together => exact fun same furnished => furnished.alike same
  case sameValue => exact fun artifact same => (writeArtifact_twins root artifact _ _ same).value
  case sameFinal => exact fun artifact same => (writeArtifact_twins root artifact _ _ same).final
  case swap =>
    intro first second artifact other disk made result different isFirst isSecond furnished
      isMade isResult
    obtain ⟨prefab, output, found, isOutput⟩ := stamped.exists_output isFirst
    obtain ⟨otherPrefab, otherOutput, otherFound, isOther⟩ := stamped.exists_output isSecond
    obtain ⟨base, goes⟩ := isOutput.goes furnished
    obtain ⟨otherBase, otherGoes⟩ := isOther.goes furnished
    have apart : (output.slot base).file ≠ (otherOutput.slot otherBase).file := by
      refine Output.slot_file_ne (fun same => different ?_) base otherBase
      exact stamped.job_eq found otherFound (by rw [← isOutput.prefabId, same, isOther.prefabId])
    exact writeArtifact_swap goes otherGoes apart isMade isResult

/-- Writing that succeeds under one schedule does the same under every one. -/
theorem writePlan_sameAt (first second : Pool.Schedule) (stamped : Stamped layout plan)
    {disk other : Disk} (same : Alike disk other)
    (here : disk.tree.kind? disk.current = some true) {paths : List Path}
    (succeeded : value (writePlan first root layout plan : Step OnDisk (List Path)).run disk =
      .ok paths) :
    SameAt Alike (writePlan first root layout plan : Step OnDisk (List Path)).run
      (writePlan second root layout plan : Step OnDisk (List Path)).run disk other := by
  obtain ⟨disk₁, _, _, _, steps, -⟩ := exists_steps_of_writePlan first root succeeded rfl
  rw [writePlan_eq, writePlan_eq]
  have directories := ensureDirectories_twins root layout.directories _ _ same
  refine directories.run_bind fun _ _ => ?_
  have sameDirectories := directories.final
  rw [steps.toFurnished] at sameDirectories ⊢
  obtain ⟨results, finals⟩ := Pool.runJobs_confluent (writeArtifact_commuting root stamped) first
    second sameDirectories (steps.isFurnished here) steps.allMade
  have pool : SameAt Alike (writeAll first root plan.artifacts)
      (writeAll second root plan.artifacts) disk₁ _ :=
    SameAt.bind ⟨results.symm, finals⟩ fun _ => .pure _
  exact (attempt_sameAt pool).run_bind fun _ _ => Twins.run_bind
    (attempt_twins (writeArtifacts_twins root _)) (fun _ => .run_pure _) _ _
      (attempt_sameAt pool).final

/-- The file that an artifact becomes: its place on a disk and its contents. -/
def fileOf (root : Path) (disk : Disk) (artifact : Artifact) : Option Location × ByteArray :=
  (disk.tree.place? disk.current (root.join artifact.path), artifact.contents.toUTF8)

/-- The artifacts as files have the places of their paths. -/
theorem places_of_artifacts (root : Path) (disk : Disk) (artifacts : List Artifact) :
    (artifacts.map (fileOf root disk)).map (·.1) =
      (artifacts.map fun artifact => root.join artifact.path).map
        (disk.tree.place? disk.current) := by
  simp [fileOf]

/-- An artifact that has been written has the place of its output. -/
theorem GoesTo.place?_eq {artifact : Artifact} {output : Output} {base : Location}
    {disk after : Disk} (goes : GoesTo disk.tree disk.current root artifact output base)
    (writes : Writes disk after)
    (isFile : after.tree.isFileAt after.current (root.join artifact.path)) :
    after.tree.place? after.current (root.join artifact.path) = some (output.slot base).file := by
  have goes := goes.later writes
  obtain ⟨location, leads, -⟩ := isFileAt_iff_place?.1 isFile
  have walks := (place?_eq_some.1 leads).2
  rw [goes.path_eq, join_path root goes.plain] at walks
  rw [leads, walk_pathBelow goes.leads goes.plain walks]
  rfl

/-- An artifact that is written is the one file that changes. -/
theorem contents_of_writeArtifact {id : String} {artifact : Artifact} {output : Output}
    {before after : Disk} (isOutput : IsOutputOf layout id artifact output)
    (furnished : Furnished root layout before) {made : Path}
    (succeeded : value (writeArtifact root artifact : OnDisk (Except EmitError Path)) before =
      .ok made)
    (more : Writes (final (writeArtifact root artifact : OnDisk (Except EmitError Path)) before)
      after) :
    (final (writeArtifact root artifact : OnDisk (Except EmitError Path)) before).tree.contents? =
      overlay [fileOf root after artifact] before.tree.contents? := by
  obtain ⟨base, goes⟩ := isOutput.goes furnished
  have writable := writeArtifact_writable goes succeeded
  have isFile := ((writeArtifact_written root succeeded).stays more).isFile
  have place := goes.place?_eq (trans_of Writes (writeArtifact_writes root artifact before) more)
    isFile
  funext location
  rw [contents?, (writeArtifact_stores goes writable).stored, Slot.contents_store writable.fits,
    overlay, overlay, fileOf, place]
  simp only [Option.some.injEq, eq_comm]
  rfl

/-- Artifacts that were written one after the other are stored so. -/
theorem contents_of_performed {deeds : List (Pool.Deed Artifact Path EmitError)}
    {before after later : Disk}
    (performed : Pool.Performed (writeArtifact root : Artifact → OnDisk (Except EmitError Path))
      before deeds after) (furnished : Furnished root layout before)
    (known : ∀ deed ∈ deeds, ∃ id output, IsOutputOf layout id deed.piece output)
    (more : Writes after later) :
    after.tree.contents? =
        overlay ((deeds.map (·.piece)).map (fileOf root later)) before.tree.contents? ∧
      Writes before after := by
  induction performed with
  | nil disk => exact ⟨rfl, refl_of Writes disk⟩
  | @cons before after deeds artifact made job good rest ih =>
    obtain ⟨⟨id, output, isOutput⟩, others⟩ := List.forall_mem_cons.1 known
    have writes := writeArtifact_writes root artifact before
    obtain ⟨contents, restWrites⟩ := ih (furnished.later writes) others more
    refine ⟨?_, trans_of Writes writes restWrites⟩
    rw [contents, contents_of_writeArtifact isOutput furnished good
      (trans_of Writes restWrites more), ← overlay_append]
    rfl

/-- A pool that has written all artifacts has stored them as if one after the other. -/
theorem contents_of_writeAll {schedule : Pool.Schedule} (stamped : Stamped layout plan)
    {before after : Disk} (furnished : Furnished root layout before) {paths : List Path}
    (succeeded : value (writeAll schedule root plan.artifacts) before = .ok paths)
    (leads : final (writeAll schedule root plan.artifacts) before = after) :
    after.tree.contents? =
      overlay (plan.artifacts.flatten.map (fileOf root after)) before.tree.contents? := by
  obtain ⟨deeds, last, performed, pieces, same⟩ :=
    Pool.runJobs_in_order (writeArtifact_commuting root stamped) furnished succeeded
  replace same : Alike after last := leads ▸ same
  have known : ∀ deed ∈ deeds, ∃ id output, IsOutputOf layout id deed.piece output := by
    intro deed member
    refine stamped.exists_of_mem _ (List.mem_append_left _ ?_)
    exact pieces ▸ List.mem_map_of_mem member
  have files : fileOf root last = fileOf root after := by
    funext artifact
    rw [fileOf, fileOf, ← same.current, ← same.tree.place?]
  rw [same.tree.contents?, (contents_of_performed performed furnished known
    (refl_of Writes last)).1, pieces, files]

/-- Writing the index stores it. -/
theorem contents_of_writeIndex (stamped : Stamped layout plan) {before after : Disk}
    (furnished : Furnished root layout before) {paths : List Path}
    (succeeded : value (writeArtifacts root [plan.index] : OnDisk (Except EmitError (List Path)))
      before = .ok paths)
    (leads : final (writeArtifacts root [plan.index] : OnDisk (Except EmitError (List Path)))
      before = after) :
    after.tree.contents? = overlay [fileOf root after plan.index] before.tree.contents? := by
  obtain ⟨output, isIndex⟩ := stamped.index
  rw [writeArtifacts_cons] at succeeded leads
  obtain ⟨_, middle, made, toMiddle, -, -, leads⟩ :=
    (writeArtifact_obeys root plan.index).keeps.exists_next succeeded leads
  rw [ExceptT.run_mk] at made toMiddle
  have told : Silent middle after := leads ▸ ⟨rfl, rfl, rfl, rfl⟩
  rw [told.tree, ← toMiddle]
  exact contents_of_writeArtifact isIndex furnished made (toMiddle ▸ told.writes)

/-- Writing what has been planned stores all artifacts one after the other, the index last. -/
theorem contents_of_writePlan {schedule : Pool.Schedule} (stamped : Stamped layout plan)
    {before after : Disk} (here : before.tree.kind? before.current = some true)
    {paths : List Path}
    (succeeded : value (writePlan schedule root layout plan : Step OnDisk (List Path)).run before =
      .ok paths)
    (leads : final (writePlan schedule root layout plan : Step OnDisk (List Path)).run before =
      after) :
    after.tree.contents? =
      overlay ((plan.artifacts.flatten ++ [plan.index]).map (fileOf root after))
        before.tree.contents? := by
  obtain ⟨disk₁, disk₂, _, _, steps, -⟩ := exists_steps_of_writePlan schedule root succeeded leads
  have furnished := steps.isFurnished here
  have furnishedContents : disk₁.tree.contents? = before.tree.contents? :=
    (ensureDirectories_spec here steps.isMade steps.toFurnished).1
  have files : plan.artifacts.flatten.map (fileOf root disk₂) =
      plan.artifacts.flatten.map (fileOf root after) := by
    refine List.map_congr_left fun artifact member => ?_
    have written : Written root artifact disk₁ disk₂ :=
      steps.toStored ▸ writeAll_written schedule root steps.allMade artifact member
    obtain ⟨location, isPlace, -⟩ := isFileAt_iff_place?.1 written.isFile
    rw [fileOf, fileOf, isPlace, steps.indexing.current, place?_grows steps.indexing.tree isPlace]
  rw [contents_of_writeIndex stamped (furnished.later steps.storing) steps.indexMade steps.toAfter,
    contents_of_writeAll stamped furnished steps.allMade steps.toStored, files, furnishedContents,
    ← overlay_append, List.map_append]
  rfl

end PhysicsPrefab.Run
