import Mathlib.Data.List.ReduceOption
import PhysicsPrefab.Proofs.Project.Reading

/-!
# Planning

Everything up to the first write only reads (`Run.plan_isReader`). A plan that is made has all
that it needs (`Run.plan_prepared`): every source was read and parsed, every prefab compiled, the
templates loaded and every artifact built, all of it from the tree as it was. The files that a
plan is made from were really read (`Run.Prepared.read`).
-/

namespace PhysicsPrefab

open Program

namespace Run

variable (schedule : Pool.Schedule) (root : Path) (config : Config) (directory : Path)

/-- Reading a file is an effect. -/
theorem readText_did_read (path : Path) (disk : Disk) :
    disk.Did (.read path)
      (final (Storage.readText path : OnDisk (Except StorageFault String)) disk) :=
  ⟨[.read path], disk.history_note (.read path), List.mem_singleton_self _⟩

/-- What a worker does with a source. -/
def loadSource (path : Path) : OnDisk (Except ModelError (Model Float)) :=
  return (← Model.load path).value

/-- Loading a source is reading. -/
theorem loadSource_isReader (path : Path) : IsReader (loadSource path) :=
  .bind (.load path) fun _ => .pure _

/-- What a pool of workers makes of all sources. -/
def loadSources (sources : List Path) : OnDisk (Except ModelError (List (Model Float))) :=
  return Pool.collect (← Pool.runJobs schedule loadSource (sources.map ([·])))

/-- Sources are read by a pool of workers. -/
theorem readSources_eq (sources : List Path) :
    (readSources schedule sources : Step OnDisk (List (Model Float))) =
      attempt .model (loadSources schedule sources) := rfl

/-- Reading all sources is reading. -/
theorem readSources_isReader (sources : List Path) :
    IsReader (readSources schedule sources : Step OnDisk (List (Model Float))).run :=
  .attempt (.bind (.runJobs loadSource_isReader schedule _) fun _ => .pure _)

/-- Sources are read as if one after the other, whatever the schedule. -/
theorem value_loadSources (sources : List Path) (disk : Disk) :
    value (loadSources schedule sources) disk =
      sources.mapM fun path => value (loadSource path) disk := by
  have answers := Pool.value_runJobs_of_same (fun path => (loadSource_isReader path).reads)
    (fun path _ _ => (loadSource_isReader path).value_eq) schedule (sources.map ([·])) disk
  rw [loadSources, value_bind, value_pure, answers, Pool.collect_singletons]

/-- Loading a model reads its file. -/
theorem load_did_read (path : Path) (disk : Disk) :
    disk.Did (.read path)
      (final (Model.load path : OnDisk (Noted (Except ModelError (Model Float)))) disk) :=
  IsReader.did_bind (fun result => by cases result <;> exact .pure _) (readText_did_read path disk)

/-- Sources that could all be loaded have all been read. -/
theorem readSources_did_read {sources : List Path} {models : List (Model Float)} {disk : Disk}
    (loaded : value (readSources schedule sources : Step OnDisk _).run disk = .ok models) :
    ∀ path ∈ sources, disk.Did (.read path)
      (final (readSources schedule sources : Step OnDisk (List (Model Float))).run disk) := by
  have gathered : Pool.collect (value (Pool.runJobs schedule loadSource (sources.map ([·]))) disk) =
      .ok models := by
    rwa [readSources_eq, value_attempt, loadSources, value_bind, value_pure] at loaded
  intro path member
  exact Pool.runJobs_established (fun path => (loadSource_isReader path).reads)
    (fun path state next (more : Disk.Reads state next) (did : disk.Did (.read path) state) =>
      did.before more.happens)
    (fun path state _ earlier _ => (load_did_read path state).after earlier.happens)
    gathered [path] (List.mem_map_of_mem member) path (List.mem_singleton_self _)

/-- The files that the templates are read from. -/
def templateFiles (behavior appearance geometry : Option Path) : List Path :=
  [behavior, appearance, geometry].reduceOption

/-- A file is one of those if a template is read from it. -/
theorem mem_templateFiles {behavior appearance geometry : Option Path} {path : Path} :
    path ∈ templateFiles behavior appearance geometry ↔
      path ∈ behavior ∨ path ∈ appearance ∨ path ∈ geometry := by
  simp [templateFiles, List.reduceOption_mem_iff, Option.mem_def, eq_comm]

/-- A template is read from its file, if it has one. -/
theorem template_did_read {α : Type} {readFile : Path → ExceptT EmitError OnDisk α}
    (reads : ∀ (path : Path) (disk : Disk),
      disk.Did (.read path) (final (readFile path).run disk))
    (file : Option Path) (builtin : α) (disk : Disk) :
    ∀ path ∈ file, disk.Did (.read path)
      (final ((file.map readFile).getD (pure builtin)).run disk) := by
  rintro path rfl
  exact reads path disk

/-- Templates that could be loaded have been read from their files. -/
theorem loadTemplates_did_read {behavior appearance geometry : Option Path}
    {templates : Templates} {disk : Disk}
    (loaded : value (Templates.load behavior appearance geometry :
      ExceptT EmitError OnDisk Templates).run disk = .ok templates) :
    ∀ path ∈ templateFiles behavior appearance geometry, disk.Did (.read path)
      (final (Templates.load behavior appearance geometry :
        ExceptT EmitError OnDisk Templates).run disk) := by
  have texts : ∀ (path : Path) (disk : Disk), disk.Did (.read path)
      (final (Templates.readText path : ExceptT EmitError OnDisk String).run disk) :=
    fun path disk => IsReader.did_lift (fun result => by cases result <;> exact .pure _)
      (readText_did_read path disk)
  have models : ∀ (path : Path) (disk : Disk), disk.Did (.read path)
      (final (Templates.readModel path : ExceptT EmitError OnDisk (Model Float)).run disk) :=
    fun path disk => IsReader.did_lift IsReader.adoptTemplate (load_did_read path disk)
  unfold Templates.load at loaded
  obtain ⟨builtin, disk₁, -, -, reads₁, loaded, last⟩ :=
    IsReader.exists_next (.publish _) loaded rfl
  obtain ⟨_, disk₂, -, toDisk₂, reads₂, loaded, last⟩ :=
    IsReader.exists_next (.template .textTemplate _ _) loaded last
  obtain ⟨_, disk₃, -, toDisk₃, reads₃, loaded, last⟩ :=
    IsReader.exists_next (.template .textTemplate _ _) loaded last
  obtain ⟨_, disk₄, -, toDisk₄, reads₄, -, last⟩ :=
    IsReader.exists_next (.template .modelTemplate _ _) loaded last
  have behaviorRead := template_did_read texts behavior builtin.behavior disk₁
  have appearanceRead := template_did_read texts appearance builtin.appearance disk₂
  have geometryRead := template_did_read models geometry builtin.geometry disk₃
  rw [toDisk₂] at behaviorRead
  rw [toDisk₃] at appearanceRead
  rw [toDisk₄] at geometryRead
  intro path member
  rcases mem_templateFiles.1 member with isBehavior | isAppearance | isGeometry
  · have rest := trans_of Disk.Reads reads₃ reads₄
    exact last ▸ ((behaviorRead path isBehavior).before rest.happens).after reads₁.happens
  · have start := trans_of Disk.Reads reads₁ reads₂
    exact last ▸ ((appearanceRead path isAppearance).before reads₄.happens).after start.happens
  · have start := trans_of Disk.Reads (trans_of Disk.Reads reads₁ reads₂) reads₃
    exact last ▸ (geometryRead path isGeometry).after start.happens

/-- What a plan has been made from, and that all of it was there and was read. -/
structure Prepared (before planned : Disk) (sources : List Path) (models : List (Model Float))
    (templates : Templates) (plan : Plan) : Prop where
  /-- The sources are all that were found. -/
  discovered : value (Sources.discover directory : OnDisk _) before = .ok sources
  /-- Each was read and parsed. -/
  loaded : List.Forall₂ (fun path model =>
    value (loadSource path) before = .ok model) sources models
  /-- Their models were compiled. -/
  compiled : plan.compiled =
    (compileSources (sources.zip models) ⟨[], [], Compilation.empty⟩).value
  /-- The templates were loaded. -/
  templatesLoaded : value (Templates.load (config.templates.behavior.map root.join)
    (config.templates.appearance.map root.join) (config.templates.geometry.map root.join) :
      ExceptT EmitError OnDisk Templates).run before = .ok templates
  /-- All artifacts of all prefabs were made. -/
  artifacts : (plan.compiled.compilation.prefabs.mapM
    (Emitter.mk config.layout templates config.defaultMass).prefabArtifacts).run.value =
      .ok plan.artifacts
  /-- The index was made. -/
  index : plan.index = (Emitter.mk config.layout templates config.defaultMass).indexArtifact
    plan.compiled.compilation.prefabs
  /-- Every source and every template that has a file was read from it. -/
  read : ∀ path ∈ sources ++ templateFiles (config.templates.behavior.map root.join)
    (config.templates.appearance.map root.join) (config.templates.geometry.map root.join),
      before.Did (.read path) planned

/-- Making a plan is reading. -/
theorem plan_isReader :
    IsReader (Run.plan schedule root config directory : Step OnDisk Plan).run := by
  unfold Run.plan
  exact .run_bind (.attempt (.discover _)) fun sources => .run_bind (.note _ _) fun _ =>
    .run_bind (readSources_isReader schedule sources) fun models =>
    .run_bind (.run_lift (.publish _)) fun compiled => .run_bind (.run_forIn (fun prefab =>
    .run_bind (.note _ _) fun _ => .run_pure _) _) fun _ =>
    .run_bind (.attempt (.loadTemplates _ _ _)) fun templates =>
    .run_bind (.attempt (.publish _)) fun artifacts => .note_unless _ _ _ _

/-- A plan that has been made has all that it needs. -/
theorem plan_prepared {before : Disk} {plan : Plan}
    (made : value (Run.plan schedule root config directory : Step OnDisk Plan).run before =
      .ok plan) :
    ∃ sources models templates, Prepared root config directory before
      (final (Run.plan schedule root config directory : Step OnDisk Plan).run before)
      sources models templates plan := by
  unfold Run.plan at made ⊢
  obtain ⟨sources, disk₁, discovered, -, reads₁, made, last⟩ :=
    IsReader.exists_next (.attempt (.discover _)) made rfl
  obtain ⟨_, disk₂, -, -, reads₂, made, last⟩ := IsReader.exists_next (.note _ _) made last
  obtain ⟨models, disk₃, loaded, toDisk₃, reads₃, made, last⟩ :=
    IsReader.exists_next (readSources_isReader schedule sources) made last
  obtain ⟨compiled, disk₄, published, -, reads₄, made, last⟩ :=
    IsReader.exists_next (.run_lift (.publish _)) made last
  obtain ⟨_, disk₅, -, -, reads₅, made, last⟩ := IsReader.exists_next (.run_forIn (fun prefab =>
    .run_bind (.note _ _) fun _ => .run_pure _) _) made last
  obtain ⟨templates, disk₆, templatesLoaded, toDisk₆, reads₆, made, last⟩ :=
    IsReader.exists_next (.attempt (.loadTemplates _ _ _)) made last
  obtain ⟨artifacts, disk₇, stamped, -, reads₇, made, last⟩ :=
    IsReader.exists_next (.attempt (.publish _)) made last
  have reads₈ := last ▸ (IsReader.note_unless _ _ _ _).reads disk₇
  have toSources := trans_of Disk.Reads reads₁ reads₂
  have toTemplates := trans_of Disk.Reads (trans_of Disk.Reads (trans_of Disk.Reads toSources
    reads₃) reads₄) reads₅
  have isPlan : plan = ⟨compiled, artifacts, (Emitter.mk config.layout templates
      config.defaultMass).indexArtifact compiled.compilation.prefabs⟩ :=
    Except.ok.inj (made.symm.trans (IsReader.value_note_unless _ _ _ _ disk₇))
  subst isPlan
  have sourcesRead := toDisk₃ ▸ readSources_did_read schedule loaded
  rw [value_attempt] at discovered templatesLoaded stamped
  rw [final_attempt] at toDisk₆
  have templatesRead := toDisk₆ ▸ loadTemplates_did_read templatesLoaded
  rw [readSources_eq, value_attempt, value_loadSources] at loaded
  refine ⟨sources, models, templates, discovered, ?_, ?_, ?_, ?_, rfl, ?_⟩
  · simp only [(loadSource_isReader _).value_eq toSources] at loaded
    exact Answer.forall₂_of_mapM_eq_ok loaded
  · exact (Except.ok.inj published).symm
  · exact (IsReader.loadTemplates _ _ _).value_eq toTemplates ▸ templatesLoaded
  · exact stamped
  · intro path member
    have rest := trans_of Disk.Reads reads₇ reads₈
    rcases List.mem_append.1 member with isSource | isTemplate
    · have rest := trans_of Disk.Reads (trans_of Disk.Reads (trans_of Disk.Reads reads₄ reads₅)
        reads₆) rest
      exact ((sourcesRead path isSource).before rest.happens).after toSources.happens
    · exact ((templatesRead path isTemplate).before rest.happens).after toTemplates.happens

end Run

end PhysicsPrefab
