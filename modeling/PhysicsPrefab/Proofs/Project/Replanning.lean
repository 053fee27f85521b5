import PhysicsPrefab.Proofs.Model.Rereading
import PhysicsPrefab.Proofs.Project.Histories
import PhysicsPrefab.Proofs.Project.Overlap
import PhysicsPrefab.Proofs.Project.Restoring

/-!
# Planning once more

The models that a run has put among its sources are sources of the next run. They can be loaded and
take no part in the physics, so the next run finds the same sources that take part, in the same
order, and plans the same artifacts (`Run.Concluded.replanned`).
-/

namespace PhysicsPrefab

open Disk Program FileTree

/-- After reading, a reader that succeeds is followed by what comes next. -/
theorem IsReader.then_ok {α β ε : Type} {program : ExceptT ε OnDisk α}
    {next : α → ExceptT ε OnDisk β} (first : IsReader program.run) {before disk : Disk}
    (reads : Reads before disk) {made : α} (isMade : value program.run before = .ok made)
    {result : β} (rest : ∀ later, Reads before later → value (next made).run later = .ok result) :
    value (program >>= next).run disk = .ok result := by
  have isMade := (first.value_eq reads).trans isMade
  rw [(run_bind_ok program next disk isMade).1]
  exact rest _ (trans_of Reads reads (first.reads disk))

namespace Run

open Emitter

variable {root : Path} {config : Config} {before planned written after disk other : Disk}
  {sources deleted : List Path} {models : List (Model Float)} {templates : Templates} {plan : Plan}

/-- Loading a source is reading and parsing it. -/
theorem value_loadSource (path : Path) (disk : Disk) :
    value (loadSource path) disk =
      match disk.tree.readText disk.current path with
      | .error cause => .error (.unreadable path cause)
      | .ok text => (Model.parse text).mapError (.malformed path) := by
  have answer : value (Storage.readText path : OnDisk (Except StorageFault String)) disk =
      disk.tree.readText disk.current path := rfl
  rw [loadSource, Model.load, value_bind, value_bind, answer]
  cases disk.tree.readText disk.current path with
  | error fault => rfl
  | ok text =>
    change (Model.ofText path text).run.value = (Model.parse text).mapError (.malformed path)
    rw [Model.ofText]
    cases Model.parse text <;> rfl

/-- A source that can be loaded has been read and parsed. -/
theorem loadSource_eq_ok {path : Path} {model : Model Float} :
    value (loadSource path) disk = .ok model ↔ ∃ text,
      disk.tree.readText disk.current path = .ok text ∧ Model.parse text = .ok model := by
  rw [value_loadSource]
  cases disk.tree.readText disk.current path with
  | error fault => simp
  | ok text => simp [mapError_eq_ok]

/-- A source with the same text is loaded alike. -/
theorem loadSource_congr {path : Path}
    (same : other.tree.readText other.current path = disk.tree.readText disk.current path) :
    value (loadSource path) other = value (loadSource path) disk := by
  rw [value_loadSource, value_loadSource, same]

/-- What can be loaded and takes no part in the physics. -/
def IsIdle (disk : Disk) (path : Path) : Prop :=
  ∃ model, value (loadSource path) disk = .ok model ∧ takesPart (path, model) = false

/-- Telling of every prefab does not fail. -/
theorem exists_value_notes (disk : Disk) (prefabs : List Prefab) : ∃ done,
    value (forIn prefabs PUnit.unit fun prefab _ => do
      note .debug ("compiled " ++ prefab.toValue.text)
      return .yield PUnit.unit : Step OnDisk PUnit).run disk = .ok done := by
  induction prefabs generalizing disk with
  | nil => exact ⟨_, rfl⟩
  | cons prefab rest ih =>
    rw [List.forIn_cons, bind_assoc]
    exact ih _

/-- A plan is made from sources and templates that can be loaded, if artifacts are made from
them. -/
theorem value_plan (schedule : Pool.Schedule) {directory : Path}
    {artifacts : List (List Artifact)} {compiled : Compiled}
    (discovered : value (Sources.discover directory : OnDisk _) before = .ok sources)
    (loaded : List.Forall₂ (fun path model => value (loadSource path) before = .ok model) sources
      models)
    (isCompiled : (compileSources (sources.zip models) ⟨[], [], Compilation.empty⟩).value = compiled)
    (templatesLoaded : value (Templates.load (config.templates.behavior.map root.join)
      (config.templates.appearance.map root.join) (config.templates.geometry.map root.join) :
        ExceptT EmitError OnDisk Templates).run before = .ok templates)
    (made : (compiled.compilation.prefabs.mapM
      (Emitter.mk config.layout templates config.defaultMass).prefabArtifacts).run.value =
        .ok artifacts) :
    value (Run.plan schedule root config directory : Step OnDisk Plan).run before =
      .ok ⟨compiled, artifacts, (Emitter.mk config.layout templates
        config.defaultMass).indexArtifact compiled.compilation.prefabs⟩ := by
  subst isCompiled
  unfold Run.plan
  refine IsReader.then_ok (.attempt (.discover _)) (refl_of Reads before)
    (value_attempt.2 discovered) fun disk₁ reads₁ => ?_
  refine IsReader.then_ok (.note _ _) reads₁ rfl fun disk₂ reads₂ => ?_
  have areRead : value (readSources schedule sources : Step OnDisk _).run before = .ok models := by
    rw [readSources_eq, value_attempt, value_loadSources]
    exact Answer.mapM_eq_ok_iff.2 loaded
  refine IsReader.then_ok (readSources_isReader schedule sources) reads₂ areRead
    fun disk₃ reads₃ => ?_
  refine IsReader.then_ok (.run_lift (.publish _)) reads₃ rfl fun disk₄ reads₄ => ?_
  obtain ⟨done, noted⟩ := exists_value_notes before
    (compileSources (sources.zip models) ⟨[], [], Compilation.empty⟩).value.compilation.prefabs
  refine IsReader.then_ok (.run_forIn (fun prefab => .run_bind (.note _ _) fun _ => .run_pure _) _)
    reads₄ noted fun disk₅ reads₅ => ?_
  refine IsReader.then_ok (.attempt (.loadTemplates _ _ _)) reads₅
    (value_attempt.2 templatesLoaded) fun disk₆ reads₆ => ?_
  refine IsReader.then_ok (.attempt (.publish _)) reads₆ (value_attempt.2 made)
    fun disk₇ reads₇ => ?_
  exact IsReader.value_note_unless _ _ _ _ disk₇

/-- The path of one entry comes before that of another. -/
def ComesBefore (left right : Path × Model Float) : Prop := left.1.before right.1 = true

/-- Entries in order are known from what is among them. -/
theorem eq_of_mem_iff {entries others : List (Path × Model Float)}
    (ordered : entries.Pairwise ComesBefore) (othersOrdered : others.Pairwise ComesBefore)
    (same : ∀ entry, entry ∈ entries ↔ entry ∈ others) : entries = others := by
  have irreflexive (entry : Path × Model Float) : ¬ ComesBefore entry entry :=
    fun isBefore => lt_irrefl _ (Path.before_iff.1 isBefore)
  have distinct {some : List (Path × Model Float)} (inOrder : some.Pairwise ComesBefore) :
      some.Nodup := by
    refine inOrder.imp ?_
    rintro entry _ isBefore rfl
    exact irreflexive entry isBefore
  have perm := (List.perm_ext_iff_of_nodup (distinct ordered) (distinct othersOrdered)).2 same
  refine perm.eq_of_pairwise (fun left right _ _ forth back => ?_) ordered othersOrdered
  have isLess := (Path.before_iff.1 forth).trans (Path.before_iff.1 back)
  exact absurd isLess (lt_irrefl _)

/-- Sources in order stay so with their models, and without some of them. -/
theorem pairwise_zip {paths : List Path} {made : List (Model Float)}
    (length : paths.length = made.length)
    (ordered : paths.Pairwise fun left right => left.before right = true) :
    ((paths.zip made).filter takesPart).Pairwise ComesBefore := by
  rw [← List.map_fst_zip (Nat.le_of_eq length)] at ordered
  exact (List.pairwise_map.1 ordered).sublist List.filter_sublist

/-- Each source stands beside its model. -/
theorem mem_filter_zip {paths : List Path} {made : List (Model Float)}
    (loaded : List.Forall₂ (fun path model => value (loadSource path) disk = .ok model) paths made)
    {path : Path} {model : Model Float} :
    (path, model) ∈ (paths.zip made).filter takesPart ↔
      (path ∈ paths ∧ value (loadSource path) disk = .ok model) ∧ takesPart (path, model) = true := by
  rw [List.mem_filter, Answer.mem_zip_iff loaded fun _ _ _ isFirst isSecond =>
    Except.ok.inj (isFirst.symm.trans isSecond)]

/-- All numbers of the cubes that a plan draws are finite. -/
def Plan.IsFinite (plan : Plan) : Prop :=
  ∀ prefab ∈ plan.compiled.compilation.prefabs, ∀ body ∈ prefab.bodies,
    ∀ cube ∈ body.cubes, cube.IsFinite

instance (plan : Plan) : Decidable plan.IsFinite :=
  inferInstanceAs (Decidable (∀ prefab ∈ plan.compiled.compilation.prefabs, ∀ body ∈ prefab.bodies,
    ∀ cube ∈ body.cubes, cube.IsFinite))

/-- The cubes of the bodies of a plan fit in their place. -/
theorem Prepared.fitsIn {directory : Path}
    (prepared : Prepared root config directory before planned sources models templates plan) :
    ∀ prefab ∈ plan.compiled.compilation.prefabs, ∀ body ∈ prefab.bodies,
      ∀ cube ∈ body.cubes, cube.FitsIn Cube.depthLimit := by
  intro prefab isPrefab body isBody cube isCube
  rw [prepared.compiled, value_compileSources] at isPrefab
  obtain ⟨geometry, isGeometry, sound⟩ := (Compilation.foldl_recordGeometry_sound
    Compilation.empty_sound _).prefabs prefab isPrefab
  obtain ⟨⟨path, model⟩, isEntry, isGeometry⟩ := List.mem_flatMap.1 isGeometry
  have isLoaded := List.forall₂_iff_zip.1 prepared.loaded
  obtain ⟨text, -, parsed⟩ := loadSource_eq_ok.1 (isLoaded.2 (List.mem_filter.1 isEntry).1)
  exact sound.fitsIn (Model.cubesFitIn_of_parse parsed geometry isGeometry) body isBody cube isCube

/-- The model of a body that is drawn can be loaded and takes no part in the physics. -/
theorem Prepared.isIdle {directory : Path}
    (prepared : Prepared root config directory before planned sources models templates plan)
    (finite : plan.IsFinite) {entry : String × Body Float} (isDrawn : entry ∈ plan.drawn)
    {path : Path} (isRead : disk.tree.readText disk.current path =
      .ok (modelFile config.layout entry.1 entry.2).contents) : IsIdle disk path := by
  obtain ⟨prefab, isPrefab, isEntry⟩ := List.mem_flatMap.1 isDrawn
  obtain ⟨body, isBody, rfl⟩ := List.mem_map.1 isEntry
  have isBody := List.mem_of_mem_filter isBody
  obtain ⟨model, parsed, noPart⟩ := Template.exists_parse_stamped
    (geometryIdentifier prefab.id body.id) (finite prefab isPrefab body isBody)
    (prepared.fitsIn prefab isPrefab body isBody)
  exact ⟨model, loadSource_eq_ok.2 ⟨_, isRead, parsed⟩, noPart⟩

section

variable (formed : before.WellFormed)
  (prepared : Prepared root config (root.join config.sourceDirectory) before planned sources models
    templates plan)
  (concluded : Concluded root config plan before written after deleted)
  (onlyKeeps : config.OnlyKeeps)

include concluded onlyKeeps

/-- A run that keeps its sources changes nothing after it has written. -/
theorem Concluded.same : written.tree.Same after.tree ∧ after.current = before.current := by
  have none : deleted = [] := by rw [concluded.deleted, if_pos onlyKeeps.keepSources]
  refine ⟨?_, concluded.removed.current.trans concluded.current⟩
  funext location
  rw [concluded.removed.entries, none, List.map_nil, if_neg List.not_mem_nil]

include formed prepared

/-- After a run that keeps its sources a place holds the last artifact that goes there, or else what
it held. -/
theorem Concluded.holds (location : Location) :
    after.tree.contents? location =
      match lastStored root after (plan.artifacts.flatten ++ [plan.index]) location with
      | some artifact => some artifact.contents.toUTF8
      | none => before.tree.contents? location := by
  have none : deleted = [] := by rw [concluded.deleted, if_pos onlyKeeps.keepSources]
  rw [concluded.contents?_eq formed prepared, none, List.map_nil, if_neg List.not_mem_nil]
  exact overlay_fileOf root after _ _ location

/-- A source that no artifact was written over is read as before. -/
theorem Concluded.readText_source {source : Path} (isSource : source ∈ sources)
    (apart : ∀ artifact ∈ plan.artifacts.flatten ++ [plan.index],
      after.tree.place? after.current (root.join artifact.path) ≠
        after.tree.place? after.current source) :
    after.tree.readText after.current source = before.tree.readText before.current source := by
  obtain ⟨location, contents, kept⟩ :=
    concluded.kept formed prepared onlyKeeps.keepSources isSource
  have nothing : lastStored root after (plan.artifacts.flatten ++ [plan.index]) location = none :=
    lastStored_eq_none.2 fun artifact member => kept.isAt ▸ apart artifact member
  have holds := kept.holds
  rw [nothing] at holds
  have isAt := kept.isAt
  rw [(concluded.same onlyKeeps).2] at isAt ⊢
  exact readText_congr isAt kept.wasAt (holds.trans kept.held.symm) (by rw [holds]; rfl)

variable {base names : Location}
  (leads : before.tree.LeadsTo before.current (root.join config.sourceDirectory) base)
  (furnished : Furnished root config.layout after)

include leads furnished

/-- Where an artifact goes among the sources, the model of a body is read after a run. -/
theorem Concluded.exists_drawn {artifact : Artifact}
    (member : artifact ∈ plan.artifacts.flatten ++ [plan.index])
    (isAt : after.tree.place? after.current (root.join artifact.path) = some (base ++ names)) :
    ∃ entry ∈ plan.drawn, after.tree.readText after.current
      (pathBelow (root.join config.sourceDirectory) names) =
        .ok (modelFile config.layout entry.1 entry.2).contents := by
  obtain ⟨same, current⟩ := concluded.same onlyKeeps
  have leadsAfter := current.symm ▸ leads.grows (trans_of Grows concluded.grows same.grows)
  cases last : lastStored root after (plan.artifacts.flatten ++ [plan.index]) (base ++ names) with
  | none => exact absurd isAt (lastStored_eq_none.1 last artifact member)
  | some stored =>
    obtain ⟨isStored, storedAt⟩ := of_lastStored last
    obtain ⟨⟨entry, isDrawn, rfl⟩, path_eq⟩ :=
      prepared.exists_modelFile onlyKeeps furnished leadsAfter isStored storedAt
    have holds := concluded.holds formed prepared onlyKeeps (base ++ names)
    rw [last] at holds
    exact ⟨entry, isDrawn, readText_eq_ok (path_eq ▸ storedAt) holds⟩

/-- A file among the sources after a run is the model of a body that the run has drawn, or a source
that the run has read. -/
theorem Concluded.source_cases (afterFormed : after.WellFormed)
    (accepted : Sources.isSource (pathBelow (root.join config.sourceDirectory) names) = true)
    (isFile : (after.tree.contents? (base ++ names)).isSome = true) :
    (∃ entry ∈ plan.drawn, after.tree.readText after.current
        (pathBelow (root.join config.sourceDirectory) names) =
          .ok (modelFile config.layout entry.1 entry.2).contents) ∨
      pathBelow (root.join config.sourceDirectory) names ∈ sources ∧
        after.tree.readText after.current (pathBelow (root.join config.sourceDirectory) names) =
          before.tree.readText before.current
            (pathBelow (root.join config.sourceDirectory) names) := by
  cases last : lastStored root after (plan.artifacts.flatten ++ [plan.index]) (base ++ names) with
  | some artifact =>
    obtain ⟨member, isAt⟩ := of_lastStored last
    exact .inl (concluded.exists_drawn formed prepared onlyKeeps leads furnished member isAt)
  | none =>
    have holds := concluded.holds formed prepared onlyKeeps (base ++ names)
    rw [last] at holds
    replace holds : _ = before.tree.contents? (base ++ names) := holds
    have isSource := (Sources.mem_iff formed.tree leads prepared.discovered).2
      ⟨names, rfl, accepted, holds ▸ isFile⟩
    refine .inr ⟨isSource, concluded.readText_source formed prepared onlyKeeps isSource ?_⟩
    intro artifact member atSource
    obtain ⟨location, contents, kept⟩ :=
      concluded.kept formed prepared onlyKeeps.keepSources isSource
    have plain : ∀ name ∈ names, IsPlainName name := by
      intro name isName
      have isThere := isSome_contents?.1 isFile
      exact afterFormed.tree.plain (by rw [isThere]; rfl) name (List.mem_append_right base isName)
    obtain rfl := walk_pathBelow leads plain (place?_eq_some.1 kept.wasAt).2
    exact lastStored_eq_none.1 last artifact member (atSource.trans kept.isAt)

/-- The model of a body that is drawn is among the sources after a run, and is idle there. -/
theorem Concluded.modelFile_isIdle (afterFormed : after.WellFormed) (finite : plan.IsFinite)
    {found : List Path}
    (discovered : value (Sources.discover (root.join config.sourceDirectory) : OnDisk _) after =
      .ok found) {entry : String × Body Float} (isDrawn : entry ∈ plan.drawn) :
    root.join (modelFile config.layout entry.1 entry.2).path ∈ found ∧
      IsIdle after (root.join (modelFile config.layout entry.1 entry.2).path) := by
  obtain ⟨same, current⟩ := concluded.same onlyKeeps
  have leadsAfter := current.symm ▸ leads.grows (trans_of Grows concluded.grows same.grows)
  obtain ⟨isArtifact, prefabAccepted, bodyAccepted⟩ := prepared.modelFile_mem onlyKeeps isDrawn
  have bodyPlain := isPlainName_of_isFileName bodyAccepted
  have plain : ∀ name ∈ [entry.1] ++ [entry.2.id ++ ".json"], IsPlainName name :=
    List.forall_mem_cons.2 ⟨isPlainName_of_isFileName prefabAccepted,
      List.forall_mem_singleton.2 (bodyPlain.append (by decide) (by decide))⟩
  have path_eq : root.join (modelFile config.layout entry.1 entry.2).path =
      pathBelow (root.join config.sourceDirectory) ([entry.1] ++ [entry.2.id ++ ".json"]) := by
    have isGeometry : config.sourceDirectory = config.layout.geometry := by
      rw [onlyKeeps.sourceDirectory, onlyKeeps.layout]
      rfl
    rw [isGeometry, pathBelow_join root _ plain]
    rfl
  have member := List.mem_append_left [plan.index] isArtifact
  have isFile := (concluded.artifacts_stay formed prepared _ (List.mem_map_of_mem member)).1
  obtain ⟨location, isAt, held⟩ := isFileAt_iff_place?.1 isFile
  have atNames := isAt
  rw [path_eq] at atNames
  obtain rfl := walk_pathBelow leadsAfter plain (place?_eq_some.1 atNames).2
  have proper : entry.2.id ≠ "" := fun none => bodyPlain.nonempty (by rw [none]; rfl)
  have accepted := (Sources.isSource_iff (root.join config.sourceDirectory) plain).2
    ⟨entry.2.id, proper, rfl⟩
  obtain ⟨drawn, isDrawn, isRead⟩ :=
    concluded.exists_drawn formed prepared onlyKeeps leads furnished member isAt
  rw [path_eq]
  exact ⟨(Sources.mem_iff afterFormed.tree leadsAfter discovered).2 ⟨_, rfl, accepted, held⟩,
    prepared.isIdle finite isDrawn isRead⟩

/-- Every source after a run is idle or was a source before, and is loaded as before. -/
theorem Concluded.idle_or_same (afterFormed : after.WellFormed) (finite : plan.IsFinite)
    {found : List Path}
    (discovered : value (Sources.discover (root.join config.sourceDirectory) : OnDisk _) after =
      .ok found) {source : Path} (isFound : source ∈ found) :
    IsIdle after source ∨ source ∈ sources ∧
      value (loadSource source) after = value (loadSource source) before := by
  obtain ⟨same, current⟩ := concluded.same onlyKeeps
  have leadsAfter := current.symm ▸ leads.grows (trans_of Grows concluded.grows same.grows)
  obtain ⟨names, rfl, accepted, isFile⟩ :=
    (Sources.mem_iff afterFormed.tree leadsAfter discovered).1 isFound
  rcases concluded.source_cases formed prepared onlyKeeps leads furnished afterFormed accepted isFile
    with ⟨entry, isDrawn, isRead⟩ | ⟨isSource, sameText⟩
  · exact .inl (prepared.isIdle finite isDrawn isRead)
  · exact .inr ⟨isSource, loadSource_congr sameText⟩

omit furnished in
/-- A compiled source that no artifact was written over is a source after a run, and is loaded as
before. -/
theorem Concluded.compiled_stays (afterFormed : after.WellFormed) {found : List Path}
    (discovered : value (Sources.discover (root.join config.sourceDirectory) : OnDisk _) after =
      .ok found) {source : Path} (isSource : source ∈ sources)
    (apart : ∀ artifact ∈ plan.artifacts.flatten ++ [plan.index],
      after.tree.place? after.current (root.join artifact.path) ≠
        after.tree.place? after.current source) :
    source ∈ found ∧ value (loadSource source) after = value (loadSource source) before := by
  obtain ⟨same, current⟩ := concluded.same onlyKeeps
  have grows : before.tree.Grows after.tree := trans_of Grows concluded.grows same.grows
  have leadsAfter := current.symm ▸ leads.grows grows
  obtain ⟨names, rfl, accepted, isFile⟩ :=
    (Sources.mem_iff formed.tree leads prepared.discovered).1 isSource
  have isFileAfter : (after.tree.contents? (base ++ names)).isSome = true :=
    isSome_contents?.2 (grows _ _ (isSome_contents?.1 isFile))
  have sameText := concluded.readText_source formed prepared onlyKeeps isSource apart
  exact ⟨(Sources.mem_iff afterFormed.tree leadsAfter discovered).2 ⟨names, rfl, accepted, isFileAfter⟩,
    loadSource_congr sameText⟩

/-- The same sources take part in the physics after a run, if no artifact was written over them. -/
theorem Concluded.sameParts (afterFormed : after.WellFormed) (finite : plan.IsFinite)
    (apart : ∀ source ∈ plan.compiled.sources, ∀ artifact ∈ plan.artifacts.flatten ++ [plan.index],
      after.tree.place? after.current (root.join artifact.path) ≠
        after.tree.place? after.current source)
    {found : List Path} {foundModels : List (Model Float)}
    (discovered : value (Sources.discover (root.join config.sourceDirectory) : OnDisk _) after =
      .ok found)
    (loaded : List.Forall₂ (fun path model => value (loadSource path) after = .ok model) found
      foundModels) :
    (found.zip foundModels).filter takesPart = (sources.zip models).filter takesPart := by
  refine eq_of_mem_iff
    (pairwise_zip loaded.length_eq (Sources.pairwise_before afterFormed.tree discovered))
    (pairwise_zip prepared.loaded.length_eq
      (Sources.pairwise_before formed.tree prepared.discovered)) ?_
  rintro ⟨path, model⟩
  constructor
  · intro member
    obtain ⟨⟨isFound, isLoaded⟩, part⟩ := (mem_filter_zip loaded).1 member
    rcases concluded.idle_or_same formed prepared onlyKeeps leads furnished afterFormed finite
      discovered isFound with ⟨other, isOther, noPart⟩ | ⟨isSource, sameModel⟩
    · obtain rfl := Except.ok.inj (isLoaded.symm.trans isOther)
      rw [part] at noPart
      contradiction
    · exact (mem_filter_zip prepared.loaded).2 ⟨⟨isSource, sameModel ▸ isLoaded⟩, part⟩
  · intro member
    obtain ⟨⟨isSource, isLoaded⟩, part⟩ := (mem_filter_zip prepared.loaded).1 member
    have isCompiled : path ∈ plan.compiled.sources := by
      rw [prepared.compiled, value_compileSources]
      exact List.mem_append_right _ (List.mem_map.2 ⟨_, member, rfl⟩)
    obtain ⟨isFound, sameModel⟩ := concluded.compiled_stays formed prepared onlyKeeps leads
      afterFormed discovered isSource (apart path isCompiled)
    exact (mem_filter_zip loaded).2 ⟨⟨isFound, sameModel.trans isLoaded⟩, part⟩

/-- Every source after a run can be loaded. -/
theorem Concluded.exists_loaded (afterFormed : after.WellFormed) (finite : plan.IsFinite)
    {found : List Path}
    (discovered : value (Sources.discover (root.join config.sourceDirectory) : OnDisk _) after =
      .ok found) :
    ∃ foundModels,
      List.Forall₂ (fun path model => value (loadSource path) after = .ok model) found
        foundModels := by
  refine Answer.exists_forall₂ fun source isFound => ?_
  rcases concluded.idle_or_same formed prepared onlyKeeps leads furnished afterFormed finite
    discovered isFound with ⟨model, isLoaded, -⟩ | ⟨isSource, sameModel⟩
  · exact ⟨model, isLoaded⟩
  · obtain ⟨model, -, isLoaded⟩ := Answer.exists_of_mem_right prepared.loaded.flip isSource
    exact ⟨model, sameModel.trans isLoaded⟩

end

/-- A plan that repeats another one, up to what was ignored. -/
structure Plan.Repeats (plan again : Plan) : Prop where
  /-- The same sources were compiled. -/
  sources : again.compiled.sources = plan.compiled.sources
  /-- The same was compiled. -/
  compilation : again.compiled.compilation = plan.compiled.compilation
  /-- The same artifacts were made. -/
  artifacts : again.artifacts = plan.artifacts
  /-- The same index was made. -/
  index : again.index = plan.index

/-- After a run that has kept its sources the next run makes the same plan, and ignores the models of
all bodies that are drawn. -/
theorem Concluded.replanned (schedule : Pool.Schedule) (formed : before.WellFormed)
    (prepared : Prepared root config (root.join config.sourceDirectory) before planned sources models
      templates plan)
    (concluded : Concluded root config plan before written after deleted)
    (onlyKeeps : config.OnlyKeeps) (furnished : Furnished root config.layout after)
    (afterFormed : after.WellFormed)
    (isThere : after.tree.isDirectoryAt after.current (root.join config.sourceDirectory) = true)
    (finite : plan.IsFinite)
    (apart : ∀ source ∈ plan.compiled.sources, ∀ artifact ∈ plan.artifacts.flatten ++ [plan.index],
      after.tree.place? after.current (root.join artifact.path) ≠
        after.tree.place? after.current source) :
    ∃ again, value (Run.plan schedule root config (root.join config.sourceDirectory) :
        Step OnDisk Plan).run after = .ok again ∧ plan.Repeats again ∧
      ∀ entry ∈ plan.drawn,
        root.join (modelFile config.layout entry.1 entry.2).path ∈ again.compiled.ignored := by
  obtain ⟨base, locations, foundAt⟩ := Sources.exists_foundAt formed.tree prepared.discovered
  have leads := foundAt.leads
  obtain ⟨found, discovered⟩ := Sources.exists_of_isDirectoryAt isThere
  obtain ⟨foundModels, loaded⟩ := concluded.exists_loaded formed prepared onlyKeeps leads furnished
    afterFormed finite discovered
  have sameParts := concluded.sameParts formed prepared onlyKeeps leads furnished afterFormed finite
    apart discovered loaded
  generalize isCompiled : (compileSources (found.zip foundModels) ⟨[], [], Compilation.empty⟩).value =
    compiled
  have compiled_eq := isCompiled
  have was := prepared.compiled
  rw [value_compileSources] at compiled_eq was
  rw [sameParts] at compiled_eq
  have sameCompilation : compiled.compilation = plan.compiled.compilation := by
    rw [was, ← compiled_eq]
  have templatesLoaded : value (Templates.load (config.templates.behavior.map root.join)
      (config.templates.appearance.map root.join) (config.templates.geometry.map root.join) :
        ExceptT EmitError OnDisk Templates).run after = .ok templates := by
    rw [prepared.templates_eq onlyKeeps.templates, onlyKeeps.templates]
    exact value_loadTemplates_none after
  refine ⟨_, value_plan schedule discovered loaded isCompiled templatesLoaded
    (sameCompilation ▸ prepared.artifacts), ⟨?sources, sameCompilation, rfl, ?index⟩, ?ignored⟩
  case sources => rw [was, ← compiled_eq]
  case index => rw [prepared.index, sameCompilation]
  case ignored =>
    intro entry isDrawn
    obtain ⟨isFound, model, isLoaded, noPart⟩ := concluded.modelFile_isIdle formed prepared onlyKeeps
      leads furnished afterFormed finite discovered isDrawn
    have isBeside := (Answer.mem_zip_iff loaded fun _ _ _ isFirst isSecond =>
      Except.ok.inj (isFirst.symm.trans isSecond)).2 ⟨isFound, isLoaded⟩
    rw [← compiled_eq]
    exact List.mem_append_right _ (List.mem_map.2 ⟨_, List.mem_filter.2
      ⟨isBeside, by rw [noPart]; rfl⟩, rfl⟩)

end Run

end PhysicsPrefab
