import PhysicsPrefab.Proofs.Emit.Contents

/-!
# Outputs stay in their directories

An id is accepted as the name of a file exactly if it is no unsafe text (`Emitter.isFileName_iff`).
So a prefab is refused exactly if its id or that of a body that is drawn is unsafe, for the first
such id, and otherwise its files are at fixed places below the directories of the project
(`Emitter.prefabArtifacts_confines`).
-/

namespace PhysicsPrefab

/-- The only component of a plain name is the name. -/
theorem IsPlainName.components_eq {name : String} (plain : IsPlainName name) :
    (Path.mk name).components = [.name name] := by
  rw [Path.components, plain.pieces_eq]
  simp [plain.isRelative, plain.noDot, plain.innerComponent?_eq]

/-- A model has a bone for the cubes of a body in its first geometry. -/
def Model.HasTemplateBone (template : Model Float) : Prop :=
  ∃ geometry, template.geometries.head? = some geometry ∧
    ∃ bone ∈ geometry.bones, bone.name = templateBone

/-- Cubes cannot be put into bones if none of them has the name for it. -/
theorem putCubes_eq_none (cubes : List (Cube Float)) {bones : List (Bone Float)} :
    putCubes cubes bones = none ↔ ∀ bone ∈ bones, bone.name ≠ templateBone := by
  induction bones with
  | nil => exact iff_of_true rfl nofun
  | cons first rest ih =>
    rw [putCubes, List.forall_mem_cons]
    split
    · rename_i isFirst
      exact iff_of_false nofun fun ⟨notFirst, _⟩ => notFirst isFirst
    · rename_i notFirst
      rw [Option.map_eq_none_iff, ih, and_iff_right notFirst]

/-- A template with a bone for cubes gives every body a model. -/
theorem Model.HasTemplateBone.exists_entityModel {template : Model Float}
    (hasBone : template.HasTemplateBone) (prefabId : String) (body : Body Float) :
    ∃ model, entityModel template prefabId body = .ok model := by
  obtain ⟨geometry, isFirst, bone, isBone, isNamed⟩ := hasBone
  obtain ⟨others, geometries⟩ := List.head?_eq_some_iff.1 isFirst
  have possible : putCubes body.cubes geometry.bones ≠ none := fun isNone =>
    (putCubes_eq_none body.cubes).1 isNone bone isBone isNamed
  obtain ⟨changed, isChanged⟩ := Option.ne_none_iff_exists'.1 possible
  rw [entityModel, geometries]
  simp only [isChanged]
  exact ⟨_, rfl⟩

namespace Emitter

/-- An id that could lead out of a directory: it is empty, or one or two dots, or holds a slash or
a backslash. -/
def IsUnsafe (id : String) : Prop :=
  id = "" ∨ id = "." ∨ id = ".." ∨ '/' ∈ id.toList ∨ '\\' ∈ id.toList

instance : DecidablePred IsUnsafe := fun id =>
  inferInstanceAs (Decidable (id = "" ∨ id = "." ∨ id = ".." ∨ '/' ∈ id.toList ∨ '\\' ∈ id.toList))

/-- An id that is not unsafe is a plain name. -/
theorem isPlainName_of_not_isUnsafe {id : String} (harmless : ¬ IsUnsafe id) : IsPlainName id := by
  simp only [IsUnsafe, not_or] at harmless
  obtain ⟨nonempty, noDot, noDots, noSlash, -⟩ := harmless
  exact ⟨fun same => nonempty (String.toList_inj.1 same),
    fun same => noDot (String.toList_inj.1 same),
    fun same => noDots (String.toList_inj.1 same), noSlash⟩

/-- An id is accepted as the name of a file exactly if it is not unsafe. -/
theorem isFileName_iff {id : String} : isFileName id = true ↔ ¬ IsUnsafe id := by
  constructor
  · intro accepted
    have plain := isPlainName_of_isFileName accepted
    rw [isFileName, plain.components_eq, Bool.not_eq_true', List.any_eq_false] at accepted
    simp only [IsUnsafe, not_or]
    refine ⟨?_, ?_, ?_, plain.noSlash, fun backslash => accepted '\\' backslash (by simp)⟩
    · rintro rfl
      exact plain.nonempty rfl
    · rintro rfl
      exact plain.noDot rfl
    · rintro rfl
      exact plain.noDots rfl
  · intro harmless
    have plain := isPlainName_of_not_isUnsafe harmless
    rw [isFileName, plain.components_eq, Bool.not_eq_true', List.any_eq_false]
    intro character member isSlash
    simp only [IsUnsafe, not_or] at harmless
    have isEither : character = '/' ∨ character = '\\' := by simpa using isSlash
    rcases isEither with rfl | rfl
    · exact plain.noSlash member
    · exact harmless.2.2.2.2 member

/-- If some id is unsafe, there is a first one. -/
theorem exists_first_of_isUnsafe {ids : List String} {id : String} (isId : id ∈ ids)
    (isUnsafe : IsUnsafe id) : ∃ first, ids.find? (IsUnsafe ·) = some first := by
  have passes : ∃ id ∈ ids, decide (IsUnsafe id) = true := ⟨id, isId, decide_eq_true isUnsafe⟩
  exact Option.isSome_iff_exists.1 (List.find?_isSome.2 passes)

/-- An unsafe id is refused. -/
theorem required_of_isUnsafe {id : String} (isUnsafe : IsUnsafe id) :
    (requireFileName id).run.value = .error (.unsafeId id) := by
  have refused : isFileName id = false := by
    rw [← Bool.not_eq_true, isFileName_iff, not_not]
    exact isUnsafe
  rw [requireFileName, refused]
  rfl

variable {emitter : Emitter} {prefab : Prefab}

/-- The ids that become names of files, in the order in which they are looked at. -/
def fileIds (prefab : Prefab) : List String :=
  prefab.id :: (prefab.bodies.filter Body.isVisual).map (·.id)

/-- A body with an unsafe id is refused. -/
theorem bodyArtifacts_of_isUnsafe (emitter : Emitter) (prefabId : String) {body : Body Float}
    (isUnsafe : IsUnsafe body.id) :
    (emitter.bodyArtifacts prefabId body).run.value = .error (.unsafeId body.id) := by
  rw [bodyArtifacts, Noted.value_run_bind, required_of_isUnsafe isUnsafe]
  rfl

/-- The first unsafe id among those of some bodies is that of a body after bodies with harmless
ids. -/
theorem exists_first_isUnsafe {bodies : List (Body Float)} {id : String}
    (isFirst : (bodies.map (·.id)).find? (IsUnsafe ·) = some id) :
    ∃ earlier body later, bodies = earlier ++ body :: later ∧ body.id = id ∧ IsUnsafe id ∧
      ∀ other ∈ earlier, ¬ IsUnsafe other.id := by
  rw [List.find?_map, Option.map_eq_some_iff] at isFirst
  obtain ⟨body, isFound, rfl⟩ := isFirst
  obtain ⟨isUnsafe, earlier, later, parts, harmless⟩ := List.find?_eq_some_iff_append.1 isFound
  exact ⟨earlier, body, later, parts, rfl, of_decide_eq_true isUnsafe,
    fun other member => by simpa using harmless other member⟩

/-- The first unsafe id of a prefab is refused. -/
theorem prefabArtifacts_of_isUnsafe (hasBone : emitter.templates.geometry.HasTemplateBone)
    {id : String} (isFirst : (fileIds prefab).find? (IsUnsafe ·) = some id) :
    (emitter.prefabArtifacts prefab).run.value = .error (.unsafeId id) := by
  rw [prefabArtifacts, Noted.value_run_bind]
  by_cases isUnsafe : IsUnsafe prefab.id
  · rw [fileIds, List.find?_cons_of_pos (by simpa using isUnsafe)] at isFirst
    obtain rfl := Option.some.inj isFirst
    rw [required_of_isUnsafe isUnsafe]
    rfl
  · rw [fileIds, List.find?_cons_of_neg (by simpa using isUnsafe)] at isFirst
    obtain ⟨earlier, body, later, parts, rfl, bodyUnsafe, harmless⟩ := exists_first_isUnsafe isFirst
    have good : ∀ other ∈ earlier, ∃ made,
        (emitter.bodyArtifacts prefab.id other).run.value = .ok made := by
      intro other member
      obtain ⟨model, isModel⟩ := hasBone.exists_entityModel prefab.id other
      exact ⟨_, bodyArtifacts_eq_ok.2 ⟨isFileName_iff.2 (harmless other member), _, isModel, rfl⟩⟩
    have gathered : ((prefab.bodies.filter Body.isVisual).mapM
        (emitter.bodyArtifacts prefab.id)).run.value = .error (.unsafeId body.id) := by
      rw [value_run_mapM, parts]
      exact Answer.mapM_of_first_error good (bodyArtifacts_of_isUnsafe emitter prefab.id bodyUnsafe)
    rw [requireFileName_eq_ok.2 (isFileName_iff.2 isUnsafe), Except.bind, Noted.value_run_bind, gathered]
    rfl

/-- The paths of the files of a body. -/
def bodyPaths (layout : OutputLayout) (prefabId bodyId : String) : List Path :=
  [bodyPath layout.behavior prefabId bodyId, bodyPath layout.appearance prefabId bodyId,
    bodyPath layout.geometry prefabId bodyId]

/-- The path of the script of a prefab. -/
def scriptPath (layout : OutputLayout) (prefabId : String) : Path :=
  layout.script.join ⟨prefabId ++ ".js"⟩

/-- The files of a body are at fixed places. -/
theorem FilesOf.paths {prefabId : String} {body : Body Float} {files : List Artifact}
    (filesOf : emitter.FilesOf prefabId body files) :
    files.map (·.path) = bodyPaths emitter.layout prefabId body.id := by
  obtain ⟨-, model, -, rfl⟩ := filesOf
  rfl

/-- A prefab without unsafe ids has its files and its script. -/
theorem exists_prefabArtifacts (hasBone : emitter.templates.geometry.HasTemplateBone)
    (harmless : ∀ id ∈ fileIds prefab, ¬ IsUnsafe id) :
    ∃ artifacts, (emitter.prefabArtifacts prefab).run.value = .ok artifacts ∧
      artifacts.map (·.path) =
        (prefab.bodies.filter Body.isVisual).flatMap
          (fun body => bodyPaths emitter.layout prefab.id body.id) ++
          [scriptPath emitter.layout prefab.id] := by
  obtain ⟨prefabHarmless, bodiesHarmless⟩ := List.forall_mem_cons.1 harmless
  have each : ∀ body ∈ prefab.bodies.filter Body.isVisual, ∃ files,
      emitter.FilesOf prefab.id body files := by
    intro body isBody
    obtain ⟨model, isModel⟩ := hasBone.exists_entityModel prefab.id body
    have accepted := bodiesHarmless body.id (List.mem_map_of_mem isBody)
    exact ⟨_, isFileName_iff.2 accepted, model, isModel, rfl⟩
  obtain ⟨files, filesOf⟩ := Answer.exists_forall₂ each
  refine ⟨_, prefabArtifacts_eq_ok.2 ⟨isFileName_iff.2 prefabHarmless, files, filesOf, rfl⟩, ?_⟩
  have paths : files.map (·.map (·.path)) = (prefab.bodies.filter Body.isVisual).map
      fun body => bodyPaths emitter.layout prefab.id body.id := by
    rw [← List.forall₂_eq_eq_eq, List.forall₂_map_left_iff, List.forall₂_map_right_iff]
    exact (filesOf.imp fun _ _ => FilesOf.paths).flip
  rw [List.map_append, List.map_flatten, paths, ← List.flatMap_def]
  rfl

/-- A prefab is refused for its first unsafe id only, and otherwise has its artifacts at fixed places
in the directories of an emitter. -/
structure Confines (emitter : Emitter) (prefab : Prefab) : Prop where
  /-- Nothing but an unsafe id is refused. -/
  fails_iff : (∃ error, (emitter.prefabArtifacts prefab).run.value = .error error) ↔
    ∃ id ∈ fileIds prefab, IsUnsafe id
  /-- The first unsafe id counts. -/
  first : ∀ error, (emitter.prefabArtifacts prefab).run.value = .error error →
    ∃ id, (fileIds prefab).find? (IsUnsafe ·) = some id ∧ error = .unsafeId id
  /-- The files of all bodies that are drawn come first, then the script. -/
  accepted : (∀ id ∈ fileIds prefab, ¬ IsUnsafe id) →
    ∃ artifacts, (emitter.prefabArtifacts prefab).run.value = .ok artifacts ∧
      artifacts.map (·.path) =
        (prefab.bodies.filter Body.isVisual).flatMap
          (fun body => bodyPaths emitter.layout prefab.id body.id) ++
          [scriptPath emitter.layout prefab.id]
  /-- The files of a body are two names below a directory. -/
  files : (∀ id ∈ fileIds prefab, ¬ IsUnsafe id) →
    ∀ body ∈ prefab.bodies.filter Body.isVisual, ∀ directory,
      (bodyPath directory prefab.id body.id).components =
        directory.components ++ [.name prefab.id, .name (body.id ++ ".json")]
  /-- The script is one name below a directory. -/
  script : (∀ id ∈ fileIds prefab, ¬ IsUnsafe id) →
    (scriptPath emitter.layout prefab.id).components =
      emitter.layout.script.components ++ [.name (prefab.id ++ ".js")]

/-- An emitter whose model template has a bone for cubes confines every prefab. -/
theorem prefabArtifacts_confines (hasBone : emitter.templates.geometry.HasTemplateBone)
    (prefab : Prefab) : emitter.Confines prefab := by
  have refused : ∀ {error}, (emitter.prefabArtifacts prefab).run.value = .error error →
      ∃ id, (fileIds prefab).find? (IsUnsafe ·) = some id ∧ error = .unsafeId id := by
    intro error failed
    cases found : (fileIds prefab).find? (IsUnsafe ·) with
    | some id =>
      rw [prefabArtifacts_of_isUnsafe hasBone found] at failed
      exact ⟨id, rfl, (Except.error.inj failed).symm⟩
    | none =>
      have harmless : ∀ id ∈ fileIds prefab, ¬ IsUnsafe id := by
        simpa using List.find?_eq_none.1 found
      obtain ⟨artifacts, made, -⟩ := exists_prefabArtifacts hasBone harmless
      rw [made] at failed
      contradiction
  constructor
  case fails_iff =>
    constructor
    · rintro ⟨error, failed⟩
      obtain ⟨id, isFirst, -⟩ := refused failed
      have isUnsafe : decide (IsUnsafe id) = true :=
        List.find?_some (p := fun id => decide (IsUnsafe id)) isFirst
      exact ⟨id, List.mem_of_find?_eq_some isFirst, of_decide_eq_true isUnsafe⟩
    · rintro ⟨id, isId, isUnsafe⟩
      obtain ⟨first, isFirst⟩ := exists_first_of_isUnsafe isId isUnsafe
      exact ⟨_, prefabArtifacts_of_isUnsafe hasBone isFirst⟩
  case first => exact fun error => refused
  case accepted => exact exists_prefabArtifacts hasBone
  case files =>
    intro harmless body isBody directory
    have prefabPlain := isPlainName_of_not_isUnsafe (harmless prefab.id List.mem_cons_self)
    have bodyPlain := isPlainName_of_not_isUnsafe
      (harmless body.id (List.mem_cons_of_mem _ (List.mem_map_of_mem isBody)))
    have filePlain : IsPlainName (body.id ++ ".json") := bodyPlain.append (by decide) (by decide)
    rw [bodyPath, Path.components_join _ filePlain, Path.components_join _ prefabPlain,
      List.append_assoc]
    rfl
  case script =>
    intro harmless
    have prefabPlain := isPlainName_of_not_isUnsafe (harmless prefab.id List.mem_cons_self)
    exact Path.components_join _ (prefabPlain.append (by decide) (by decide))

end Emitter

end PhysicsPrefab
