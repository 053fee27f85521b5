import Mathlib.Data.List.Nodup
import PhysicsPrefab.Emit.Emitter
import PhysicsPrefab.Proofs.Answers
import PhysicsPrefab.Proofs.Files.Joins

/-!
# Where outputs go

The artifacts of a prefab that is accepted are two stamped texts and a written model for each body
that is drawn, and one script (`prefabArtifacts_eq_ok`). An id that is accepted as the name of a
file is a plain name. So the files of a prefab are in folders named after it, its script is named
after it (`prefabArtifacts_outputs`), and the names at the end of the path of an output tell which
prefab and body it belongs to (`OutputName.eq_of_append_eq`). With the directories of a project that
says nothing else no two outputs have one path, unless a prefab has the name of the index of the
scripts (`allOutputs_nodup_iff`).
-/

namespace PhysicsPrefab

/-- A plain name stays one with an ending. -/
theorem IsPlainName.append {name ending : String} (plain : IsPlainName name)
    (long : 2 ≤ ending.toList.length) (noSlash : '/' ∉ ending.toList) :
    IsPlainName (name ++ ending) := by
  have longer : ∀ {text : List Char}, text.length ≤ 2 → (name ++ ending).toList ≠ text := by
    intro text short same
    have positive := List.length_pos_of_ne_nil plain.nonempty
    rw [← same, String.toList_append, List.length_append] at short
    omega
  constructor
  · exact longer (by decide)
  · exact longer (by decide)
  · exact longer (by decide)
  · rw [String.toList_append, List.mem_append, not_or]
    exact ⟨plain.noSlash, noSlash⟩

/-- What an output is named after. -/
inductive OutputName where
  /-- A file of a body is in the folder of its prefab. -/
  | file (prefabId bodyId : String)
  /-- A script has the name of its prefab. -/
  | script (prefabId : String)

namespace OutputName

/-- The prefab that an output is named after. -/
def prefabId : OutputName → String
  | file prefabId _ | script prefabId => prefabId

/-- The names at the end of the path of an output. -/
def names : OutputName → Location
  | file prefabId bodyId => [prefabId, bodyId ++ ".json"]
  | script prefabId => [prefabId ++ ".js"]

/-- The file of a body and a script have different endings. -/
theorem json_ne_js (bodyId prefabId : String) : bodyId ++ ".json" ≠ prefabId ++ ".js" := by
  intro same
  have last := congrArg (·.toList.getLast?) same
  simp [String.toList_append, List.getLast?_append] at last

/-- Names of outputs are told apart by the names at the end of their paths. -/
theorem names_injective : Function.Injective names := by
  intro first second same
  cases first <;> cases second <;> simp_all [names]

/-- An output is known from the names at the end of its path. -/
theorem eq_of_append_eq {α : Type} {embed : String → α} (injective : Function.Injective embed)
    {front other : List α} {first second : OutputName}
    (same : front ++ first.names.map embed = other ++ second.names.map embed) :
    front = other ∧ first = second := by
  have last := congrArg List.getLast? same
  have lengths : first.names.length = second.names.length := by
    cases first with
    | file prefabId bodyId =>
      cases second with
      | file => rfl
      | script => simp [names, List.getLast?_append, injective.eq_iff, json_ne_js] at last
    | script prefabId =>
      cases second with
      | file => simp [names, List.getLast?_append, injective.eq_iff, (json_ne_js _ _).symm] at last
      | script => rfl
  obtain ⟨fronts, ends⟩ := List.append_inj' same (by simpa using lengths)
  exact ⟨fronts, names_injective (List.map_injective_iff.2 injective ends)⟩

end OutputName

/-- An output: a directory of the project and what it is named after. -/
structure Output where
  /-- The directory. -/
  directory : Path
  /-- What it is named after. -/
  name : OutputName

namespace Output

/-- The path of an output. -/
def path (output : Output) : Path := FileTree.pathBelow output.directory output.name.names

/-- All names at the end of the path are plain. -/
def IsPlain (output : Output) : Prop := ∀ name ∈ output.name.names, IsPlainName name

/-- Outputs have the same path only if they are in directories with the same path and have the
same name. -/
theorem eq_of_components_eq {first second : Output} (firstPlain : first.IsPlain)
    (secondPlain : second.IsPlain) (same : first.path.components = second.path.components) :
    first.directory.components = second.directory.components ∧ first.name = second.name := by
  rw [path, path, FileTree.components_pathBelow _ firstPlain,
    FileTree.components_pathBelow _ secondPlain] at same
  exact OutputName.eq_of_append_eq (fun _ _ => PathComponent.name.inj) same

end Output

namespace Emitter

/-- An id that is accepted as the name of a file is a plain name. -/
theorem isPlainName_of_isFileName {id : String} (accepted : isFileName id = true) :
    IsPlainName id := by
  have different : ∀ {other : String}, isFileName other = false → id.toList ≠ other.toList := by
    intro other refused same
    rw [String.toList_inj.1 same, refused] at accepted
    contradiction
  constructor
  · exact different (by decide : isFileName "" = false)
  · exact different (by decide : isFileName "." = false)
  · exact different (by decide : isFileName ".." = false)
  · rw [isFileName] at accepted
    split at accepted
    · intro slash
      rw [Bool.not_eq_true', List.any_eq_false] at accepted
      exact accepted '/' slash (by simp)
    · contradiction

/-- An id is not refused exactly if it is a name for a file. -/
theorem requireFileName_eq_ok {id : String} :
    (requireFileName id).run.value = .ok () ↔ isFileName id = true := by
  rw [requireFileName]
  cases isFileName id with
  | true => exact iff_of_true rfl rfl
  | false => exact iff_of_false nofun nofun

/-- The path of a file of a body. -/
def bodyPath (directory : Path) (prefabId bodyId : String) : Path :=
  (directory.join ⟨prefabId⟩).join ⟨bodyId ++ ".json"⟩

/-- What stands for the placeholders of text templates. -/
def stampValues (prefabId bodyId : String) : List (String × String) :=
  [("prefab", prefabId), ("body", bodyId)]

/-- The files of a body with a model. -/
def bodyFiles (emitter : Emitter) (prefabId bodyId : String) (model : Model Float) :
    List Artifact := [
  ⟨bodyPath emitter.layout.behavior prefabId bodyId,
    Template.substitute emitter.templates.behavior (stampValues prefabId bodyId)⟩,
  ⟨bodyPath emitter.layout.appearance prefabId bodyId,
    Template.substitute emitter.templates.appearance (stampValues prefabId bodyId)⟩,
  ⟨bodyPath emitter.layout.geometry prefabId bodyId, model.toValue.pretty⟩]

/-- The script of a prefab as a file. -/
def scriptFile (emitter : Emitter) (prefab : Prefab) : Artifact :=
  ⟨emitter.layout.script.join ⟨prefab.id ++ ".js"⟩, Script.ofPrefab prefab emitter.defaultMass⟩

/-- Some files are those of a body that is accepted. -/
structure FilesOf (emitter : Emitter) (prefabId : String) (body : Body Float)
    (files : List Artifact) : Prop where
  /-- The id of the body is a name for a file. -/
  accepted : isFileName body.id = true
  /-- The files are those of a model of the body. -/
  exists_model : ∃ model, entityModel emitter.templates.geometry prefabId body = .ok model ∧
    files = emitter.bodyFiles prefabId body.id model

/-- What is made of a body are its files, and something is made of it exactly if it is accepted. -/
theorem bodyArtifacts_eq_ok {emitter : Emitter} {prefabId : String} {body : Body Float}
    {artifacts : List Artifact} :
    (emitter.bodyArtifacts prefabId body).run.value = .ok artifacts ↔
      emitter.FilesOf prefabId body artifacts := by
  rw [bodyArtifacts, Noted.value_run_bind, Answer.bind_eq_ok]
  constructor
  · rintro ⟨_, accepted, made⟩
    rw [Noted.value_run_bind, Answer.bind_eq_ok, Noted.value_run_liftExcept] at made
    obtain ⟨text, written, made⟩ := made
    obtain ⟨model, modelled, rfl⟩ := Answer.map_eq_ok.1 written
    exact ⟨requireFileName_eq_ok.1 accepted, model, modelled, (Except.ok.inj made).symm⟩
  · rintro ⟨accepted, model, modelled, rfl⟩
    refine ⟨(), requireFileName_eq_ok.2 accepted, ?_⟩
    rw [Noted.value_run_bind, Noted.value_run_liftExcept, entityModelText, modelled]
    rfl

/-- What visits of all items come to is what comes of each. -/
theorem value_run_mapM {α β ε : Type} (visit : α → ExceptT ε Noted β) (items : List α) :
    (items.mapM visit).run.value = items.mapM fun item => (visit item).run.value := by
  induction items with
  | nil => rfl
  | cons item rest ih =>
    rw [List.mapM_cons, List.mapM_cons, Noted.value_run_bind]
    cases (visit item).run.value with
    | error error => rfl
    | ok first =>
      change (List.mapM visit rest >>= fun others => pure (first :: others)).run.value = _
      rw [Noted.value_run_bind, ih]
      rfl

/-- Results that are all there are gathered from the visits of all items. -/
theorem forall₂_of_value_run_mapM {α β ε : Type} {visit : α → ExceptT ε Noted β} {items : List α}
    {made : List β} (gathered : (items.mapM visit).run.value = .ok made) :
    List.Forall₂ (fun item result => (visit item).run.value = .ok result) items made :=
  Answer.forall₂_of_mapM_eq_ok (value_run_mapM visit items ▸ gathered)

/-- What is made of a prefab are the files of its bodies that are drawn, and its script. -/
theorem prefabArtifacts_eq_ok {emitter : Emitter} {prefab : Prefab} {artifacts : List Artifact} :
    (emitter.prefabArtifacts prefab).run.value = .ok artifacts ↔
      isFileName prefab.id = true ∧ ∃ files,
        List.Forall₂ (emitter.FilesOf prefab.id) (prefab.bodies.filter Body.isVisual) files ∧
        artifacts = files.flatten ++ [emitter.scriptFile prefab] := by
  have gathered : ∀ {files}, ((prefab.bodies.filter Body.isVisual).mapM
      (emitter.bodyArtifacts prefab.id)).run.value = .ok files ↔
        List.Forall₂ (emitter.FilesOf prefab.id) (prefab.bodies.filter Body.isVisual) files := by
    intro files
    simp only [value_run_mapM, Answer.mapM_eq_ok_iff, bodyArtifacts_eq_ok]
  rw [prefabArtifacts, Noted.value_run_bind, Answer.bind_eq_ok]
  constructor
  · rintro ⟨_, accepted, made⟩
    rw [Noted.value_run_bind, Answer.bind_eq_ok] at made
    obtain ⟨files, bodiesMade, made⟩ := made
    exact ⟨requireFileName_eq_ok.1 accepted, files, gathered.1 bodiesMade, (Except.ok.inj made).symm⟩
  · rintro ⟨accepted, files, filesOf, rfl⟩
    refine ⟨(), requireFileName_eq_ok.2 accepted, ?_⟩
    rw [Noted.value_run_bind, gathered.2 filesOf]
    rfl

/-- The directories in which each prefab has a folder. -/
def bodyDirectories (layout : OutputLayout) : List Path :=
  [layout.behavior, layout.appearance, layout.geometry]

/-- The outputs of a body. -/
def bodyOutputs (layout : OutputLayout) (prefabId : String) (body : Body Float) : List Output :=
  (bodyDirectories layout).map fun directory => ⟨directory, .file prefabId body.id⟩

/-- The outputs of a prefab. -/
def prefabOutputs (layout : OutputLayout) (prefab : Prefab) : List Output :=
  (prefab.bodies.filter Body.isVisual).flatMap (bodyOutputs layout prefab.id) ++
    [⟨layout.script, .script prefab.id⟩]

/-- The output that imports all scripts. -/
def indexOutput (layout : OutputLayout) : Output := ⟨layout.script, .script "index"⟩

/-- The files of a body are its outputs. -/
theorem FilesOf.outputs {emitter : Emitter} {prefabId : String} {body : Body Float}
    {files : List Artifact} (filesOf : emitter.FilesOf prefabId body files) :
    IsPlainName body.id ∧
      (bodyOutputs emitter.layout prefabId body).map Output.path = files.map (·.path) := by
  obtain ⟨accepted, model, -, rfl⟩ := filesOf
  exact ⟨isPlainName_of_isFileName accepted, rfl⟩

/-- The artifacts of a prefab are its outputs, and all of them have plain names. -/
theorem prefabArtifacts_outputs {emitter : Emitter} {prefab : Prefab} {artifacts : List Artifact}
    (made : (emitter.prefabArtifacts prefab).run.value = .ok artifacts) :
    (∀ output ∈ prefabOutputs emitter.layout prefab, output.IsPlain) ∧
      (prefabOutputs emitter.layout prefab).map Output.path = artifacts.map (·.path) := by
  obtain ⟨accepted, files, filesOf, rfl⟩ := prefabArtifacts_eq_ok.1 made
  have prefabName := isPlainName_of_isFileName accepted
  obtain ⟨bodyNames, paths⟩ :=
    (List.forall₂_and_left _ _).1 (filesOf.imp fun _ _ => FilesOf.outputs)
  constructor
  · intro output member
    rcases List.mem_append.1 member with isFile | isScript
    · obtain ⟨body, isBody, isOutput⟩ := List.mem_flatMap.1 isFile
      obtain ⟨directory, -, rfl⟩ := List.mem_map.1 isOutput
      exact List.forall_mem_cons.2 ⟨prefabName, List.forall_mem_singleton.2
        ((bodyNames body isBody).append (by decide) (by decide))⟩
    · obtain rfl := List.mem_singleton.1 isScript
      exact List.forall_mem_singleton.2 (prefabName.append (by decide) (by decide))
  · have filePaths : (prefab.bodies.filter Body.isVisual).map (fun body =>
        (bodyOutputs emitter.layout prefab.id body).map Output.path) =
          files.map (·.map (·.path)) := by
      rwa [← List.forall₂_eq_eq_eq, List.forall₂_map_left_iff, List.forall₂_map_right_iff]
    rw [prefabOutputs, List.map_append, List.map_flatMap, List.flatMap_def, filePaths,
      ← List.map_flatten, List.map_append]
    rfl

/-- The outputs of a prefab are named after it. -/
theorem prefabId_of_mem {layout : OutputLayout} {prefab : Prefab} {output : Output}
    (member : output ∈ prefabOutputs layout prefab) : output.name.prefabId = prefab.id := by
  rcases List.mem_append.1 member with isFile | isScript
  · obtain ⟨body, -, isOutput⟩ := List.mem_flatMap.1 isFile
    obtain ⟨directory, -, rfl⟩ := List.mem_map.1 isOutput
    rfl
  · obtain rfl := List.mem_singleton.1 isScript
    rfl

/-- The outputs of a prefab are in the directories of the project. -/
theorem directory_mem {layout : OutputLayout} {prefab : Prefab} {output : Output}
    (member : output ∈ prefabOutputs layout prefab) : output.directory ∈ layout.directories := by
  rcases List.mem_append.1 member with isFile | isScript
  · obtain ⟨body, -, isOutput⟩ := List.mem_flatMap.1 isFile
    obtain ⟨directory, isDirectory, rfl⟩ := List.mem_map.1 isOutput
    exact List.mem_append_left [layout.script] isDirectory
  · obtain rfl := List.mem_singleton.1 isScript
    simp [OutputLayout.directories]

/-- The index is an output of a prefab with its name only. -/
theorem indexOutput_mem {layout : OutputLayout} {prefab : Prefab} :
    indexOutput layout ∈ prefabOutputs layout prefab ↔ prefab.id = "index" := by
  refine ⟨fun member => (prefabId_of_mem member).symm, fun same => ?_⟩
  exact List.mem_append_right _ (by rw [same]; exact List.mem_singleton_self _)

/-- The outputs of a prefab are different if its bodies and the directories are. -/
theorem prefabOutputs_nodup {layout : OutputLayout} (directories : (bodyDirectories layout).Nodup)
    {prefab : Prefab} (bodies : (prefab.bodies.map (·.id)).Nodup) :
    (prefabOutputs layout prefab).Nodup := by
  refine List.Nodup.append (List.nodup_flatMap.2 ⟨fun body _ => ?_, ?_⟩)
    (List.nodup_singleton _) ?_
  · exact directories.map fun _ _ same => congrArg Output.directory same
  · refine (List.pairwise_map.1 (bodies.sublist (List.filter_sublist.map _))).imp ?_
    intro first second different output isFirst isSecond
    obtain ⟨_, -, rfl⟩ := List.mem_map.1 isFirst
    obtain ⟨_, -, same⟩ := List.mem_map.1 isSecond
    exact different (OutputName.file.inj (congrArg Output.name same)).2.symm
  · intro output isFile isScript
    obtain ⟨body, -, isOutput⟩ := List.mem_flatMap.1 isFile
    obtain ⟨_, -, rfl⟩ := List.mem_map.1 isOutput
    exact nomatch congrArg Output.name (List.mem_singleton.1 isScript)

/-- Outputs of different prefabs are different. -/
theorem disjoint_prefabOutputs {layout : OutputLayout} {first second : Prefab}
    (different : first.id ≠ second.id) :
    (prefabOutputs layout first).Disjoint (prefabOutputs layout second) :=
  fun _ isFirst isSecond => different ((prefabId_of_mem isFirst).symm.trans (prefabId_of_mem isSecond))

/-- All outputs are different if the prefabs, their bodies and the directories are, and no prefab
has the name of the index. -/
theorem allOutputs_nodup_iff {layout : OutputLayout} (directories : (bodyDirectories layout).Nodup)
    {prefabs : List Prefab} (distinct : (prefabs.map (·.id)).Nodup)
    (bodies : ∀ prefab ∈ prefabs, (prefab.bodies.map (·.id)).Nodup) :
    (prefabs.flatMap (prefabOutputs layout) ++ [indexOutput layout]).Nodup ↔
      ∀ prefab ∈ prefabs, prefab.id ≠ "index" := by
  have own : (prefabs.flatMap (prefabOutputs layout)).Nodup :=
    List.nodup_flatMap.2 ⟨fun prefab member => prefabOutputs_nodup directories (bodies prefab member),
      (List.pairwise_map.1 distinct).imp disjoint_prefabOutputs⟩
  rw [List.nodup_append']
  simp [own, indexOutput_mem]

/-- The paths of all artifacts and of the index are those of all outputs. -/
theorem artifacts_outputs {emitter : Emitter} {prefabs : List Prefab}
    {artifacts : List (List Artifact)}
    (made : (prefabs.mapM emitter.prefabArtifacts).run.value = .ok artifacts) :
    (∀ prefab ∈ prefabs, ∀ output ∈ prefabOutputs emitter.layout prefab, output.IsPlain) ∧
      (artifacts.flatten ++ [emitter.indexArtifact prefabs]).map (·.path) =
        (prefabs.flatMap (prefabOutputs emitter.layout) ++
          [indexOutput emitter.layout]).map Output.path := by
  obtain ⟨plain, paths⟩ := (List.forall₂_and_left _ _).1
    ((forall₂_of_value_run_mapM made).imp fun _ _ => prefabArtifacts_outputs)
  have same : prefabs.map (fun prefab => (prefabOutputs emitter.layout prefab).map Output.path) =
      artifacts.map (·.map (·.path)) := by
    rwa [← List.forall₂_eq_eq_eq, List.forall₂_map_left_iff, List.forall₂_map_right_iff]
  refine ⟨plain, ?_⟩
  rw [List.map_append, List.map_append, List.map_flatMap, List.flatMap_def, same,
    ← List.map_flatten]
  rfl

/-- With the directories of a project that says nothing else, the paths of all artifacts of
different prefabs with different bodies are different, and different from that of the index,
exactly if no prefab has the name of the index. -/
theorem artifacts_nodup_iff {emitter : Emitter} (isDefault : emitter.layout = .default)
    {prefabs : List Prefab} (distinct : (prefabs.map (·.id)).Nodup)
    (bodies : ∀ prefab ∈ prefabs, (prefab.bodies.map (·.id)).Nodup)
    {artifacts : List (List Artifact)}
    (made : (prefabs.mapM emitter.prefabArtifacts).run.value = .ok artifacts) :
    ((artifacts.flatten ++ [emitter.indexArtifact prefabs]).map (·.path.components)).Nodup ↔
      ∀ prefab ∈ prefabs, prefab.id ≠ "index" := by
  obtain ⟨plain, paths⟩ := artifacts_outputs made
  rw [isDefault] at plain paths
  have directories : (OutputLayout.default.directories.map Path.components).Nodup := by decide
  have components : (artifacts.flatten ++ [emitter.indexArtifact prefabs]).map
      (·.path.components) = (prefabs.flatMap (prefabOutputs .default) ++
        [indexOutput .default]).map (·.path.components) := by
    have mapped := congrArg (List.map Path.components) paths
    rwa [List.map_map, List.map_map] at mapped
  have outputs := allOutputs_nodup_iff (by decide : (bodyDirectories .default).Nodup) distinct bodies
  rw [components, ← outputs]
  refine ⟨List.Nodup.of_map _, List.Nodup.map_on ?_⟩
  have known : ∀ output ∈ prefabs.flatMap (prefabOutputs .default) ++ [indexOutput .default],
      output.IsPlain ∧ output.directory ∈ OutputLayout.default.directories := by
    intro output member
    rcases List.mem_append.1 member with isOutput | isIndex
    · obtain ⟨prefab, isPrefab, isOutput⟩ := List.mem_flatMap.1 isOutput
      exact ⟨plain prefab isPrefab output isOutput, directory_mem isOutput⟩
    · obtain rfl := List.mem_singleton.1 isIndex
      refine ⟨List.forall_mem_singleton.2 ?_, by decide⟩
      exact isPlainName_of_isFileName (by decide : isFileName "index.js" = true)
  intro first isFirst second isSecond same
  obtain ⟨firstPlain, firstKnown⟩ := known first isFirst
  obtain ⟨secondPlain, secondKnown⟩ := known second isSecond
  obtain ⟨sameDirectory, sameName⟩ := Output.eq_of_components_eq firstPlain secondPlain same
  have sameDirectory := List.inj_on_of_nodup_map directories firstKnown secondKnown sameDirectory
  cases first
  cases second
  exact congrArg₂ Output.mk sameDirectory sameName

/-- An emitter of a project that says nothing else, with nothing in its templates. -/
def bareEmitter : Emitter :=
  ⟨.default, ⟨"", "", ⟨"", [⟨⟨"", .empty⟩, [⟨templateBone, none, .zero, none, none, .empty⟩],
    .empty⟩], .empty⟩⟩, 1.0⟩

/-- A prefab of one body that is drawn. -/
def door : Prefab :=
  ⟨"door", [⟨"wing", .zero, [], [⟨.zero, .zero, none, none, .empty⟩], none, none, .empty⟩], []⟩

/-- The outputs of a door are different. -/
theorem artifacts_nodup_door :
    ∃ artifacts, ([door].mapM bareEmitter.prefabArtifacts).run.value = .ok artifacts ∧
      ((artifacts.flatten ++ [bareEmitter.indexArtifact [door]]).map (·.path.components)).Nodup :=
  ⟨_, rfl, (artifacts_nodup_iff rfl (by decide) (by decide) rfl).2 (by decide)⟩

/-- The script of a prefab with the name of the index has the path of the index. -/
theorem artifacts_not_nodup_index :
    let prefabs : List Prefab := [⟨"index", [], []⟩]
    (prefabs.map (·.id)).Nodup ∧ (∀ prefab ∈ prefabs, (prefab.bodies.map (·.id)).Nodup) ∧
      ∃ artifacts, (prefabs.mapM bareEmitter.prefabArtifacts).run.value = .ok artifacts ∧
        ¬ ((artifacts.flatten ++ [bareEmitter.indexArtifact prefabs]).map (·.path)).Nodup :=
  ⟨by decide, by decide, _, rfl, by decide⟩

end Emitter

end PhysicsPrefab
