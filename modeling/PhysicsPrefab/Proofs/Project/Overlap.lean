import PhysicsPrefab.Proofs.Files.Below
import PhysicsPrefab.Proofs.Project.Keeping

/-!
# Artifacts among the sources

In a project that says nothing of its directories the models of bodies go where the sources are. All
other artifacts go elsewhere (`eq_geometry_of_below`), so an artifact that lies among the sources is
the model of a body (`Prepared.exists_modelFile`), and every body that is drawn has one there
(`Prepared.modelFile_mem`).
-/

namespace PhysicsPrefab

open FileTree Program

/-- The settings of a project that says at most what bodies weigh, and that sources are to be
kept. -/
structure Config.OnlyKeeps (config : Config) : Prop where
  /-- The sources are in their usual directory. -/
  sourceDirectory : config.sourceDirectory = Config.default.sourceDirectory
  /-- The artifacts go to the usual directories. -/
  layout : config.layout = .default
  /-- The built-in templates are used. -/
  templates : config.templates = .none
  /-- Sources stay. -/
  keepSources : config.keepSources = true

/-- A directory with plain names is below every root. -/
theorem join_eq_pathBelow (root : Path) {directory : Path} {name : String} {names : Location}
    (plain : ∀ inner ∈ names, IsPlainName inner) (same : pathBelow ⟨name⟩ names = directory) :
    root.join directory = pathBelow root (name :: names) := by
  rw [pathBelow_cons root plain, same]

namespace OutputLayout

/-- The usual directories are below the root, and one of them is the directory of models. -/
theorem exists_default (root : Path) : ∀ directory ∈ OutputLayout.default.directories,
    ∃ first second rest, (∀ name ∈ first :: second :: rest, IsPlainName name) ∧
      root.join directory = pathBelow root (first :: second :: rest) ∧
      (first = "RP" ∧ second = "models" → directory = OutputLayout.default.geometry) := by
  intro directory member
  simp only [directories, List.mem_cons, List.not_mem_nil, or_false] at member
  rcases member with rfl | rfl | rfl | rfl
  · exact ⟨"BP", "entities", ["physics", "prefabs"], by decide,
      join_eq_pathBelow root (by decide) (by decide), by decide⟩
  · exact ⟨"RP", "entity", ["physics", "prefabs"], by decide,
      join_eq_pathBelow root (by decide) (by decide), by decide⟩
  · exact ⟨"RP", "models", ["entity", "physics", "prefabs"], by decide,
      join_eq_pathBelow root (by decide) (by decide), by decide⟩
  · exact ⟨"data", "gametests", ["src", "prefabs"], by decide,
      join_eq_pathBelow root (by decide) (by decide), by decide⟩

/-- The directory of models under the root. -/
theorem join_geometry (root : Path) : root.join OutputLayout.default.geometry =
    pathBelow root ["RP", "models", "entity", "physics", "prefabs"] :=
  join_eq_pathBelow root (by decide) (by decide)

/-- What lies below a usual directory and below the directory of models lies nowhere else. -/
theorem eq_geometry_of_below {tree : FileTree} {current base modelBase : Location}
    {root directory : Path} {inner names : Location}
    (isUsual : directory ∈ OutputLayout.default.directories)
    (leads : tree.LeadsTo current (root.join directory) base)
    (modelLeads : tree.LeadsTo current (root.join OutputLayout.default.geometry) modelBase)
    (same : base ++ inner = modelBase ++ names) :
    directory = OutputLayout.default.geometry ∧ inner = names := by
  suffices isModels : directory = OutputLayout.default.geometry by
    subst isModels
    obtain rfl := leads.unique modelLeads
    exact ⟨rfl, List.append_cancel_left same⟩
  obtain ⟨first, second, rest, plain, below, isGeometry⟩ := exists_default root directory isUsual
  rw [below] at leads
  rw [join_geometry] at modelLeads
  obtain ⟨rootBase, rootLeads, rfl⟩ := leadsTo_pathBelow plain (List.cons_ne_nil _ _) leads
  obtain ⟨other, otherLeads, rfl⟩ :=
    leadsTo_pathBelow (by decide) (List.cons_ne_nil _ _) modelLeads
  obtain rfl := rootLeads.unique otherLeads
  rw [List.append_assoc, List.append_assoc] at same
  obtain ⟨isFirst, others⟩ := List.cons.inj (List.append_cancel_left same)
  exact isGeometry ⟨isFirst, (List.cons.inj others).1⟩

end OutputLayout

namespace Emitter

/-- The model of a body as an artifact, made from the built-in template. -/
def modelFile (layout : OutputLayout) (prefabId : String) (body : Body Float) : Artifact :=
  ⟨bodyPath layout.geometry prefabId body.id,
    (Template.stamped (geometryIdentifier prefabId body.id) body.cubes).toValue.pretty⟩

variable {emitter : Emitter} {prefab : Prefab} {artifacts : List Artifact}

/-- With the built-in model the artifacts of a prefab are those of its bodies and its script. -/
theorem prefabArtifacts_builtin (modelTemplate : emitter.templates.geometry = Template.builtinModel)
    (made : (emitter.prefabArtifacts prefab).run.value = .ok artifacts) :
    isFileName prefab.id = true ∧
      (∀ body ∈ prefab.bodies.filter Body.isVisual, isFileName body.id = true) ∧
      artifacts = ((prefab.bodies.filter Body.isVisual).map fun body =>
        emitter.bodyFiles prefab.id body.id
          (Template.stamped (geometryIdentifier prefab.id body.id) body.cubes)).flatten ++
        [emitter.scriptFile prefab] := by
  obtain ⟨prefabAccepted, files, filesOf, -⟩ := prefabArtifacts_eq_ok.1 made
  have bodiesAccepted : ∀ body ∈ prefab.bodies.filter Body.isVisual, isFileName body.id = true :=
    ((List.forall₂_and_left _ _).1 (filesOf.imp fun _ _ isFiles => ⟨isFiles.accepted, trivial⟩)).1
  rw [prefabArtifacts_of_accepted modelTemplate prefabAccepted bodiesAccepted] at made
  exact ⟨prefabAccepted, bodiesAccepted, (Except.ok.inj made).symm⟩

/-- An artifact of a prefab is the model of a body or goes to another directory. -/
theorem modelFile_or_elsewhere (modelTemplate : emitter.templates.geometry = Template.builtinModel)
    (made : (emitter.prefabArtifacts prefab).run.value = .ok artifacts) {artifact : Artifact}
    (member : artifact ∈ artifacts) :
    (∃ body ∈ prefab.bodies.filter Body.isVisual,
      artifact = modelFile emitter.layout prefab.id body) ∨
    ∃ output ∈ prefabOutputs emitter.layout prefab, artifact.path = output.path ∧
      output.directory ∈ [emitter.layout.behavior, emitter.layout.appearance, emitter.layout.script] := by
  obtain ⟨-, -, rfl⟩ := prefabArtifacts_builtin modelTemplate made
  rcases List.mem_append.1 member with isFile | isScript
  · obtain ⟨_, isOwn, isFile⟩ := List.mem_flatten.1 isFile
    obtain ⟨body, isBody, rfl⟩ := List.mem_map.1 isOwn
    have isOutput : ∀ directory ∈ bodyDirectories emitter.layout,
        ⟨directory, .file prefab.id body.id⟩ ∈ prefabOutputs emitter.layout prefab :=
      fun directory isDirectory => List.mem_append_left _
        (List.mem_flatMap.2 ⟨body, isBody, List.mem_map_of_mem isDirectory⟩)
    simp only [bodyFiles, List.mem_cons, List.not_mem_nil, or_false] at isFile
    rcases isFile with rfl | rfl | rfl
    · exact .inr ⟨_, isOutput emitter.layout.behavior (by simp [bodyDirectories]), rfl, by simp⟩
    · exact .inr ⟨_, isOutput emitter.layout.appearance (by simp [bodyDirectories]), rfl, by simp⟩
    · exact .inl ⟨body, isBody, rfl⟩
  · obtain rfl := List.mem_singleton.1 isScript
    exact .inr ⟨⟨emitter.layout.script, .script prefab.id⟩,
      List.mem_append_right _ (List.mem_singleton_self _), rfl, by simp⟩

end Emitter

namespace Run

open Emitter

variable {root : Path} {config : Config} {before planned after : Disk} {directory : Path}
  {sources : List Path} {models : List (Model Float)} {templates : Templates} {plan : Plan}

/-- The bodies that a plan draws, with the ids of their prefabs. -/
def Plan.drawn (plan : Plan) : List (String × Body Float) :=
  plan.compiled.compilation.prefabs.flatMap fun prefab =>
    (prefab.bodies.filter Body.isVisual).map fun body => (prefab.id, body)

/-- The usual directories have different components. -/
theorem ne_geometry_of_mem : ∀ directory ∈ [OutputLayout.default.behavior,
    OutputLayout.default.appearance, OutputLayout.default.script],
    directory.components ≠ OutputLayout.default.geometry.components := by
  decide

section

variable (prepared : Prepared root config directory before planned sources models templates plan)
  (onlyKeeps : config.OnlyKeeps)

include prepared onlyKeeps

/-- An artifact of a plan that goes to the directory of models is the model of a body. -/
theorem Prepared.modelFile_of_output {artifact : Artifact}
    (member : artifact ∈ plan.artifacts.flatten ++ [plan.index]) {output : Output}
    (plain : output.IsPlain) (path_eq : artifact.path = output.path)
    (isGeometry : output.directory = OutputLayout.default.geometry) :
    ∃ entry ∈ plan.drawn, artifact = modelFile config.layout entry.1 entry.2 := by
  have modelTemplate : templates.geometry = Template.builtinModel := by
    rw [prepared.templates_eq onlyKeeps.templates]
  have elsewhere : ∀ other : Output, other.IsPlain → artifact.path = other.path →
      other.directory ∉ [config.layout.behavior, config.layout.appearance, config.layout.script] := by
    intro other otherPlain otherPath isElsewhere
    have same : other.path.components = output.path.components := by rw [← otherPath, path_eq]
    rw [onlyKeeps.layout] at isElsewhere
    refine ne_geometry_of_mem _ isElsewhere ?_
    rw [(Output.eq_of_components_eq otherPlain plain same).1, isGeometry]
  rcases List.mem_append.1 member with isArtifact | isIndex
  · obtain ⟨own, isOwn, isArtifact⟩ := List.mem_flatten.1 isArtifact
    obtain ⟨prefab, isPrefab, made⟩ := Answer.exists_of_mem_right
      (forall₂_of_value_run_mapM prepared.artifacts) isOwn
    rcases modelFile_or_elsewhere modelTemplate made isArtifact with
      ⟨body, isBody, isModel⟩ | ⟨other, isOther, otherPath, isElsewhere⟩
    · exact ⟨(prefab.id, body), List.mem_flatMap.2 ⟨prefab, isPrefab, List.mem_map_of_mem isBody⟩,
        isModel⟩
    · exact absurd isElsewhere
        (elsewhere other ((prefabArtifacts_outputs made).1 other isOther) otherPath)
  · obtain rfl := List.mem_singleton.1 isIndex
    refine absurd ?_ (elsewhere (indexOutput config.layout) ?_ (by rw [prepared.index]; rfl))
    · simp [indexOutput]
    · exact List.forall_mem_singleton.2
        (isPlainName_of_isFileName (by decide : isFileName "index.js" = true))

/-- An artifact of a plan that lies among the sources is the model of a body. -/
theorem Prepared.exists_modelFile (furnished : Furnished root config.layout after)
    {base names : Location}
    (leads : after.tree.LeadsTo after.current (root.join config.sourceDirectory) base)
    {artifact : Artifact} (member : artifact ∈ plan.artifacts.flatten ++ [plan.index])
    (isAt : after.tree.place? after.current (root.join artifact.path) = some (base ++ names)) :
    (∃ entry ∈ plan.drawn, artifact = modelFile config.layout entry.1 entry.2) ∧
      root.join artifact.path = pathBelow (root.join config.sourceDirectory) names := by
  obtain ⟨id, output, isOutput⟩ := prepared.stamped.exists_of_mem artifact member
  obtain ⟨outputBase, goes⟩ := isOutput.goes furnished
  have path_eq : root.join artifact.path =
      pathBelow (root.join output.directory) output.name.names := by
    rw [isOutput.path_eq, join_path root isOutput.plain]
  have walks := (place?_eq_some.1 isAt).2
  rw [path_eq] at walks
  have isUsual := isOutput.directory
  rw [onlyKeeps.layout] at isUsual
  have isSource : config.sourceDirectory = OutputLayout.default.geometry := onlyKeeps.sourceDirectory
  rw [isSource] at leads ⊢
  obtain ⟨isGeometry, rfl⟩ := OutputLayout.eq_geometry_of_below isUsual goes.leads leads
    (walk_pathBelow goes.leads isOutput.plain walks).symm
  rw [path_eq, isGeometry]
  exact ⟨prepared.modelFile_of_output onlyKeeps member isOutput.plain isOutput.path_eq isGeometry,
    rfl⟩

/-- Every body that is drawn has its model among the artifacts, and ids that are names for files. -/
theorem Prepared.modelFile_mem {entry : String × Body Float} (isDrawn : entry ∈ plan.drawn) :
    modelFile config.layout entry.1 entry.2 ∈ plan.artifacts.flatten ∧
      isFileName entry.1 = true ∧ isFileName entry.2.id = true := by
  have modelTemplate : templates.geometry = Template.builtinModel := by
    rw [prepared.templates_eq onlyKeeps.templates]
  obtain ⟨prefab, isPrefab, isEntry⟩ := List.mem_flatMap.1 isDrawn
  obtain ⟨body, isBody, rfl⟩ := List.mem_map.1 isEntry
  obtain ⟨own, isOwn, made⟩ := Answer.exists_of_mem_right
    (forall₂_of_value_run_mapM prepared.artifacts).flip isPrefab
  obtain ⟨prefabAccepted, bodiesAccepted, rfl⟩ := prefabArtifacts_builtin modelTemplate made
  refine ⟨List.mem_flatten.2 ⟨_, isOwn, List.mem_append_left _ ?_⟩, prefabAccepted,
    bodiesAccepted body isBody⟩
  refine List.mem_flatten.2 ⟨_, List.mem_map_of_mem isBody, ?_⟩
  exact List.mem_cons_of_mem _ (List.mem_cons_of_mem _ (List.mem_singleton_self _))

end

end Run

end PhysicsPrefab
