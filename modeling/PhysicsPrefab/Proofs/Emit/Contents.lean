import PhysicsPrefab.Proofs.Emit.Builtin
import PhysicsPrefab.Proofs.Emit.Outputs

/-!
# What artifacts hold

With the built-in template the model of a body is always there, and holds the cubes of the body
(`entityModel_builtin`). So every prefab is accepted whose ids are names for files
(`prefabArtifacts_of_accepted`).
-/

namespace PhysicsPrefab

open Json (Value)

/-- A whole number as a value. -/
def Json.Value.natural (value : UInt64) : Value := .number (.natural value)

namespace Template

/-- What the description of the built-in model says beside its identifier. -/
def builtinDetails : NameMap Value :=
  .ofList [("texture_width", .natural 64), ("texture_height", .natural 64),
    ("visible_bounds_width", .natural 4), ("visible_bounds_height", .natural 4),
    ("visible_bounds_offset", .array [.natural 0, .natural 0, .natural 0])]

/-- The pivot of the bones of the built-in model. -/
def builtinPivot : Vec3 Float :=
  let zero := (0 : UInt64).toFloat
  ⟨zero, zero, zero⟩

/-- The built-in model with another identifier and other cubes. -/
def stamped (identifier : String) (cubes : List (Cube Float)) : Model Float where
  formatVersion := "1.12.0"
  geometries := [{
    description := ⟨identifier, builtinDetails⟩
    bones := [⟨"root", none, builtinPivot, none, none, .empty⟩,
      ⟨templateBone, some "root", builtinPivot, none, some cubes, .empty⟩]
    extra := .empty }]
  extra := .empty

/-- The built-in model has an identifier of its own and no cubes. -/
theorem builtinModel_eq : builtinModel = stamped "geometry.physics.template" [] := by
  have parsed : Model.parse builtinGeometry = .ok (stamped "geometry.physics.template" []) := by
    unfold Model.parse Json.Reader.run Json.Document.ofText Json.Token.ofText builtinGeometry
    -- the characters are gathered line by line, as decoding the whole text takes long
    simp only [String.toList_intercalate, List.map_cons, List.map_nil, String.reduceToList]
    rfl
  exact Except.ok.inj (parse_builtinGeometry.symm.trans parsed)

end Template

/-- With the built-in template every body has a model, which holds its cubes. -/
theorem entityModel_builtin (prefabId : String) (body : Body Float) :
    entityModel Template.builtinModel prefabId body =
      .ok (Template.stamped (geometryIdentifier prefabId body.id) body.cubes) := by
  rw [Template.builtinModel_eq]
  rfl

namespace Emitter

/-- With the built-in model every prefab is accepted whose ids are names for files. -/
theorem prefabArtifacts_of_accepted {emitter : Emitter}
    (modelTemplate : emitter.templates.geometry = Template.builtinModel) {prefab : Prefab}
    (prefabAccepted : isFileName prefab.id = true)
    (bodiesAccepted : ∀ body ∈ prefab.bodies.filter Body.isVisual, isFileName body.id = true) :
    (emitter.prefabArtifacts prefab).run.value =
      .ok (((prefab.bodies.filter Body.isVisual).map fun body =>
        emitter.bodyFiles prefab.id body.id
          (Template.stamped (geometryIdentifier prefab.id body.id) body.cubes)).flatten ++
        [emitter.scriptFile prefab]) := by
  refine prefabArtifacts_eq_ok.2 ⟨prefabAccepted, _, ?_, rfl⟩
  rw [List.forall₂_map_right_iff, List.forall₂_same]
  intro body member
  exact ⟨bodiesAccepted body member, _, modelTemplate ▸ entityModel_builtin prefab.id body, rfl⟩

end Emitter

/-- Joined texts begin as the first of them does. -/
theorem head?_intercalate {separator start : String} {rest : List String} {first : Char}
    (begins : start.toList.head? = some first) :
    (String.intercalate separator (start :: rest)).toList.head? = some first := by
  rw [String.toList_intercalate]
  cases rest with
  | nil => simpa using begins
  | cons second more => simp [begins]

namespace Template

/-- Replacing leaves the beginning of a text that is not that of the pattern. -/
theorem head?_replaceFrom {pattern value text : List Char} {first : Char}
    (other : pattern.head? ≠ some first) (proper : pattern ≠ []) (begins : text.head? = some first) :
    (replaceFrom pattern value 0 text).head? = some first := by
  obtain ⟨rest, rfl⟩ := List.head?_eq_some_iff.1 begins
  obtain ⟨start, more, rfl⟩ := List.exists_cons_of_ne_nil proper
  have apart : (start == first) = false := by simpa using other
  simp [replaceFrom, List.isPrefixOf, apart]

/-- A text that does not begin with a placeholder begins as its template does. -/
theorem head?_substitute {template : String} {first : Char} (other : first ≠ '#')
    (begins : template.toList.head? = some first) (values : List (String × String)) :
    (substitute template values).toList.head? = some first := by
  rw [substitute, String.toList_ofList]
  generalize template.toList = text at begins
  induction values generalizing text with
  | nil => exact begins
  | cons value rest ih =>
    exact ih _ (head?_replaceFrom (by simpa [placeholder] using Ne.symm other)
      (List.cons_ne_nil _ _) begins)

end Template

/-- A script begins with an import. -/
theorem Script.head?_ofPrefab (prefab : Prefab) (defaultMass : Float) :
    (ofPrefab prefab defaultMass).toList.head? = some 'i' := by
  obtain ⟨rest, same⟩ : ∃ rest, lines prefab defaultMass = .importRuntime :: rest := ⟨_, rfl⟩
  rw [ofPrefab, joinLines, same, List.map_cons, String.join_cons, String.toList_append,
    String.toList_append, List.append_assoc, List.head?_append]
  exact congrArg (Option.or · _) (by decide : ScriptLine.importRuntime.text.toList.head? = some 'i')

/-- The script that imports others begins with an import, if it is not empty. -/
theorem Script.head?_index (ids : List String) :
    (index ids).toList.head? = none ∨ (index ids).toList.head? = some 'i' := by
  have begins : ∀ id, (importLine id).toList.head? = some 'i' := by
    intro id
    rw [importLine, String.toList_append, String.toList_append, List.append_assoc, List.head?_append]
    exact congrArg (Option.or · _) (by decide : "import \"./".toList.head? = some 'i')
  cases ids with
  | nil => exact .inl rfl
  | cons first rest => exact .inr (head?_intercalate (begins first))

/-- A written model begins with a brace. -/
theorem Model.head?_pretty (model : Model Float) :
    model.toValue.pretty.toList.head? = some '\x7b' := by
  rw [Json.Value.pretty, String.toList_ofList, toValue]
  simp [Json.Value.laidOut]

namespace Emitter

variable {emitter : Emitter}
  (behavior : emitter.templates.behavior = Template.builtinBehavior)
  (appearance : emitter.templates.appearance = Template.builtinAppearance)

include behavior appearance

/-- The files of a body begin with a brace if they are made from the built-in texts. -/
theorem FilesOf.head? {prefabId : String} {body : Body Float} {files : List Artifact}
    (filesOf : emitter.FilesOf prefabId body files) :
    ∀ artifact ∈ files, artifact.contents.toList.head? = some '\x7b' := by
  obtain ⟨model, -, rfl⟩ := filesOf.exists_model
  have behaviorHead : Template.builtinBehavior.toList.head? = some '\x7b' :=
    head?_intercalate (by decide)
  have appearanceHead : Template.builtinAppearance.toList.head? = some '\x7b' :=
    head?_intercalate (by decide)
  simp only [bodyFiles, behavior, appearance, List.forall_mem_cons]
  exact ⟨Template.head?_substitute (by decide) behaviorHead _,
    Template.head?_substitute (by decide) appearanceHead _, model.head?_pretty,
    List.forall_mem_nil _⟩

/-- The artifacts of a prefab begin with a brace or an import if they are made from the built-in
texts. -/
theorem prefabArtifacts_head? {prefab : Prefab} {artifacts : List Artifact}
    (made : (emitter.prefabArtifacts prefab).run.value = .ok artifacts) :
    ∀ artifact ∈ artifacts, artifact.contents.toList.head? = some '\x7b' ∨
      artifact.contents.toList.head? = some 'i' := by
  obtain ⟨-, files, filesOf, rfl⟩ := prefabArtifacts_eq_ok.1 made
  intro artifact member
  rcases List.mem_append.1 member with isFile | isScript
  · obtain ⟨own, isOwn, isFile⟩ := List.mem_flatten.1 isFile
    obtain ⟨body, -, ownFiles⟩ := Answer.exists_of_mem_right filesOf isOwn
    exact .inl (ownFiles.head? behavior appearance artifact isFile)
  · obtain rfl := List.mem_singleton.1 isScript
    exact .inr (Script.head?_ofPrefab _ _)

end Emitter

end PhysicsPrefab
