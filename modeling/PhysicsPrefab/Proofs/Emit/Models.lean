import PhysicsPrefab.Proofs.Emit.Confinement
import PhysicsPrefab.Proofs.Model.Changing

/-!
# Models of bodies

The model of a body is the model template with two changes: another identifier of the first geometry,
and the cubes of the body in its first bone of the name for them (`entityModel_eq_ok`). It is refused
only for a template that has no such geometry or no such bone. What is written of it is read as just
that model (`entityModelText_isRead`), for every template and every body that was compiled from a
model that was read. Bones hang on the same parents as in the template, so the model has a part in the
physics only if the template has.
-/

namespace PhysicsPrefab

open Json (Number)

/-- Whether a model is a template with another identifier of the first geometry and other cubes in the
first bone of the name for them, and with nothing else changed. -/
def Model.IsStampedWith (identifier : String) (cubes : List (Cube Float))
    (template result : Model Float) : Prop :=
  ∃ first others before bone after,
    template.geometries = first :: others ∧ first.bones = before ++ bone :: after ∧
    bone.name = templateBone ∧ (∀ earlier ∈ before, earlier.name ≠ templateBone) ∧
    result = { template with geometries := { first with
      description := { first.description with identifier := identifier }
      bones := before ++ { bone with cubes := some cubes } :: after } :: others }

/-- Cubes are put into the first bone of the name for it, and nothing else is changed. -/
theorem putCubes_eq_some (cubes : List (Cube Float)) {bones changed : List (Bone Float)} :
    putCubes cubes bones = some changed ↔ ∃ before bone after, bones = before ++ bone :: after ∧
      bone.name = templateBone ∧ (∀ earlier ∈ before, earlier.name ≠ templateBone) ∧
      changed = before ++ { bone with cubes := some cubes } :: after := by
  induction bones generalizing changed with
  | nil =>
    constructor
    · intro isChanged
      cases isChanged
    · rintro ⟨before, bone, after, split, -⟩
      cases before <;> cases split
  | cons first rest ih =>
    rw [putCubes]
    by_cases isFirst : first.name = templateBone
    · rw [if_pos isFirst, Option.some.injEq]
      constructor
      · rintro rfl
        exact ⟨[], first, rest, rfl, isFirst, List.forall_mem_nil _, rfl⟩
      · rintro ⟨before, bone, after, split, -, noneEarlier, rfl⟩
        cases before with
        | nil =>
          cases split
          rfl
        | cons other before =>
          cases split
          exact absurd isFirst (noneEarlier _ List.mem_cons_self)
    · rw [if_neg isFirst, Option.map_eq_some_iff]
      constructor
      · rintro ⟨_, isChanged, rfl⟩
        obtain ⟨before, bone, after, rfl, isNamed, noneEarlier, rfl⟩ := ih.1 isChanged
        exact ⟨first :: before, bone, after, rfl, isNamed,
          List.forall_mem_cons.2 ⟨isFirst, noneEarlier⟩, rfl⟩
      · rintro ⟨before, bone, after, split, isNamed, noneEarlier, rfl⟩
        cases before with
        | nil =>
          cases split
          exact absurd isNamed isFirst
        | cons other before =>
          cases split
          have isChanged := ih.2 ⟨before, bone, after, rfl, isNamed,
            (List.forall_mem_cons.1 noneEarlier).2, rfl⟩
          exact ⟨_, isChanged, rfl⟩

section

variable {template result : Model Float} {prefabId : String} {body : Body Float}

/-- The model of a body is refused for want of a geometry exactly if there is none. -/
theorem entityModel_noTemplateGeometry :
    entityModel template prefabId body = .error .noTemplateGeometry ↔ template.geometries = [] := by
  unfold entityModel
  split
  · rename_i isNone
    exact iff_of_true rfl isNone
  · rename_i isSome
    refine iff_of_false (fun refused => ?_) (by simp [isSome])
    split at refused <;> cases refused

/-- The model of a body is refused for want of a bone exactly if the first geometry has none. -/
theorem entityModel_noTemplateBone :
    entityModel template prefabId body = .error .noTemplateBone ↔
      ∃ first, template.geometries.head? = some first ∧
        ∀ bone ∈ first.bones, bone.name ≠ templateBone := by
  unfold entityModel
  split
  · rename_i isNone
    exact iff_of_false nofun (by simp [isNone])
  · rename_i first others isSome
    simp only [isSome, List.head?_cons, Option.some.injEq, exists_eq_left']
    rw [← putCubes_eq_none body.cubes]
    split
    · rename_i isNone
      exact iff_of_true rfl isNone
    · rename_i isChanged
      exact iff_of_false nofun (by simp [isChanged])

/-- The model of a body is the template with the identifier and the cubes of the body. -/
theorem entityModel_eq_ok : entityModel template prefabId body = .ok result ↔
    template.IsStampedWith (geometryIdentifier prefabId body.id) body.cubes result := by
  unfold entityModel
  split
  · rename_i isNone
    refine iff_of_false nofun fun ⟨_, _, _, _, _, isSome, _⟩ => ?_
    cases isNone.symm.trans isSome
  · rename_i first others isSome
    split
    · rename_i isNone
      refine iff_of_false nofun fun ⟨_, _, before, bone, after, same, split, isNamed, _⟩ => ?_
      cases isSome.symm.trans same
      exact (putCubes_eq_none body.cubes).1 isNone bone (by simp [split]) isNamed
    · rename_i changed isChanged
      constructor
      · rintro ⟨⟩
        obtain ⟨before, bone, after, split, isNamed, noneEarlier, rfl⟩ :=
          (putCubes_eq_some body.cubes).1 isChanged
        exact ⟨first, others, before, bone, after, isSome, split, isNamed, noneEarlier, rfl⟩
      · rintro ⟨_, _, before, bone, after, same, split, isNamed, noneEarlier, rfl⟩
        cases isSome.symm.trans same
        have areChanged := (putCubes_eq_some body.cubes).2
          ⟨before, bone, after, split, isNamed, noneEarlier, rfl⟩
        cases isChanged.symm.trans areChanged
        rfl

/-- The text of the model of a body is missing for the reasons for which the model is. -/
theorem entityModelText_eq_error {error : EmitError} :
    entityModelText template prefabId body = .error error ↔
      entityModel template prefabId body = .error error := by
  unfold entityModelText
  cases entityModel template prefabId body <;> simp [Except.map]

/-- The text of the model of a body is what is written of the model. -/
theorem entityModelText_eq_ok {text : String} : entityModelText template prefabId body = .ok text ↔
    ∃ model, entityModel template prefabId body = .ok model ∧ model.toValue.pretty = text :=
  Answer.map_eq_ok

end

namespace Model.IsStampedWith

variable {identifier : String} {cubes : List (Cube Float)} {template result : Model Float}

/-- The bones hang on the parents on which those of the template hang. -/
theorem hasBonesUnder_eq (isStamped : template.IsStampedWith identifier cubes result)
    (parents : List String) : result.hasBonesUnder parents = template.hasBonesUnder parents := by
  obtain ⟨first, others, before, bone, after, geometries, bones, -, -, rfl⟩ := isStamped
  simp only [hasBonesUnder, geometries, bones, List.any_cons, List.any_append]

/-- A model that is stamped can be read if the template and the cubes can. -/
theorem reads (isStamped : template.IsStampedWith identifier cubes result) {limit : Nat}
    (templateReads : Reader.model.Reads (limit + 6) template)
    (each : ∀ cube ∈ cubes, Reader.cube.Reads limit cube) : Reader.model.Reads (limit + 6) result := by
  obtain ⟨first, others, before, bone, after, geometries, bones, -, -, rfl⟩ := isStamped
  have geometriesRead := Reader.reads_geometries templateReads
  rw [geometries, List.forall_mem_cons] at geometriesRead
  obtain ⟨firstRead, othersRead⟩ := geometriesRead
  have bonesRead := Reader.reads_bones firstRead
  rw [bones, List.forall_mem_append, List.forall_mem_cons] at bonesRead
  obtain ⟨beforeRead, boneRead, afterRead⟩ := bonesRead
  have detailsRead :=
    Reader.reads_description_identifier (Reader.reads_description firstRead) identifier
  refine Reader.reads_model_geometries templateReads (List.forall_mem_cons.2 ⟨?_, othersRead⟩)
  refine Reader.reads_geometry_parts firstRead detailsRead (List.forall_mem_append.2 ⟨beforeRead, ?_⟩)
  exact List.forall_mem_cons.2 ⟨Reader.reads_bone_cubes boneRead each, afterRead⟩

end Model.IsStampedWith

/-- The finite cubes of a body can be read if the model that the body was compiled from can. -/
theorem Model.Reader.reads_cubes_of_body {source : Model Float} {limit : Nat}
    (reads : model.Reads (limit + 2 + 6) source) {geometry : Geometry Float}
    (isGeometry : geometry ∈ source.geometries) {body : Body Float}
    (isBody : body ∈ geometry.compiled.bodies) (areFinite : ∀ cube ∈ body.cubes, cube.IsFinite) :
    ∀ cube ∈ body.cubes, Reader.cube.Reads (limit + 2) cube := by
  obtain ⟨bone, isBone, stands⟩ := geometry.compiled_sound.bones body isBody
  have geometryRead := reads_geometries reads geometry isGeometry
  have boneRead := reads_bones geometryRead bone isBone
  rw [stands.cubes] at areFinite ⊢
  intro cube isCube
  have isFinite := areFinite cube isCube
  obtain ⟨origin, isOrigin, rfl⟩ := List.mem_map.1 isCube
  exact reads_cube_relativeTo (reads_cubes boneRead origin isOrigin) isFinite

/-- For any template and any body compiled from a model, both read from texts, the text of the model of
the body is refused exactly for the lack of a geometry or of a bone in it. Otherwise it is read as the
template with the identifier and the cubes of the body. Its bones hang on the parents on which those of
the template hang, so it has a part in the physics only if the template has. -/
theorem entityModelText_isRead {templateText sourceText : String} {template source : Model Float}
    (isTemplate : Model.parse templateText = .ok template)
    (isSource : Model.parse sourceText = .ok source) {geometry : Geometry Float}
    (isGeometry : geometry ∈ source.geometries) {body : Body Float}
    (isBody : body ∈ geometry.compiled.bodies) (areFinite : ∀ cube ∈ body.cubes, cube.IsFinite)
    (prefabId : String)
    (doubles : ∀ result, template.IsStampedWith (geometryIdentifier prefabId body.id) body.cubes result →
      ∀ value : Float, .double value ∈ result.toValue.numbers → value.isFinite = true →
        (Number.double value).ReadsBack) :
    (entityModelText template prefabId body = .error .noTemplateGeometry ↔ template.geometries = []) ∧
    (entityModelText template prefabId body = .error .noTemplateBone ↔
      ∃ first, template.geometries.head? = some first ∧
        ∀ bone ∈ first.bones, bone.name ≠ templateBone) ∧
    (template.HasTemplateBone → ∃ text result, entityModelText template prefabId body = .ok text ∧
      Model.parse text = .ok result ∧
      template.IsStampedWith (geometryIdentifier prefabId body.id) body.cubes result) ∧
    ∀ text result, entityModelText template prefabId body = .ok text →
      Model.parse text = .ok result → ∀ parents,
        result.hasBonesUnder parents = template.hasBonesUnder parents := by
  have templateReads : Model.Reader.model.Reads (119 + 2 + 6) template :=
    Model.reads_of_parse isTemplate
  have sourceReads : Model.Reader.model.Reads (119 + 2 + 6) source := Model.reads_of_parse isSource
  have cubesRead := Model.Reader.reads_cubes_of_body sourceReads isGeometry isBody areFinite
  have again {result : Model Float} (isModel : entityModel template prefabId body = .ok result) :
      Model.parse result.toValue.pretty = .ok result := by
    have isStamped := entityModel_eq_ok.1 isModel
    exact (Model.parse_of_reads (isStamped.reads templateReads cubesRead) (doubles result isStamped)).2
  refine ⟨entityModelText_eq_error.trans entityModel_noTemplateGeometry,
    entityModelText_eq_error.trans entityModel_noTemplateBone, fun hasBone => ?_,
    fun text result isText isRead parents => ?_⟩
  · obtain ⟨result, isModel⟩ := hasBone.exists_entityModel prefabId body
    exact ⟨_, result, entityModelText_eq_ok.2 ⟨result, isModel, rfl⟩, again isModel,
      entityModel_eq_ok.1 isModel⟩
  · obtain ⟨model, isModel, rfl⟩ := entityModelText_eq_ok.1 isText
    cases (again isModel).symm.trans isRead
    exact (entityModel_eq_ok.1 isModel).hasBonesUnder_eq parents

/-- The text of a template whose second bone has the name for cubes. -/
def Model.crateTemplateText : String :=
  "\x7b\"minecraft:geometry\":[\x7b\"description\":\x7b\"identifier\":\"t\"\x7d,\"bones\":[" ++
  "\x7b\"name\":\"root\"\x7d,\x7b\"name\":\"model\",\"w\":[]\x7d]\x7d]\x7d"

/-- The text of a crate whose lid is one cube. -/
def Model.crateText : String :=
  "\x7b\"minecraft:geometry\":[\x7b\"description\":\x7b\"identifier\":\"crate\"\x7d,\"bones\":[" ++
  "\x7b\"name\":\"lid\",\"parent\":\"Objects\",\"pivot\":[0,8,0],\"cubes\":[" ++
  "\x7b\"origin\":[1,8,0],\"size\":[2,1,2],\"k\":1\x7d]\x7d]\x7d]\x7d"

/-- How the model of the lid of the crate is written. -/
def Model.crateWritten : String :=
  "\x7b\"format_version\":\"\",\"minecraft:geometry\":[\x7b\"description\":\x7b" ++
  "\"identifier\":\"geometry.crate.lid\"\x7d,\"bones\":[" ++
  "\x7b\"name\":\"root\",\"pivot\":[0.0,0.0,0.0]\x7d," ++
  "\x7b\"name\":\"model\",\"pivot\":[0.0,0.0,0.0],\"cubes\":[" ++
  "\x7b\"origin\":[1.0,0.0,0.0],\"size\":[2.0,1.0,2.0],\"k\":1\x7d],\"w\":[]\x7d]\x7d]\x7d"

/-- The model of the lid of the crate is read again as what it is. -/
theorem entityModelText_isRead_crate : ∃ template source geometry body,
    Model.parse Model.crateTemplateText = .ok template ∧ Model.parse Model.crateText = .ok source ∧
    geometry ∈ source.geometries ∧ body ∈ geometry.compiled.bodies ∧
    (∀ cube ∈ body.cubes, cube.IsFinite) ∧
    (∀ result, template.IsStampedWith (geometryIdentifier "crate" body.id) body.cubes result →
      ∀ value : Float, .double value ∈ result.toValue.numbers → value.isFinite = true →
        (Number.double value).ReadsBack) ∧
    template.HasTemplateBone ∧ ∃ text result, entityModelText template "crate" body = .ok text ∧
      Model.parse text = .ok result ∧ result.toValue.text = Model.crateWritten ∧
      template.IsStampedWith (geometryIdentifier "crate" body.id) body.cubes result := by
  have passes : (Model.parse Model.crateTemplateText).toOption.any (fun template =>
      (Model.parse Model.crateText).toOption.any fun source =>
        source.geometries.any fun geometry => geometry.compiled.bodies.any fun body =>
          (entityModel template "crate" body).toOption.any fun model =>
            (∀ cube ∈ body.cubes, cube.IsFinite) ∧ (∀ number ∈ model.toValue.numbers, number.ReadsBack) ∧
              model.toValue.text = Model.crateWritten) = true := by decide +kernel
  obtain ⟨template, isTemplate, passes⟩ := Answer.exists_of_any passes
  obtain ⟨source, isSource, passes⟩ := Answer.exists_of_any passes
  obtain ⟨geometry, isGeometry, passes⟩ := List.any_eq_true.1 passes
  obtain ⟨body, isBody, passes⟩ := List.any_eq_true.1 passes
  obtain ⟨model, isModel, passes⟩ := Answer.exists_of_any passes
  obtain ⟨areFinite, readsBack, isWritten⟩ := of_decide_eq_true passes
  have doubles (result : Model Float)
      (isStamped : template.IsStampedWith (geometryIdentifier "crate" body.id) body.cubes result)
      (value : Float) (inside : .double value ∈ result.toValue.numbers) (_ : value.isFinite = true) :
      (Number.double value).ReadsBack := by
    cases isModel.symm.trans (entityModel_eq_ok.2 isStamped)
    exact readsBack _ inside
  have isStamped := entityModel_eq_ok.1 isModel
  have hasBone : template.HasTemplateBone := by
    obtain ⟨first, others, before, bone, after, geometries, bones, isNamed, -⟩ := isStamped
    exact ⟨first, by rw [geometries]; rfl, bone, by rw [bones]; simp, isNamed⟩
  obtain ⟨-, -, isRead, -⟩ := entityModelText_isRead isTemplate isSource isGeometry isBody areFinite
    "crate" doubles
  obtain ⟨text, result, isText, isResult, resultStamped⟩ := isRead hasBone
  cases isModel.symm.trans (entityModel_eq_ok.2 resultStamped)
  exact ⟨template, source, geometry, body, isTemplate, isSource, isGeometry, isBody, areFinite, doubles,
    hasBone, text, model, isText, isResult, isWritten, resultStamped⟩

end PhysicsPrefab
