import PhysicsPrefab.Emit.Artifact
import PhysicsPrefab.Model.Written
import PhysicsPrefab.Prefab.Body

/-!
# Models of entities

The model of a body is the model template with the identifier of its first geometry changed and
the cubes of the body put into its bone `model`. The cubes are relative to the pivot of the
body, which is what that bone expects.
-/

namespace PhysicsPrefab

/-- The identifier of the model of a body. -/
def geometryIdentifier (prefabId bodyId : String) : String := s!"geometry.{prefabId}.{bodyId}"

/-- Put cubes into the first bone of the template's name. -/
def putCubes (cubes : List (Cube Float)) : List (Bone Float) → Option (List (Bone Float))
  | [] => none
  | bone :: rest =>
    if bone.name = templateBone then some ({ bone with cubes := some cubes } :: rest)
    else (putCubes cubes rest).map (bone :: ·)

/-- The model of a body. -/
def entityModel (template : Model Float) (prefabId : String) (body : Body Float) :
    Except EmitError (Model Float) :=
  match template.geometries with
  | [] => .error .noTemplateGeometry
  | geometry :: others =>
    match putCubes body.cubes geometry.bones with
    | none => .error .noTemplateBone
    | some bones =>
      let description :=
        { geometry.description with identifier := geometryIdentifier prefabId body.id }
      .ok { template with geometries := { geometry with description, bones } :: others }

/-- The text of the model of a body. -/
def entityModelText (template : Model Float) (prefabId : String) (body : Body Float) :
    Except EmitError String :=
  (entityModel template prefabId body).map fun model => model.toValue.pretty

end PhysicsPrefab
