import PhysicsPrefab.Json.Reader
import PhysicsPrefab.Model.Basic

/-!
# Reading models

The readers of the typed parts of a model file. Each kind of object has a type of fields, one
field per member, from which the object is put together when its end is reached; so the order of
the members matters for nothing but the choice among several faults. Unknown fields are kept,
with the last value of a repeated name. Optional fields may be `null`, which is the same as
leaving them out.
-/

namespace PhysicsPrefab

open Json (Fault Node Reader Value)

namespace Model.Reader

/-- Three numbers as a vector. -/
def vector : Reader (Vec3 Float) := fun node =>
  (Reader.triple node).map fun (x, y, z) => ⟨x, y, z⟩

/-- A field of a locator object. -/
inductive LocatorField where
  | offset (value : Vec3 Float)
  | other (name : String) (value : Value)

/-- The offset, if the field is one. -/
def LocatorField.offset? : LocatorField → Option (Vec3 Float)
  | offset value => some value
  | _ => none

/-- The name and value of a field that is kept. -/
def LocatorField.other? : LocatorField → Option (String × Value)
  | other key value => some (key, value)
  | _ => none

/-- A field of a locator object by its name. -/
def locatorField (name : String) : Reader LocatorField := fun node =>
  match name with
  | "offset" => (vector node).map .offset
  | _ => (Reader.value node).map (.other name)

/-- The locator with the given fields: exactly one offset, and data that is kept. -/
def buildLocator (fields : List LocatorField) : Except Fault (Locator Float) := do
  let offset ← Reader.required "offset" (fields.findSome? LocatorField.offset?)
  return .detailed offset (NameMap.ofList (fields.filterMap LocatorField.other?))

/-- A locator in one of its two forms. The value must be well formed as a whole before its form
is looked at, and every misfit is the same fault. -/
def locator : Reader (Locator Float) := fun node =>
  match node.value? with
  | none => .error .malformed
  | some _ =>
    match vector node with
    | .ok position => .ok (.point position)
    | .error _ =>
      match Reader.record "Locator" ["offset"] locatorField buildLocator node with
      | .ok locator => .ok locator
      | .error _ => .error .notALocator

/-- The locators of a bone by name. -/
def locators : Reader (NameMap (Locator Float)) := fun node =>
  (Reader.members locator node).map NameMap.ofList

/-- A field of a cube. -/
inductive CubeField where
  | origin (value : Vec3 Float)
  | size (value : Vec3 Float)
  | rotation (value : Option (Vec3 Float))
  | pivot (value : Option (Vec3 Float))
  | other (name : String) (value : Value)

namespace CubeField

/-- The origin, if the field is one. -/
def origin? : CubeField → Option (Vec3 Float)
  | origin value => some value
  | _ => none

/-- The size, if the field is one. -/
def size? : CubeField → Option (Vec3 Float)
  | size value => some value
  | _ => none

/-- The rotation, if the field gives one. -/
def rotation? : CubeField → Option (Vec3 Float)
  | rotation value => value
  | _ => none

/-- The pivot, if the field gives one. -/
def pivot? : CubeField → Option (Vec3 Float)
  | pivot value => value
  | _ => none

/-- The name and value of a field that is kept. -/
def other? : CubeField → Option (String × Value)
  | other key value => some (key, value)
  | _ => none

end CubeField

/-- A field of a cube by its name. -/
def cubeField (name : String) : Reader CubeField := fun node =>
  match name with
  | "origin" => (vector node).map .origin
  | "size" => (vector node).map .size
  | "rotation" => (Reader.optional vector node).map .rotation
  | "pivot" => (Reader.optional vector node).map .pivot
  | _ => (Reader.value node).map (.other name)

/-- The cube with the given fields. -/
def buildCube (fields : List CubeField) : Except Fault (Cube Float) := do
  let origin ← Reader.required "origin" (fields.findSome? CubeField.origin?)
  let size ← Reader.required "size" (fields.findSome? CubeField.size?)
  return {
    origin
    size
    rotation := fields.findSome? CubeField.rotation?
    pivot := fields.findSome? CubeField.pivot?
    extra := NameMap.ofList (fields.filterMap CubeField.other?) }

/-- A cube. -/
def cube : Reader (Cube Float) :=
  Reader.record "Cube" ["origin", "size", "rotation", "pivot"] cubeField buildCube

/-- A field of a bone. -/
inductive BoneField where
  | name (value : String)
  | parent (value : Option String)
  | pivot (value : Vec3 Float)
  | locators (value : Option (NameMap (Locator Float)))
  | cubes (value : Option (List (Cube Float)))
  | other (name : String) (value : Value)

namespace BoneField

/-- The name of the bone, if the field is one. -/
def name? : BoneField → Option String
  | name value => some value
  | _ => none

/-- The parent, if the field gives one. -/
def parent? : BoneField → Option String
  | parent value => value
  | _ => none

/-- The pivot, if the field is one. -/
def pivot? : BoneField → Option (Vec3 Float)
  | pivot value => some value
  | _ => none

/-- The locators, if the field gives them. -/
def locators? : BoneField → Option (NameMap (Locator Float))
  | locators value => value
  | _ => none

/-- The cubes, if the field gives them. -/
def cubes? : BoneField → Option (List (Cube Float))
  | cubes value => value
  | _ => none

/-- The name and value of a field that is kept. -/
def other? : BoneField → Option (String × Value)
  | other key value => some (key, value)
  | _ => none

end BoneField

/-- A field of a bone by its name. -/
def boneField (name : String) : Reader BoneField := fun node =>
  match name with
  | "name" => (Reader.string node).map .name
  | "parent" => (Reader.optional Reader.string node).map .parent
  | "pivot" => (vector node).map .pivot
  | "locators" => (Reader.optional locators node).map .locators
  | "cubes" => (Reader.optional (Reader.list cube) node).map .cubes
  | _ => (Reader.value node).map (.other name)

/-- The bone with the given fields; a pivot that is not given is the origin. -/
def buildBone (fields : List BoneField) : Except Fault (Bone Float) := do
  let name ← Reader.required "name" (fields.findSome? BoneField.name?)
  return {
    name
    parent := fields.findSome? BoneField.parent?
    pivot := (fields.findSome? BoneField.pivot?).getD Vec3.zero
    locators := fields.findSome? BoneField.locators?
    cubes := fields.findSome? BoneField.cubes?
    extra := NameMap.ofList (fields.filterMap BoneField.other?) }

/-- A bone. -/
def bone : Reader (Bone Float) :=
  Reader.record "Bone" ["name", "parent", "pivot", "locators", "cubes"] boneField buildBone

/-- A field of a description. -/
inductive DescriptionField where
  | identifier (value : String)
  | other (name : String) (value : Value)

/-- The identifier, if the field is one. -/
def DescriptionField.identifier? : DescriptionField → Option String
  | identifier value => some value
  | _ => none

/-- The name and value of a field that is kept. -/
def DescriptionField.other? : DescriptionField → Option (String × Value)
  | other key value => some (key, value)
  | _ => none

/-- A field of a description by its name. -/
def descriptionField (name : String) : Reader DescriptionField := fun node =>
  match name with
  | "identifier" => (Reader.string node).map .identifier
  | _ => (Reader.value node).map (.other name)

/-- The description with the given fields. -/
def buildDescription (fields : List DescriptionField) : Except Fault Description := do
  let identifier ← Reader.required "identifier" (fields.findSome? DescriptionField.identifier?)
  return ⟨identifier, NameMap.ofList (fields.filterMap DescriptionField.other?)⟩

/-- A description. -/
def description : Reader Description :=
  Reader.record "Description" ["identifier"] descriptionField buildDescription

/-- A field of a geometry. -/
inductive GeometryField where
  | description (value : Description)
  | bones (value : List (Bone Float))
  | other (name : String) (value : Value)

namespace GeometryField

/-- The description, if the field is one. -/
def description? : GeometryField → Option Description
  | description value => some value
  | _ => none

/-- The bones, if the field holds them. -/
def bones? : GeometryField → Option (List (Bone Float))
  | bones value => some value
  | _ => none

/-- The name and value of a field that is kept. -/
def other? : GeometryField → Option (String × Value)
  | other key value => some (key, value)
  | _ => none

end GeometryField

/-- A field of a geometry by its name. -/
def geometryField (name : String) : Reader GeometryField := fun node =>
  match name with
  | "description" => (description node).map .description
  | "bones" => (Reader.list bone node).map .bones
  | _ => (Reader.value node).map (.other name)

/-- The geometry with the given fields. -/
def buildGeometry (fields : List GeometryField) : Except Fault (Geometry Float) := do
  let description ← Reader.required "description" (fields.findSome? GeometryField.description?)
  let bones ← Reader.required "bones" (fields.findSome? GeometryField.bones?)
  return ⟨description, bones, NameMap.ofList (fields.filterMap GeometryField.other?)⟩

/-- A geometry. -/
def geometry : Reader (Geometry Float) :=
  Reader.record "Geometry" ["description", "bones"] geometryField buildGeometry

/-- A field of a model file. -/
inductive ModelField where
  | formatVersion (value : String)
  | geometries (value : List (Geometry Float))
  | other (name : String) (value : Value)

namespace ModelField

/-- The version of the format, if the field is one. -/
def formatVersion? : ModelField → Option String
  | formatVersion value => some value
  | _ => none

/-- The geometries, if the field holds them. -/
def geometries? : ModelField → Option (List (Geometry Float))
  | geometries value => some value
  | _ => none

/-- The name and value of a field that is kept. -/
def other? : ModelField → Option (String × Value)
  | other key value => some (key, value)
  | _ => none

end ModelField

/-- A field of a model file by its name. -/
def modelField (name : String) : Reader ModelField := fun node =>
  match name with
  | "format_version" => (Reader.string node).map .formatVersion
  | "minecraft:geometry" => (Reader.list geometry node).map .geometries
  | _ => (Reader.value node).map (.other name)

/-- The model with the given fields; a version that is not given is empty. -/
def buildModel (fields : List ModelField) : Except Fault (Model Float) := do
  let geometries ← Reader.required "minecraft:geometry" (fields.findSome? ModelField.geometries?)
  return {
    formatVersion := (fields.findSome? ModelField.formatVersion?).getD ""
    geometries
    extra := NameMap.ofList (fields.filterMap ModelField.other?) }

/-- A model file. -/
def model : Reader (Model Float) :=
  Reader.record "ModelFile" ["format_version", "minecraft:geometry"] modelField buildModel

end Model.Reader

/-- The model in a text. -/
def Model.parse (text : String) : Except Fault (Model Float) := Model.Reader.model.run text

/-- The geometry in a text. -/
def Geometry.parse (text : String) : Except Fault (Geometry Float) :=
  Model.Reader.geometry.run text

/-- The bone in a text. -/
def Bone.parse (text : String) : Except Fault (Bone Float) := Model.Reader.bone.run text

end PhysicsPrefab
