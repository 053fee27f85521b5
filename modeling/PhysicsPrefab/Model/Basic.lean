import PhysicsPrefab.Json.Value
import PhysicsPrefab.NameMap
import PhysicsPrefab.Vec3

/-!
# Models

A model file holds geometries, each the source of one prefab. A geometry is a list of bones with
cubes and locators. What this library does not understand is kept at every level under `extra`,
so that a model can be written again without loss.
-/

namespace PhysicsPrefab

open Json (Value)

/-- A named place of a bone. -/
inductive Locator (α : Type) where
  /-- A bare position. -/
  | point (position : Vec3 α)
  /-- A position with further data. -/
  | detailed (offset : Vec3 α) (extra : NameMap Value)

/-- The position of a locator in either form. -/
def Locator.position {α : Type} : Locator α → Vec3 α
  | point position => position
  | detailed offset _ => offset

/-- The locator with its position changed. -/
def Locator.mapPosition {α : Type} (change : Vec3 α → Vec3 α) : Locator α → Locator α
  | point position => point (change position)
  | detailed offset extra => detailed (change offset) extra

/-- A box of a model, in pixels. -/
structure Cube (α : Type) where
  /-- The lower corner. -/
  origin : Vec3 α
  /-- The lengths of the edges. -/
  size : Vec3 α
  /-- Angles in degrees. -/
  rotation : Option (Vec3 α)
  /-- The centre of the rotation, in the space of `origin`. -/
  pivot : Option (Vec3 α)
  /-- What is not understood. -/
  extra : NameMap Value

/-- A bone of a geometry. -/
structure Bone (α : Type) where
  /-- The name of the bone. -/
  name : String
  /-- The name of the bone it hangs on. -/
  parent : Option String
  /-- The origin of the bone, in pixels. -/
  pivot : Vec3 α
  /-- Its locators, if the field is given. -/
  locators : Option (NameMap (Locator α))
  /-- Its cubes, if the field is given. -/
  cubes : Option (List (Cube α))
  /-- What is not understood. -/
  extra : NameMap Value

/-- The description of a geometry. -/
structure Description where
  /-- The name under which the game knows the geometry. -/
  identifier : String
  /-- What is not understood. -/
  extra : NameMap Value

/-- A geometry: the source of one prefab. -/
structure Geometry (α : Type) where
  /-- Its description. -/
  description : Description
  /-- Its bones in order. -/
  bones : List (Bone α)
  /-- What is not understood. -/
  extra : NameMap Value

/-- A model file. -/
structure Model (α : Type) where
  /-- The version of the file format, empty if not given. -/
  formatVersion : String
  /-- The geometries in order. -/
  geometries : List (Geometry α)
  /-- What is not understood. -/
  extra : NameMap Value

/-- Whether some bone hangs on one of the given parents. -/
def Model.hasBonesUnder {α : Type} (model : Model α) (parents : List String) : Bool :=
  model.geometries.any fun geometry =>
    geometry.bones.any fun bone =>
      match bone.parent with
      | some parent => parents.contains parent
      | none => false

end PhysicsPrefab
