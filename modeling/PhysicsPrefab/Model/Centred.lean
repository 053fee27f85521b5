import PhysicsPrefab.Model.Basic

/-!
# Centred bones

A centred bone has its cubes and locators relative to its own pivot. Rotations are angles and
stay as they are. The role of a bone in a prefab follows from the name of its parent.
-/

namespace PhysicsPrefab

open Json (Value)

/-- A bone whose cubes and locators are relative to its pivot. -/
structure CentredBone (α : Type) where
  /-- The name of the bone. -/
  name : String
  /-- The name of the bone it hangs on. -/
  parent : Option String
  /-- The pivot in the space of the model, in pixels. -/
  pivot : Vec3 α
  /-- The locators, none if the field was not given. -/
  locators : NameMap (Locator α)
  /-- The cubes, none if the field was not given. -/
  cubes : List (Cube α)
  /-- What is not understood. -/
  extra : NameMap Value

variable {α : Type} [Scalar α]

/-- A cube relative to a pivot. -/
def Cube.relativeTo (pivot : Vec3 α) (cube : Cube α) : Cube α :=
  { cube with origin := cube.origin - pivot, pivot := cube.pivot.map (· - pivot) }

/-- A bone with its cubes and locators relative to its pivot. -/
def Bone.centred (bone : Bone α) : CentredBone α where
  name := bone.name
  parent := bone.parent
  pivot := bone.pivot
  locators := (bone.locators.getD NameMap.empty).mapValues (Locator.mapPosition (· - bone.pivot))
  cubes := (bone.cubes.getD []).map (Cube.relativeTo bone.pivot)
  extra := bone.extra

/-- What a bone is for. -/
inductive BoneRole where
  /-- It becomes a rigid body. -/
  | body
  /-- It declares a constraint between two bodies. -/
  | constraint
  /-- It has no part in the physics. -/
  | ignored
deriving DecidableEq, Repr

/-- The bone that all bodies hang on. -/
def bodyParent : String := "Objects"

/-- The bone that all constraints hang on. -/
def constraintParent : String := "Constraints"

/-- The role of a bone by the name of its parent. A constraint says all it has to say in its
locators, so one without any is ignored. -/
def CentredBone.role (bone : CentredBone α) : BoneRole :=
  if bone.parent = some bodyParent then .body
  else if bone.parent = some constraintParent && !bone.locators.isEmpty then .constraint
  else .ignored

end PhysicsPrefab
