import PhysicsPrefab.Model.Basic

/-!
# Writing models

The written form of a model: typed fields in a fixed order, then what was kept, by name. Fields
that were not given are left out, except the version of the format and the pivot of a bone,
which are always written.
-/

namespace PhysicsPrefab

open Json (Value)

/-- The written form of a vector. -/
def Vec3.toValue (vector : Vec3 Float) : Value :=
  .array [.ofFloat vector.x, .ofFloat vector.y, .ofFloat vector.z]

/-- A field that is written only if it is given. -/
def givenField {α : Type} (name : String) (write : α → Value) : Option α → List (String × Value)
  | some value => [(name, write value)]
  | none => []

/-- What holds of a field that is written only if it is given. -/
theorem forall_mem_givenField {α : Type} {name : String} {write : α → Value} {given : Option α}
    {property : Value → Prop} : (∀ member ∈ givenField name write given, property member.2) ↔
      ∀ data ∈ given, property (write data) := by
  cases given <;> simp [givenField]

/-- A field that is written only if it is given has its name. -/
theorem names_givenField {α : Type} (name : String) (write : α → Value) (given : Option α) :
    ((givenField name write given).map (·.1)).Sublist [name] := by
  cases given <;> simp [givenField]

/-- The written form of a locator, in the form it was given. -/
def Locator.toValue : Locator Float → Value
  | .point position => position.toValue
  | .detailed offset extra => .object (("offset", offset.toValue) :: extra.entries)

/-- The written form of a set of locators. -/
def locatorsValue (locators : NameMap (Locator Float)) : Value :=
  .object (locators.entries.map fun (name, locator) => (name, locator.toValue))

/-- The written form of a cube. -/
def Cube.toValue (cube : Cube Float) : Value :=
  .object (("origin", cube.origin.toValue) :: ("size", cube.size.toValue) ::
    givenField "rotation" Vec3.toValue cube.rotation ++
    givenField "pivot" Vec3.toValue cube.pivot ++ cube.extra.entries)

/-- The written form of a list of cubes. -/
def cubesValue (cubes : List (Cube Float)) : Value := .array (cubes.map Cube.toValue)

/-- The written form of a bone. -/
def Bone.toValue (bone : Bone Float) : Value :=
  .object (("name", .string bone.name) ::
    givenField "parent" .string bone.parent ++
    ("pivot", bone.pivot.toValue) ::
    givenField "locators" locatorsValue bone.locators ++
    givenField "cubes" cubesValue bone.cubes ++ bone.extra.entries)

/-- The written form of a description. -/
def Description.toValue (description : Description) : Value :=
  .object (("identifier", .string description.identifier) :: description.extra.entries)

/-- The written form of a geometry. -/
def Geometry.toValue (geometry : Geometry Float) : Value :=
  .object (("description", geometry.description.toValue) ::
    ("bones", .array (geometry.bones.map Bone.toValue)) :: geometry.extra.entries)

/-- The written form of a model. -/
def Model.toValue (model : Model Float) : Value :=
  .object (("format_version", .string model.formatVersion) ::
    ("minecraft:geometry", .array (model.geometries.map Geometry.toValue)) :: model.extra.entries)

end PhysicsPrefab
