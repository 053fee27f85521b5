import Mathlib.Tactic.MkIffOfInductiveProp
import PhysicsPrefab.Model.Reader
import PhysicsPrefab.Proofs.Json.Records

/-!
# What the objects of a model say

Each object of a model is read as what its members say, whatever their order: its typed fields are
given once at most, each is read by its own rule, and the rest is kept (`Model.Reader.cube_eq_ok`
and the like for the other objects). What else is known of the readers follows from this.
-/

namespace PhysicsPrefab

open Answer
open Json (Node Value)
open Json.Members (count kept? read?)
open Json.Reader (IsField KeepsOthers list optional record_iff required_eq_ok)

/-- The names of the fields of a locator that is an object. -/
def Locator.fieldNames : List String := ["offset"]

/-- The names of the fields of a cube. -/
def Cube.fieldNames : List String := ["origin", "size", "rotation", "pivot"]

/-- The names of the fields of a bone. -/
def Bone.fieldNames : List String := ["name", "parent", "pivot", "locators", "cubes"]

/-- The names of the fields of a description. -/
def Description.fieldNames : List String := ["identifier"]

/-- The names of the fields of a geometry. -/
def Geometry.fieldNames : List String := ["description", "bones"]

/-- The names of the fields of a model. -/
def Model.fieldNames : List String := ["format_version", "minecraft:geometry"]

/-- What the members of a locator say. -/
@[mk_iff] structure Locator.FromMembers (entries : List (String × Node)) (offset : Vec3 Float)
    (extra : NameMap Value) : Prop where
  /-- No field is given twice. -/
  once : ∀ name ∈ fieldNames, count name entries ≤ 1
  /-- The position is given. -/
  offset : read? Model.Reader.vector none "offset" entries = some offset
  /-- The rest is kept. -/
  extra : kept? fieldNames entries = some extra

/-- What the members of a cube say. -/
@[mk_iff] structure Cube.FromMembers (entries : List (String × Node)) (cube : Cube Float) : Prop where
  /-- No field is given twice. -/
  once : ∀ name ∈ fieldNames, count name entries ≤ 1
  /-- The lower corner is given. -/
  origin : read? Model.Reader.vector none "origin" entries = some cube.origin
  /-- The lengths of the edges are given. -/
  size : read? Model.Reader.vector none "size" entries = some cube.size
  /-- The angles may be given. -/
  rotation : read? (optional Model.Reader.vector) (some none) "rotation" entries = some cube.rotation
  /-- The centre of the rotation may be given. -/
  pivot : read? (optional Model.Reader.vector) (some none) "pivot" entries = some cube.pivot
  /-- The rest is kept. -/
  extra : kept? fieldNames entries = some cube.extra

/-- What the members of a bone say. -/
@[mk_iff] structure Bone.FromMembers (entries : List (String × Node)) (bone : Bone Float) : Prop where
  /-- No field is given twice. -/
  once : ∀ name ∈ fieldNames, count name entries ≤ 1
  /-- The name is given. -/
  name : read? Json.Reader.string none "name" entries = some bone.name
  /-- The parent may be given. -/
  parent : read? (optional Json.Reader.string) (some none) "parent" entries = some bone.parent
  /-- The origin of the bone is zero unless it is given. -/
  pivot : read? Model.Reader.vector (some Vec3.zero) "pivot" entries = some bone.pivot
  /-- The locators may be given. -/
  locators : read? (optional Model.Reader.locators) (some none) "locators" entries = some bone.locators
  /-- The cubes may be given. -/
  cubes : read? (optional (list Model.Reader.cube)) (some none) "cubes" entries = some bone.cubes
  /-- The rest is kept. -/
  extra : kept? fieldNames entries = some bone.extra

/-- What the members of a description say. -/
@[mk_iff] structure Description.FromMembers (entries : List (String × Node))
    (description : Description) : Prop where
  /-- No field is given twice. -/
  once : ∀ name ∈ fieldNames, count name entries ≤ 1
  /-- The identifier is given. -/
  identifier : read? Json.Reader.string none "identifier" entries = some description.identifier
  /-- The rest is kept. -/
  extra : kept? fieldNames entries = some description.extra

/-- What the members of a geometry say. -/
@[mk_iff] structure Geometry.FromMembers (entries : List (String × Node)) (geometry : Geometry Float) :
    Prop where
  /-- No field is given twice. -/
  once : ∀ name ∈ fieldNames, count name entries ≤ 1
  /-- The description is given. -/
  description : read? Model.Reader.description none "description" entries = some geometry.description
  /-- The bones are given. -/
  bones : read? (list Model.Reader.bone) none "bones" entries = some geometry.bones
  /-- The rest is kept. -/
  extra : kept? fieldNames entries = some geometry.extra

/-- What the members of a model say. -/
@[mk_iff] structure Model.FromMembers (entries : List (String × Node)) (model : Model Float) :
    Prop where
  /-- No field is given twice. -/
  once : ∀ name ∈ fieldNames, count name entries ≤ 1
  /-- The version of the format is empty unless it is given. -/
  formatVersion : read? Json.Reader.string (some "") "format_version" entries = some model.formatVersion
  /-- The geometries are given. -/
  geometries : read? (list Model.Reader.geometry) none "minecraft:geometry" entries =
    some model.geometries
  /-- The rest is kept. -/
  extra : kept? fieldNames entries = some model.extra

namespace Model.Reader

variable {node : Node}

/-- A vector is read from exactly three numbers. -/
theorem vector_eq_ok {result : Vec3 Float} : vector node = .ok result ↔ ∃ x y z,
    node = .array [.number x, .number y, .number z] true ∧
      ⟨x.toFloat, y.toFloat, z.toFloat⟩ = result := by
  refine map_eq_ok.trans ⟨?_, ?_⟩
  · rintro ⟨⟨x, y, z⟩, isTriple, rfl⟩
    obtain ⟨_, _, _, rfl, isX, isY, isZ⟩ := Json.Reader.triple_eq_ok.1 isTriple
    obtain ⟨x, rfl, rfl⟩ := Json.Reader.number_eq_ok.1 isX
    obtain ⟨y, rfl, rfl⟩ := Json.Reader.number_eq_ok.1 isY
    obtain ⟨z, rfl, rfl⟩ := Json.Reader.number_eq_ok.1 isZ
    exact ⟨x, y, z, rfl, rfl⟩
  · rintro ⟨x, y, z, rfl, rfl⟩
    exact ⟨(x.toFloat, y.toFloat, z.toFloat), rfl, rfl⟩

/-- The name under which a field of a locator is given. -/
def LocatorField.key : LocatorField → String
  | offset _ => "offset"
  | other key _ => key

/-- A field of a locator is read of its name. -/
theorem locatorField_key {name : String} {made : LocatorField}
    (isRead : locatorField name node = .ok made) : made.key = name := by
  unfold locatorField at isRead
  split at isRead <;>
  · obtain ⟨_, _, rfl⟩ := map_eq_ok.1 isRead
    rfl

/-- The field `offset` of a locator. -/
theorem locatorField_offset :
    IsField locatorField "offset" vector .offset LocatorField.offset? :=
  .of_key locatorField_key (fun _ => rfl)
    (by rintro ⟨⟩ <;> simp [LocatorField.offset?, LocatorField.key])

/-- The other fields of a locator. -/
theorem locatorField_keeps :
    KeepsOthers locatorField Locator.fieldNames .other LocatorField.other? where
  other name untyped node := by
    unfold locatorField
    split
    case h_2 => rfl
    all_goals exact absurd (by decide) untyped
  taken _ _ := rfl
  apart {name node made} isRead typed := by
    unfold locatorField at isRead
    split at isRead
    case h_2 => exact absurd typed (by simp_all [Locator.fieldNames])
    all_goals
      obtain ⟨_, _, rfl⟩ := map_eq_ok.1 isRead
      rfl

/-- A locator that is an object is put together from its fields. -/
theorem buildLocator_eq_ok {fields : List LocatorField} {result : Locator Float} :
    buildLocator fields = .ok result ↔ ∃ offset extra, result = .detailed offset extra ∧
      fields.findSome? LocatorField.offset? = some offset ∧
      NameMap.ofList (fields.filterMap LocatorField.other?) = extra := by
  change (Json.Reader.required _ _).bind _ = _ ↔ _
  simp only [bind_eq_ok, required_eq_ok]
  constructor
  · rintro ⟨offset, isOffset, same⟩
    cases same
    exact ⟨offset, _, rfl, isOffset, rfl⟩
  · rintro ⟨offset, _, rfl, isOffset, rfl⟩
    exact ⟨offset, isOffset, rfl⟩

/-- A locator that is an object is read as what its members say. -/
theorem detailed_eq_ok {result : Locator Float} :
    Json.Reader.record "Locator" ["offset"] locatorField buildLocator node = .ok result ↔
    ∃ entries, node = .object entries true ∧ ∃ offset extra, result = .detailed offset extra ∧
      Locator.FromMembers entries offset extra := by
  refine record_iff (fun entries result => ∃ offset extra, result = Locator.detailed offset extra ∧
    Locator.FromMembers entries offset extra) locatorField_keeps ?_ ?_ ?_ ?_
  · rintro entries result ⟨offset, extra, -, said⟩
    exact said.once
  · rintro entries result ⟨offset, extra, -, said⟩
    exact ⟨extra, said.extra⟩
  · rintro entries result ⟨offset, extra, -, said⟩
    simp only [Locator.fieldNames, List.forall_mem_cons]
    exact ⟨locatorField_offset.exists_read said.offset, nofun⟩
  · intro entries read result once each
    rw [buildLocator_eq_ok]
    refine exists₂_congr fun offset extra => and_congr_right fun _ => ?_
    rw [Locator.fromMembers_iff, locatorField_keeps.kept?_eq each,
      locatorField_offset.read?_required (fun _ => rfl) (once _ (by decide)) each]
    simp only [Option.some.injEq, and_iff_right once]

/-- An object is no vector. -/
theorem vector_ne_object {entries : List (String × Node)} {closed : Bool} {result : Vec3 Float} :
    vector (.object entries closed) ≠ .ok result := by
  intro isRead
  obtain ⟨_, _, _, same, -⟩ := vector_eq_ok.1 isRead
  cases same

/-- A locator is read as a vector or as what its members say, and only if all of it has a value. -/
theorem locator_eq_ok {result : Locator Float} : locator node = .ok result ↔
    node.value?.isSome ∧ ((∃ position, vector node = .ok position ∧ result = .point position) ∨
      ∃ entries, node = .object entries true ∧ ∃ offset extra, result = .detailed offset extra ∧
        Locator.FromMembers entries offset extra) := by
  rw [← detailed_eq_ok, locator]
  cases node.value? with
  | none => simp
  | some value =>
    cases isVector : vector node with
    | ok position =>
      have noRecord {other : Locator Float} :
          Json.Reader.record "Locator" ["offset"] locatorField buildLocator node ≠ .ok other := by
        intro isRecord
        obtain ⟨entries, rfl, -⟩ := detailed_eq_ok.1 isRecord
        exact vector_ne_object isVector
      simp [noRecord, eq_comm]
    | error fault =>
      cases Json.Reader.record "Locator" ["offset"] locatorField buildLocator node <;> simp

/-- Locators are read one by one, and of a repeated name the last one counts. -/
theorem locators_eq_ok {result : NameMap (Locator Float)} : locators node = .ok result ↔
    ∃ entries values, node = .object entries true ∧
      List.Forall₂ (fun entry value => entry.1 = value.1 ∧ locator entry.2 = .ok value.2)
        entries values ∧
      NameMap.ofList values = result := by
  refine map_eq_ok.trans ?_
  simp only [Json.Reader.members_eq_ok]
  constructor
  · rintro ⟨values, ⟨entries, isObject, each⟩, same⟩
    exact ⟨entries, values, isObject, each, same⟩
  · rintro ⟨entries, values, isObject, each, same⟩
    exact ⟨values, ⟨entries, isObject, each⟩, same⟩

/-- The name under which a field of a cube is given. -/
def CubeField.key : CubeField → String
  | origin _ => "origin"
  | size _ => "size"
  | rotation _ => "rotation"
  | pivot _ => "pivot"
  | other key _ => key

/-- A field of a cube is read of its name. -/
theorem cubeField_key {name : String} {made : CubeField}
    (isRead : cubeField name node = .ok made) : made.key = name := by
  unfold cubeField at isRead
  split at isRead <;>
  · obtain ⟨_, _, rfl⟩ := map_eq_ok.1 isRead
    rfl

/-- The field `origin` of a cube. -/
theorem cubeField_origin :
    IsField cubeField "origin" vector .origin CubeField.origin? :=
  .of_key cubeField_key (fun _ => rfl)
    (by rintro ⟨⟩ <;> simp [CubeField.origin?, CubeField.key])

/-- The field `size` of a cube. -/
theorem cubeField_size :
    IsField cubeField "size" vector .size CubeField.size? :=
  .of_key cubeField_key (fun _ => rfl)
    (by rintro ⟨⟩ <;> simp [CubeField.size?, CubeField.key])

/-- The field `rotation` of a cube. -/
theorem cubeField_rotation :
    IsField cubeField "rotation" (optional vector) .rotation CubeField.rotation? :=
  .of_key cubeField_key (fun _ => rfl)
    (by rintro ⟨⟩ <;> simp [CubeField.rotation?, CubeField.key])

/-- The field `pivot` of a cube. -/
theorem cubeField_pivot :
    IsField cubeField "pivot" (optional vector) .pivot CubeField.pivot? :=
  .of_key cubeField_key (fun _ => rfl)
    (by rintro ⟨⟩ <;> simp [CubeField.pivot?, CubeField.key])

/-- The other fields of a cube. -/
theorem cubeField_keeps :
    KeepsOthers cubeField Cube.fieldNames .other CubeField.other? where
  other name untyped node := by
    unfold cubeField
    split
    case h_5 => rfl
    all_goals exact absurd (by decide) untyped
  taken _ _ := rfl
  apart {name node made} isRead typed := by
    unfold cubeField at isRead
    split at isRead
    case h_5 => exact absurd typed (by simp_all [Cube.fieldNames])
    all_goals
      obtain ⟨_, _, rfl⟩ := map_eq_ok.1 isRead
      rfl

/-- A cube is put together from its fields. -/
theorem buildCube_eq_ok {fields : List CubeField} {result : Cube Float} :
    buildCube fields = .ok result ↔
      fields.findSome? CubeField.origin? = some result.origin ∧
      fields.findSome? CubeField.size? = some result.size ∧
      fields.findSome? CubeField.rotation? = result.rotation ∧
      fields.findSome? CubeField.pivot? = result.pivot ∧
      NameMap.ofList (fields.filterMap CubeField.other?) = result.extra := by
  change (Json.Reader.required _ _).bind (fun _ => (Json.Reader.required _ _).bind _) = _ ↔ _
  simp only [bind_eq_ok, required_eq_ok]
  constructor
  · rintro ⟨_, isOrigin, _, isSize, same⟩
    cases same
    exact ⟨isOrigin, isSize, rfl, rfl, rfl⟩
  · obtain ⟨origin, size, rotation, pivot, extra⟩ := result
    rintro ⟨isOrigin, isSize, rfl, rfl, rfl⟩
    exact ⟨origin, isOrigin, size, isSize, rfl⟩

/-- A cube is read as what its members say. -/
theorem cube_eq_ok {result : Cube Float} : cube node = .ok result ↔
    ∃ entries, node = .object entries true ∧ Cube.FromMembers entries result := by
  refine record_iff Cube.FromMembers cubeField_keeps Cube.FromMembers.once
    (fun said => ⟨_, said.extra⟩) ?_ ?_
  · intro entries result said
    simp only [Cube.fieldNames, List.forall_mem_cons]
    exact ⟨cubeField_origin.exists_read said.origin,
      cubeField_size.exists_read said.size,
      cubeField_rotation.exists_read said.rotation,
      cubeField_pivot.exists_read said.pivot, nofun⟩
  · intro entries read result once each
    have given {name : String} (typed : name ∈ Cube.fieldNames) := once name typed
    rw [Cube.fromMembers_iff, cubeField_keeps.kept?_eq each,
      cubeField_origin.read?_required (fun _ => rfl) (given (by decide)) each,
      cubeField_size.read?_required (fun _ => rfl) (given (by decide)) each,
      cubeField_rotation.read?_optional (fun _ => rfl) (given (by decide)) each,
      cubeField_pivot.read?_optional (fun _ => rfl) (given (by decide)) each,
      buildCube_eq_ok]
    simp only [Option.some.injEq, and_iff_right once]

/-- The name under which a field of a bone is given. -/
def BoneField.key : BoneField → String
  | name _ => "name"
  | parent _ => "parent"
  | pivot _ => "pivot"
  | locators _ => "locators"
  | cubes _ => "cubes"
  | other key _ => key

/-- A field of a bone is read of its name. -/
theorem boneField_key {name : String} {made : BoneField}
    (isRead : boneField name node = .ok made) : made.key = name := by
  unfold boneField at isRead
  split at isRead <;>
  · obtain ⟨_, _, rfl⟩ := map_eq_ok.1 isRead
    rfl

/-- The field `name` of a bone. -/
theorem boneField_name :
    IsField boneField "name" Json.Reader.string .name BoneField.name? :=
  .of_key boneField_key (fun _ => rfl)
    (by rintro ⟨⟩ <;> simp [BoneField.name?, BoneField.key])

/-- The field `parent` of a bone. -/
theorem boneField_parent :
    IsField boneField "parent" (optional Json.Reader.string) .parent BoneField.parent? :=
  .of_key boneField_key (fun _ => rfl)
    (by rintro ⟨⟩ <;> simp [BoneField.parent?, BoneField.key])

/-- The field `pivot` of a bone. -/
theorem boneField_pivot :
    IsField boneField "pivot" vector .pivot BoneField.pivot? :=
  .of_key boneField_key (fun _ => rfl)
    (by rintro ⟨⟩ <;> simp [BoneField.pivot?, BoneField.key])

/-- The field `locators` of a bone. -/
theorem boneField_locators :
    IsField boneField "locators" (optional locators) .locators BoneField.locators? :=
  .of_key boneField_key (fun _ => rfl)
    (by rintro ⟨⟩ <;> simp [BoneField.locators?, BoneField.key])

/-- The field `cubes` of a bone. -/
theorem boneField_cubes :
    IsField boneField "cubes" (optional (list cube)) .cubes BoneField.cubes? :=
  .of_key boneField_key (fun _ => rfl)
    (by rintro ⟨⟩ <;> simp [BoneField.cubes?, BoneField.key])

/-- The other fields of a bone. -/
theorem boneField_keeps :
    KeepsOthers boneField Bone.fieldNames .other BoneField.other? where
  other name untyped node := by
    unfold boneField
    split
    case h_6 => rfl
    all_goals exact absurd (by decide) untyped
  taken _ _ := rfl
  apart {name node made} isRead typed := by
    unfold boneField at isRead
    split at isRead
    case h_6 => exact absurd typed (by simp_all [Bone.fieldNames])
    all_goals
      obtain ⟨_, _, rfl⟩ := map_eq_ok.1 isRead
      rfl

/-- A bone is put together from its fields. -/
theorem buildBone_eq_ok {fields : List BoneField} {result : Bone Float} :
    buildBone fields = .ok result ↔
      fields.findSome? BoneField.name? = some result.name ∧
      fields.findSome? BoneField.parent? = result.parent ∧
      (fields.findSome? BoneField.pivot?).getD Vec3.zero = result.pivot ∧
      fields.findSome? BoneField.locators? = result.locators ∧
      fields.findSome? BoneField.cubes? = result.cubes ∧
      NameMap.ofList (fields.filterMap BoneField.other?) = result.extra := by
  change (Json.Reader.required _ _).bind _ = _ ↔ _
  simp only [bind_eq_ok, required_eq_ok]
  constructor
  · rintro ⟨_, isName, same⟩
    cases same
    exact ⟨isName, rfl, rfl, rfl, rfl, rfl⟩
  · obtain ⟨name, parent, pivot, locators, cubes, extra⟩ := result
    rintro ⟨isName, rfl, rfl, rfl, rfl, rfl⟩
    exact ⟨name, isName, rfl⟩

/-- A bone is read as what its members say. -/
theorem bone_eq_ok {result : Bone Float} : bone node = .ok result ↔
    ∃ entries, node = .object entries true ∧ Bone.FromMembers entries result := by
  refine record_iff Bone.FromMembers boneField_keeps Bone.FromMembers.once
    (fun said => ⟨_, said.extra⟩) ?_ ?_
  · intro entries result said
    simp only [Bone.fieldNames, List.forall_mem_cons]
    exact ⟨boneField_name.exists_read said.name,
      boneField_parent.exists_read said.parent,
      boneField_pivot.exists_read said.pivot,
      boneField_locators.exists_read said.locators,
      boneField_cubes.exists_read said.cubes, nofun⟩
  · intro entries read result once each
    have given {name : String} (typed : name ∈ Bone.fieldNames) := once name typed
    rw [Bone.fromMembers_iff, boneField_keeps.kept?_eq each,
      boneField_name.read?_required (fun _ => rfl) (given (by decide)) each,
      boneField_parent.read?_optional (fun _ => rfl) (given (by decide)) each,
      boneField_pivot.read?_default (fun _ => rfl) Vec3.zero (given (by decide)) each,
      boneField_locators.read?_optional (fun _ => rfl) (given (by decide)) each,
      boneField_cubes.read?_optional (fun _ => rfl) (given (by decide)) each,
      buildBone_eq_ok]
    simp only [Option.some.injEq, and_iff_right once]

/-- The name under which a field of a description is given. -/
def DescriptionField.key : DescriptionField → String
  | identifier _ => "identifier"
  | other key _ => key

/-- A field of a description is read of its name. -/
theorem descriptionField_key {name : String} {made : DescriptionField}
    (isRead : descriptionField name node = .ok made) : made.key = name := by
  unfold descriptionField at isRead
  split at isRead <;>
  · obtain ⟨_, _, rfl⟩ := map_eq_ok.1 isRead
    rfl

/-- The field `identifier` of a description. -/
theorem descriptionField_identifier :
    IsField descriptionField "identifier" Json.Reader.string .identifier DescriptionField.identifier? :=
  .of_key descriptionField_key (fun _ => rfl)
    (by rintro ⟨⟩ <;> simp [DescriptionField.identifier?, DescriptionField.key])

/-- The other fields of a description. -/
theorem descriptionField_keeps :
    KeepsOthers descriptionField Description.fieldNames .other DescriptionField.other? where
  other name untyped node := by
    unfold descriptionField
    split
    case h_2 => rfl
    all_goals exact absurd (by decide) untyped
  taken _ _ := rfl
  apart {name node made} isRead typed := by
    unfold descriptionField at isRead
    split at isRead
    case h_2 => exact absurd typed (by simp_all [Description.fieldNames])
    all_goals
      obtain ⟨_, _, rfl⟩ := map_eq_ok.1 isRead
      rfl

/-- A description is put together from its fields. -/
theorem buildDescription_eq_ok {fields : List DescriptionField} {result : Description} :
    buildDescription fields = .ok result ↔
      fields.findSome? DescriptionField.identifier? = some result.identifier ∧
      NameMap.ofList (fields.filterMap DescriptionField.other?) = result.extra := by
  change (Json.Reader.required _ _).bind _ = _ ↔ _
  simp only [bind_eq_ok, required_eq_ok]
  constructor
  · rintro ⟨_, isIdentifier, same⟩
    cases same
    exact ⟨isIdentifier, rfl⟩
  · obtain ⟨identifier, extra⟩ := result
    rintro ⟨isIdentifier, rfl⟩
    exact ⟨identifier, isIdentifier, rfl⟩

/-- A description is read as what its members say. -/
theorem description_eq_ok {result : Description} : description node = .ok result ↔
    ∃ entries, node = .object entries true ∧ Description.FromMembers entries result := by
  refine record_iff Description.FromMembers descriptionField_keeps Description.FromMembers.once
    (fun said => ⟨_, said.extra⟩) ?_ ?_
  · intro entries result said
    simp only [Description.fieldNames, List.forall_mem_cons]
    exact ⟨descriptionField_identifier.exists_read said.identifier, nofun⟩
  · intro entries read result once each
    have given {name : String} (typed : name ∈ Description.fieldNames) := once name typed
    rw [Description.fromMembers_iff, descriptionField_keeps.kept?_eq each,
      descriptionField_identifier.read?_required (fun _ => rfl) (given (by decide)) each,
      buildDescription_eq_ok]
    simp only [Option.some.injEq, and_iff_right once]

/-- The name under which a field of a geometry is given. -/
def GeometryField.key : GeometryField → String
  | description _ => "description"
  | bones _ => "bones"
  | other key _ => key

/-- A field of a geometry is read of its name. -/
theorem geometryField_key {name : String} {made : GeometryField}
    (isRead : geometryField name node = .ok made) : made.key = name := by
  unfold geometryField at isRead
  split at isRead <;>
  · obtain ⟨_, _, rfl⟩ := map_eq_ok.1 isRead
    rfl

/-- The field `description` of a geometry. -/
theorem geometryField_description :
    IsField geometryField "description" description .description GeometryField.description? :=
  .of_key geometryField_key (fun _ => rfl)
    (by rintro ⟨⟩ <;> simp [GeometryField.description?, GeometryField.key])

/-- The field `bones` of a geometry. -/
theorem geometryField_bones :
    IsField geometryField "bones" (list bone) .bones GeometryField.bones? :=
  .of_key geometryField_key (fun _ => rfl)
    (by rintro ⟨⟩ <;> simp [GeometryField.bones?, GeometryField.key])

/-- The other fields of a geometry. -/
theorem geometryField_keeps :
    KeepsOthers geometryField Geometry.fieldNames .other GeometryField.other? where
  other name untyped node := by
    unfold geometryField
    split
    case h_3 => rfl
    all_goals exact absurd (by decide) untyped
  taken _ _ := rfl
  apart {name node made} isRead typed := by
    unfold geometryField at isRead
    split at isRead
    case h_3 => exact absurd typed (by simp_all [Geometry.fieldNames])
    all_goals
      obtain ⟨_, _, rfl⟩ := map_eq_ok.1 isRead
      rfl

/-- A geometry is put together from its fields. -/
theorem buildGeometry_eq_ok {fields : List GeometryField} {result : Geometry Float} :
    buildGeometry fields = .ok result ↔
      fields.findSome? GeometryField.description? = some result.description ∧
      fields.findSome? GeometryField.bones? = some result.bones ∧
      NameMap.ofList (fields.filterMap GeometryField.other?) = result.extra := by
  change (Json.Reader.required _ _).bind (fun _ => (Json.Reader.required _ _).bind _) = _ ↔ _
  simp only [bind_eq_ok, required_eq_ok]
  constructor
  · rintro ⟨_, isDescription, _, isBones, same⟩
    cases same
    exact ⟨isDescription, isBones, rfl⟩
  · obtain ⟨description, bones, extra⟩ := result
    rintro ⟨isDescription, isBones, rfl⟩
    exact ⟨description, isDescription, bones, isBones, rfl⟩

/-- A geometry is read as what its members say. -/
theorem geometry_eq_ok {result : Geometry Float} : geometry node = .ok result ↔
    ∃ entries, node = .object entries true ∧ Geometry.FromMembers entries result := by
  refine record_iff Geometry.FromMembers geometryField_keeps Geometry.FromMembers.once
    (fun said => ⟨_, said.extra⟩) ?_ ?_
  · intro entries result said
    simp only [Geometry.fieldNames, List.forall_mem_cons]
    exact ⟨geometryField_description.exists_read said.description,
      geometryField_bones.exists_read said.bones, nofun⟩
  · intro entries read result once each
    have given {name : String} (typed : name ∈ Geometry.fieldNames) := once name typed
    rw [Geometry.fromMembers_iff, geometryField_keeps.kept?_eq each,
      geometryField_description.read?_required (fun _ => rfl) (given (by decide)) each,
      geometryField_bones.read?_required (fun _ => rfl) (given (by decide)) each,
      buildGeometry_eq_ok]
    simp only [Option.some.injEq, and_iff_right once]

/-- The name under which a field of a model is given. -/
def ModelField.key : ModelField → String
  | formatVersion _ => "format_version"
  | geometries _ => "minecraft:geometry"
  | other key _ => key

/-- A field of a model is read of its name. -/
theorem modelField_key {name : String} {made : ModelField}
    (isRead : modelField name node = .ok made) : made.key = name := by
  unfold modelField at isRead
  split at isRead <;>
  · obtain ⟨_, _, rfl⟩ := map_eq_ok.1 isRead
    rfl

/-- The field `format_version` of a model. -/
theorem modelField_formatVersion :
    IsField modelField "format_version" Json.Reader.string .formatVersion ModelField.formatVersion? :=
  .of_key modelField_key (fun _ => rfl)
    (by rintro ⟨⟩ <;> simp [ModelField.formatVersion?, ModelField.key])

/-- The field `minecraft:geometry` of a model. -/
theorem modelField_geometries :
    IsField modelField "minecraft:geometry" (list geometry) .geometries ModelField.geometries? :=
  .of_key modelField_key (fun _ => rfl)
    (by rintro ⟨⟩ <;> simp [ModelField.geometries?, ModelField.key])

/-- The other fields of a model. -/
theorem modelField_keeps :
    KeepsOthers modelField Model.fieldNames .other ModelField.other? where
  other name untyped node := by
    unfold modelField
    split
    case h_3 => rfl
    all_goals exact absurd (by decide) untyped
  taken _ _ := rfl
  apart {name node made} isRead typed := by
    unfold modelField at isRead
    split at isRead
    case h_3 => exact absurd typed (by simp_all [Model.fieldNames])
    all_goals
      obtain ⟨_, _, rfl⟩ := map_eq_ok.1 isRead
      rfl

/-- A model is put together from its fields. -/
theorem buildModel_eq_ok {fields : List ModelField} {result : Model Float} :
    buildModel fields = .ok result ↔
      (fields.findSome? ModelField.formatVersion?).getD "" = result.formatVersion ∧
      fields.findSome? ModelField.geometries? = some result.geometries ∧
      NameMap.ofList (fields.filterMap ModelField.other?) = result.extra := by
  change (Json.Reader.required _ _).bind _ = _ ↔ _
  simp only [bind_eq_ok, required_eq_ok]
  constructor
  · rintro ⟨_, isGeometries, same⟩
    cases same
    exact ⟨rfl, isGeometries, rfl⟩
  · obtain ⟨formatVersion, geometries, extra⟩ := result
    rintro ⟨rfl, isGeometries, rfl⟩
    exact ⟨geometries, isGeometries, rfl⟩

/-- A model is read as what its members say. -/
theorem model_eq_ok {result : Model Float} : model node = .ok result ↔
    ∃ entries, node = .object entries true ∧ Model.FromMembers entries result := by
  refine record_iff Model.FromMembers modelField_keeps Model.FromMembers.once
    (fun said => ⟨_, said.extra⟩) ?_ ?_
  · intro entries result said
    simp only [Model.fieldNames, List.forall_mem_cons]
    exact ⟨modelField_formatVersion.exists_read said.formatVersion,
      modelField_geometries.exists_read said.geometries, nofun⟩
  · intro entries read result once each
    have given {name : String} (typed : name ∈ Model.fieldNames) := once name typed
    rw [Model.fromMembers_iff, modelField_keeps.kept?_eq each,
      modelField_formatVersion.read?_default (fun _ => rfl) "" (given (by decide)) each,
      modelField_geometries.read?_required (fun _ => rfl) (given (by decide)) each,
      buildModel_eq_ok]
    simp only [Option.some.injEq, and_iff_right once]

end Model.Reader

/-- A model in a text is read from the document of the text. -/
theorem Model.read_of_parse {text : String} {model : Model Float}
    (parsed : Model.parse text = .ok model) :
    Model.Reader.model (Json.Document.ofText text).root = .ok model := by
  obtain ⟨result, isRead, ended⟩ := bind_eq_ok.1 (show (Reader.model _).bind _ = _ from parsed)
  split at ended
  · cases ended
  · cases ended
    exact isRead

end PhysicsPrefab
