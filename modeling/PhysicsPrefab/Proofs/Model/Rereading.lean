import PhysicsPrefab.Proofs.Emit.Contents
import PhysicsPrefab.Proofs.Model.Nesting

/-!
# Models that are read again

The text of the model of a body is that of a model, for any cubes whose numbers are finite and
whose further data was read from a model (`Template.exists_parse_stamped`). None of its bones has a
part in the physics: they hang on each other.
-/

namespace PhysicsPrefab

open Answer
open Json (Document Node Reader Value)

/-- A vector of finite numbers. -/
structure Vec3.IsFinite (vector : Vec3 Float) : Prop where
  /-- The first number is finite. -/
  x : vector.x.isFinite = true
  /-- The second number is finite. -/
  y : vector.y.isFinite = true
  /-- The third number is finite. -/
  z : vector.z.isFinite = true

/-- A cube of finite numbers. -/
structure Cube.IsFinite (cube : Cube Float) : Prop where
  /-- Its corner is finite. -/
  origin : cube.origin.IsFinite
  /-- Its size is finite. -/
  size : cube.size.IsFinite
  /-- Its angles are finite, if given. -/
  rotation : ∀ rotation ∈ cube.rotation, rotation.IsFinite
  /-- The centre of its rotation is finite, if given. -/
  pivot : ∀ pivot ∈ cube.pivot, pivot.IsFinite

instance (vector : Vec3 Float) : Decidable vector.IsFinite :=
  decidable_of_iff (vector.x.isFinite = true ∧ vector.y.isFinite = true ∧ vector.z.isFinite = true)
    ⟨fun ⟨x, y, z⟩ => ⟨x, y, z⟩, fun isFinite => ⟨isFinite.x, isFinite.y, isFinite.z⟩⟩

instance (cube : Cube Float) : Decidable cube.IsFinite :=
  decidable_of_iff (cube.origin.IsFinite ∧ cube.size.IsFinite ∧
      (∀ rotation ∈ cube.rotation, rotation.IsFinite) ∧ ∀ pivot ∈ cube.pivot, pivot.IsFinite)
    ⟨fun ⟨origin, size, rotation, pivot⟩ => ⟨origin, size, rotation, pivot⟩,
      fun isFinite => ⟨isFinite.origin, isFinite.size, isFinite.rotation, isFinite.pivot⟩⟩

/-- A vector is an array of numbers. -/
theorem Vec3.depth_toValue (vector : Vec3 Float) : vector.toValue.depth = 1 := rfl

/-- A field that is written is as deep as what is given. -/
theorem depth_givenField {α : Type} {name : String} {write : α → Value} {given : Option α}
    {limit : Nat} (each : ∀ value, (write value).depth ≤ limit) :
    ∀ member ∈ givenField name write given, member.2.depth ≤ limit :=
  (@forall_mem_givenField α name write given (·.depth ≤ limit)).2 fun value _ => each value

/-- A cube that fits in a limit is written in it. -/
theorem Cube.depth_toValue_le {cube : Cube Float} {limit : Nat} (fits : cube.FitsIn (limit + 2)) :
    cube.toValue.depth ≤ limit + 2 := by
  have vectors (vector : Vec3 Float) : vector.toValue.depth ≤ limit + 1 := by
    rw [vector.depth_toValue]
    omega
  have members : ∀ member ∈ ("origin", cube.origin.toValue) :: ("size", cube.size.toValue) ::
      givenField "rotation" Vec3.toValue cube.rotation ++
      givenField "pivot" Vec3.toValue cube.pivot ++ cube.extra.entries,
      member.2.depth ≤ limit + 1 := by
    simp only [List.cons_append, List.forall_mem_cons, List.forall_mem_append]
    exact ⟨vectors _, vectors _, ⟨depth_givenField vectors, depth_givenField vectors⟩,
      fun entry isEntry => Nat.le_of_lt_succ (fits.depth entry isEntry)⟩
  have bound := Value.membersDepth_le.2 members
  rw [toValue, Value.depth]
  omega

namespace Template

/-- The written model of a body is not too deep for cubes that fit in their place. -/
theorem depth_stamped (identifier : String) {cubes : List (Cube Float)}
    (fit : ∀ cube ∈ cubes, cube.FitsIn Cube.depthLimit) :
    (stamped identifier cubes).toValue.depth ≤ Json.Build.depthLimit := by
  have items : Value.itemsDepth (cubes.map Cube.toValue) ≤ Cube.depthLimit := by
    refine Value.itemsDepth_le.2 fun item isItem => ?_
    obtain ⟨cube, isCube, rfl⟩ := List.mem_map.1 isItem
    have fits : cube.FitsIn (Cube.depthLimit - 2 + 2) := fit cube isCube
    exact Cube.depth_toValue_le fits
  have details : Value.membersDepth builtinDetails.entries ≤ 1 := by
    refine Value.membersDepth_le.2 fun entry isEntry => ?_
    have member := NameMap.mem_of_mem_ofList isEntry
    simp only [List.mem_cons, List.not_mem_nil, or_false] at member
    rcases member with rfl | rfl | rfl | rfl | rfl <;> decide
  simp only [stamped, Model.toValue, Geometry.toValue, Description.toValue, Bone.toValue, cubesValue,
    givenField, NameMap.empty, Value.depth, Value.itemsDepth, Value.membersDepth, List.map_cons,
    List.map_nil, List.cons_append, List.nil_append, List.append_nil, Vec3.depth_toValue]
  have limit : Cube.depthLimit + 6 = Json.Build.depthLimit := rfl
  omega

end Template

namespace Model.Reader

/-- A finite vector that was written is read. -/
theorem exists_read_vector {vector : Vec3 Float} (isFinite : vector.IsFinite) :
    ∃ read, Reader.vector vector.toValue.node = .ok read := by
  obtain ⟨x, isX⟩ := Value.exists_read_number isFinite.x
  obtain ⟨y, isY⟩ := Value.exists_read_number isFinite.y
  obtain ⟨z, isZ⟩ := Value.exists_read_number isFinite.z
  refine ⟨⟨x, y, z⟩, ?_⟩
  change Except.map _ (Json.Reader.triple
    (.array [(Value.ofFloat _).node, (Value.ofFloat _).node, (Value.ofFloat _).node] true)) = _
  rw [Json.Reader.triple, isX, isY, isZ]
  rfl

/-- A finite vector that was written as a field of a cube is read as the field. -/
theorem exists_read_given {name : String} {wrap : Option (Vec3 Float) → CubeField}
    (isField : ∀ node, cubeField name node = (Json.Reader.optional Reader.vector node).map wrap)
    {given : Option (Vec3 Float)} (areFinite : ∀ vector ∈ given, vector.IsFinite) :
    ∀ member ∈ givenField name Vec3.toValue given, ∃ value,
      cubeField member.1 member.2.node = .ok value := by
  cases given with
  | none => exact nofun
  | some vector =>
    refine List.forall_mem_singleton.2 ?_
    obtain ⟨read, isRead⟩ := exists_read_vector (areFinite vector rfl)
    have isGiven : Json.Reader.optional Reader.vector vector.toValue.node = .ok (some read) :=
      map_eq_ok.2 ⟨read, isRead, rfl⟩
    exact ⟨wrap (some read), (isField _).trans (map_eq_ok.2 ⟨_, isGiven, rfl⟩)⟩

/-- The names of the fields of a cube that is written are those of a cube, each once at most. -/
theorem sublist_fieldNames (cube : Cube Float) :
    ("origin" :: "size" :: (givenField "rotation" Vec3.toValue cube.rotation).map (·.1) ++
      (givenField "pivot" Vec3.toValue cube.pivot).map (·.1)).Sublist Cube.fieldNames := by
  exact (((names_givenField ..).append (names_givenField ..)).cons_cons "size").cons_cons "origin"

/-- A finite cube that was written is read. -/
theorem exists_read_cube {cube : Cube Float} {limit : Nat} (isFinite : cube.IsFinite)
    (fits : cube.FitsIn limit) : ∃ read, Reader.cube cube.toValue.node = .ok read := by
  have distinct : ((("origin", cube.origin.toValue) :: ("size", cube.size.toValue) ::
      givenField "rotation" Vec3.toValue cube.rotation ++
      givenField "pivot" Vec3.toValue cube.pivot ++ cube.extra.entries).map (·.1)).Nodup := by
    rw [List.map_append, List.nodup_append']
    have fixed := sublist_fieldNames cube
    rw [List.map_append, List.map_cons, List.map_cons]
    refine ⟨fixed.nodup (by decide), cube.extra.nodup_names, fun name isField isKept => ?_⟩
    obtain ⟨entry, isEntry, rfl⟩ := List.mem_map.1 isKept
    exact fits.names entry isEntry (fixed.subset isField)
  have readable : ∀ member ∈ ("origin", cube.origin.toValue) :: ("size", cube.size.toValue) ::
      givenField "rotation" Vec3.toValue cube.rotation ++
      givenField "pivot" Vec3.toValue cube.pivot ++ cube.extra.entries,
      ∃ value, cubeField member.1 member.2.node = .ok value := by
    simp only [List.cons_append, List.forall_mem_cons, List.forall_mem_append]
    refine ⟨?origin, ?size, ⟨?rotation, ?pivot⟩, ?kept⟩
    case origin =>
      obtain ⟨read, isRead⟩ := exists_read_vector isFinite.origin
      exact ⟨.origin read, map_eq_ok.2 ⟨read, isRead, rfl⟩⟩
    case size =>
      obtain ⟨read, isRead⟩ := exists_read_vector isFinite.size
      exact ⟨.size read, map_eq_ok.2 ⟨read, isRead, rfl⟩⟩
    case rotation => exact exists_read_given (fun _ => rfl) isFinite.rotation
    case pivot => exact exists_read_given (fun _ => rfl) isFinite.pivot
    case kept =>
      intro entry isEntry
      obtain ⟨read, isRead⟩ := entry.2.exists_read_value
      have untyped := fits.names entry isEntry
      simp only [Cube.fieldNames, List.mem_cons, List.not_mem_nil, or_false, not_or] at untyped
      refine ⟨.other entry.1 read, ?_⟩
      rw [cubeField]
      · exact map_eq_ok.2 ⟨read, isRead, rfl⟩
      · exact untyped.1
      · exact untyped.2.1
      · exact untyped.2.2.1
      · exact untyped.2.2.2
  obtain ⟨read, each, isRead⟩ :=
    Value.exists_read_members "Cube" Cube.fieldNames buildCube distinct readable
  obtain ⟨first, _, isFirst, others, rfl⟩ := List.forall₂_cons_left_iff.1 each
  obtain ⟨second, _, isSecond, -, rfl⟩ := List.forall₂_cons_left_iff.1 others
  obtain ⟨origin, -, rfl⟩ := map_eq_ok.1
    (show (Reader.vector _).map CubeField.origin = _ from isFirst)
  obtain ⟨size, -, rfl⟩ := map_eq_ok.1
    (show (Reader.vector _).map CubeField.size = _ from isSecond)
  exact ⟨_, isRead⟩

/-- The description of the built-in model is read under any identifier. -/
theorem exists_read_description (identifier : String) :
    ∃ read,
      description (Description.toValue ⟨identifier, Template.builtinDetails⟩).node = .ok read := by
  have untyped : ∀ entry ∈ Template.builtinDetails.entries, entry.1 ≠ "identifier" := by
    intro entry isEntry
    have member := NameMap.mem_of_mem_ofList isEntry
    simp only [List.mem_cons, List.not_mem_nil, or_false] at member
    rcases member with rfl | rfl | rfl | rfl | rfl <;> decide
  have distinct : ((("identifier", Value.string identifier) ::
      Template.builtinDetails.entries).map (·.1)).Nodup := by
    rw [List.map_cons, List.nodup_cons]
    refine ⟨fun isKept => ?_, Template.builtinDetails.nodup_names⟩
    obtain ⟨entry, isEntry, same⟩ := List.mem_map.1 isKept
    exact untyped entry isEntry same
  have readable : ∀ member ∈ ("identifier", Value.string identifier) ::
      Template.builtinDetails.entries,
      ∃ value, descriptionField member.1 member.2.node = .ok value := by
    refine List.forall_mem_cons.2 ⟨⟨.identifier identifier, rfl⟩, fun entry isEntry => ?_⟩
    obtain ⟨read, isRead⟩ := entry.2.exists_read_value
    refine ⟨.other entry.1 read, ?_⟩
    rw [descriptionField]
    · exact map_eq_ok.2 ⟨read, isRead, rfl⟩
    · exact untyped entry isEntry
  obtain ⟨read, each, isRead⟩ :=
    Value.exists_read_members "Description" ["identifier"] buildDescription distinct readable
  obtain ⟨first, _, isFirst, -, rfl⟩ := List.forall₂_cons_left_iff.1 each
  obtain rfl : .identifier identifier = first := Except.ok.inj isFirst
  exact ⟨_, isRead⟩

/-- The bone `root` of the model of a body is read. -/
theorem bone_root {pivot read : Vec3 Float} (isPivot : vector pivot.toValue.node = .ok read) :
    bone (Bone.toValue ⟨"root", none, pivot, none, none, .empty⟩).node =
      .ok ⟨"root", none, read, none, none, .empty⟩ := by
  refine Json.Reader.record_eq_ok.2
    ⟨[("name", .string "root"), ("pivot", pivot.toValue.node)], [.name "root", .pivot read],
      rfl, ?_, rfl⟩
  exact Json.Reader.fields_of_forall₂ (show ["name", "pivot"].Nodup by decide)
    (.cons rfl (.cons (map_eq_ok.2 ⟨read, isPivot, rfl⟩) .nil))

/-- The bone of the model of a body that holds the cubes is read if they are. -/
theorem bone_model {pivot read : Vec3 Float} (isPivot : vector pivot.toValue.node = .ok read)
    {cubes cubesRead : List (Cube Float)}
    (areCubes : Json.Reader.list cube (cubesValue cubes).node = .ok cubesRead) :
    bone (Bone.toValue ⟨templateBone, some "root", pivot, none, some cubes, .empty⟩).node =
      .ok ⟨templateBone, some "root", read, none, some cubesRead, .empty⟩ := by
  refine Json.Reader.record_eq_ok.2
    ⟨[("name", .string templateBone), ("parent", .string "root"), ("pivot", pivot.toValue.node),
      ("cubes", (cubesValue cubes).node)],
      [.name templateBone, .parent (some "root"), .pivot read, .cubes (some cubesRead)], rfl, ?_, rfl⟩
  have isGiven : Json.Reader.optional (Json.Reader.list cube) (cubesValue cubes).node =
      .ok (some cubesRead) := map_eq_ok.2 ⟨cubesRead, areCubes, rfl⟩
  exact Json.Reader.fields_of_forall₂ (show ["name", "parent", "pivot", "cubes"].Nodup by decide)
    (.cons rfl (.cons rfl (.cons (map_eq_ok.2 ⟨read, isPivot, rfl⟩)
      (.cons (map_eq_ok.2 ⟨_, isGiven, rfl⟩) .nil))))

/-- A geometry that says nothing else is read if its description and bones are. -/
theorem geometry_of_parts {details read : Description} {bones bonesRead : List (Bone Float)}
    (isDescription : description details.toValue.node = .ok read)
    (areBones : Json.Reader.list bone (Value.array (bones.map Bone.toValue)).node = .ok bonesRead) :
    geometry (Geometry.toValue ⟨details, bones, .empty⟩).node =
      .ok ⟨read, bonesRead, .empty⟩ := by
  refine Json.Reader.record_eq_ok.2
    ⟨[("description", details.toValue.node), ("bones", (Value.array (bones.map Bone.toValue)).node)],
      [.description read, .bones bonesRead], rfl, ?_, rfl⟩
  exact Json.Reader.fields_of_forall₂ (show ["description", "bones"].Nodup by decide)
    (.cons (map_eq_ok.2 ⟨read, isDescription, rfl⟩)
      (.cons (map_eq_ok.2 ⟨bonesRead, areBones, rfl⟩) .nil))

/-- A model that says nothing else is read if its geometries are. -/
theorem model_of_parts {version : String} {geometries geometriesRead : List (Geometry Float)}
    (areGeometries : Json.Reader.list geometry
      (Value.array (geometries.map Geometry.toValue)).node = .ok geometriesRead) :
    model (Model.toValue ⟨version, geometries, .empty⟩).node =
      .ok ⟨version, geometriesRead, .empty⟩ := by
  refine Json.Reader.record_eq_ok.2
    ⟨[("format_version", .string version),
      ("minecraft:geometry", (Value.array (geometries.map Geometry.toValue)).node)],
      [.formatVersion version, .geometries geometriesRead], rfl, ?_, rfl⟩
  exact Json.Reader.fields_of_forall₂ (show ["format_version", "minecraft:geometry"].Nodup by decide)
    (.cons rfl (.cons (map_eq_ok.2 ⟨geometriesRead, areGeometries, rfl⟩) .nil))

/-- The model of a body is read if its cubes are, and has no part in the physics. -/
theorem exists_read_stamped (identifier : String) {cubes : List (Cube Float)}
    (readable : ∀ cube ∈ cubes, ∃ read, Reader.cube cube.toValue.node = .ok read) :
    ∃ read, model (Template.stamped identifier cubes).toValue.node = .ok read ∧
      read.hasBonesUnder [bodyParent, constraintParent] = false := by
  obtain ⟨details, isDescription⟩ := exists_read_description identifier
  have pivotFinite : Template.builtinPivot.IsFinite := ⟨rfl, rfl, rfl⟩
  obtain ⟨pivot, isPivot⟩ := exists_read_vector pivotFinite
  obtain ⟨cubesRead, each⟩ := exists_forall₂ readable
  have areCubes : Json.Reader.list cube (cubesValue cubes).node = .ok cubesRead := by
    refine Json.Reader.list_eq_ok.2 ⟨(cubes.map Cube.toValue).map Value.node, ?_, ?_⟩
    · rw [cubesValue, Value.node, Value.itemNodes_eq]
    · rw [List.map_map]
      exact List.forall₂_map_left_iff.2 each
  have areBones := Json.Reader.list_eq_ok.2
    ⟨_, rfl, .cons (bone_root isPivot) (.cons (bone_model isPivot areCubes) .nil)⟩
  have isGeometry := @geometry_of_parts _ _ [_, _] _ isDescription areBones
  have areGeometries := Json.Reader.list_eq_ok.2 ⟨_, rfl, .cons isGeometry .nil⟩
  exact ⟨_, @model_of_parts "1.12.0" [_] _ areGeometries, rfl⟩

end Model.Reader

/-- The text of the model of a body is that of a model without any part in the physics. -/
theorem Template.exists_parse_stamped (identifier : String) {cubes : List (Cube Float)}
    (areFinite : ∀ cube ∈ cubes, cube.IsFinite) (fit : ∀ cube ∈ cubes, cube.FitsIn Cube.depthLimit) :
    ∃ read, Model.parse (stamped identifier cubes).toValue.pretty = .ok read ∧
      read.hasBonesUnder [bodyParent, constraintParent] = false := by
  obtain ⟨read, isRead, noPart⟩ := Model.Reader.exists_read_stamped identifier fun cube isCube =>
    Model.Reader.exists_read_cube (areFinite cube isCube) (fit cube isCube)
  refine ⟨read, ?_, noPart⟩
  rw [Model.parse, Json.Reader.run, Document.ofText_pretty (depth_stamped identifier fit), isRead]
  rfl

end PhysicsPrefab
