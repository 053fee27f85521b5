import PhysicsPrefab.Model.Written
import PhysicsPrefab.Proofs.Json.Replacing
import PhysicsPrefab.Proofs.Model.Fields

/-!
# Models that are written and read again

A model that was read from a text can be written without loss (`Model.parse_isLossless`): both written
forms are read as the same model, with all that it keeps, its locators in the forms they were given
and its optional fields left out where they were. Only doubles may change on the way, as their reading
is not always the nearest, so those of the model are supposed to be read as they were written.
-/

namespace PhysicsPrefab

open Answer
open Json (Document Node Number Value)
open Json.Members (AreWritten again_given again_read? areWritten_of_kept bounds_given bounds_kept
  bounds_read? node_object nodes)
open Json.Reader (string_restores)

/-- A field that is written only if it is given is held if it is. -/
@[simp] theorem held?_givenField {α : Type} (other name : String) (write : α → Value)
    (given : Option α) :
    Json.Members.held? name (nodes (givenField other write given)) =
      if other = name then given.map fun data => (write data).node else none := by
  cases given with
  | none => exact (ite_self _).symm
  | some data => exact Json.Members.held?_nodes_cons other name (write data) []

namespace Model.Reader

/-- A vector is read as it was written if its numbers are. -/
theorem vector_toValue {position : Vec3 Float} (readsBack : position.toValue.ReadsBack) :
    vector position.toValue.node = .ok position := by
  have each := Value.readsBack_array.1 readsBack
  refine map_eq_ok.2 ⟨(position.x, position.y, position.z), Json.Reader.triple_eq_ok.2
    ⟨_, _, _, rfl, Value.number_ofFloat (each _ ?_), Value.number_ofFloat (each _ ?_),
      Value.number_ofFloat (each _ ?_)⟩, rfl⟩
  all_goals simp

/-- The numbers of a vector. -/
theorem numbers_vector (position : Vec3 Float) : position.toValue.numbers =
    [.double position.x, .double position.y, .double position.z] := rfl

/-- Vectors are restored. -/
theorem vector_restores (room : Nat) : vector.Restores Vec3.toValue room where
  bounds isRead := by
    obtain ⟨x, y, z, rfl, rfl⟩ := vector_eq_ok.1 isRead
    refine ⟨le_max_left 1 room, fun proper => ?_⟩
    have isFinite (part : Number) (isPart : part ∈ [x, y, z]) : part.toFloat.isFinite = true :=
      Number.IsProper.isFinite (proper part isPart)
    simp only [numbers_vector, List.forall_mem_cons]
    exact ⟨isFinite x (by simp), isFinite y (by simp), isFinite z (by simp), nofun⟩
  again _ readsBack := vector_toValue readsBack

/-- The origin, which is written for a pivot that was not given, takes little room. -/
theorem bounds_zero (room : Nat) : Node.null.Bounds (room + 1) Vec3.zero.toValue := by
  refine ⟨(Nat.le_add_left 1 room).trans (le_max_right _ _), fun _ => ?_⟩
  simp only [numbers_vector, List.forall_mem_cons]
  exact ⟨rfl, rfl, rfl, nofun⟩

/-- Locators are restored in the form they were given. -/
theorem locator_restores (room : Nat) : locator.Restores Locator.toValue (room + 1) where
  bounds isRead := by
    obtain ⟨-, ⟨position, isVector, rfl⟩ | ⟨entries, rfl, offset, extra, rfl, said⟩⟩ :=
      locator_eq_ok.1 isRead
    · exact (vector_restores _).bounds isVector
    · have isInside := bounds_read? (vector_restores room) said.offset nofun
      exact Node.bounds_object (List.forall_mem_cons.2 ⟨isInside, bounds_kept said.extra room⟩)
  again {node data} isRead readsBack := by
    refine locator_eq_ok.2 ⟨Value.isSome_value?_node _, ?_⟩
    obtain ⟨-, ⟨position, isVector, rfl⟩ | ⟨entries, rfl, offset, extra, rfl, said⟩⟩ :=
      locator_eq_ok.1 isRead
    · exact .inl ⟨position, vector_toValue readsBack, rfl⟩
    · obtain ⟨offsetBack, extraBack⟩ := List.forall_mem_cons.1 (Value.readsBack_object.1 readsBack)
      have written : AreWritten Locator.fieldNames [("offset", offset.toValue)] extra :=
        areWritten_of_kept said.extra (by decide) (.refl _) extraBack
      refine .inr ⟨_, written.node, offset, extra, rfl, fun name _ => written.once name, ?_, written.kept⟩
      exact written.read?_field (by decide) (by simp) (vector_toValue offsetBack)

/-- Sets of locators are restored. -/
theorem locators_restores (room : Nat) : locators.Restores locatorsValue (room + 2) where
  bounds isRead := by
    obtain ⟨entries, values, rfl, each, rfl⟩ := locators_eq_ok.1 isRead
    refine Node.bounds_object fun member isMember => ?_
    obtain ⟨entry, isEntry, rfl⟩ := List.mem_map.1 isMember
    obtain ⟨part, isPart, -, partRead⟩ := exists_of_mem_right each (NameMap.mem_of_mem_ofList isEntry)
    exact ⟨part.2, Node.inside_object isPart, (locator_restores room).bounds partRead⟩
  again {node data} isRead readsBack := by
    obtain ⟨entries, values, rfl, each, rfl⟩ := locators_eq_ok.1 isRead
    refine locators_eq_ok.2 ⟨_, (NameMap.ofList values).entries, node_object _, ?_, by simp⟩
    rw [nodes, List.map_map, List.forall₂_map_left_iff, List.forall₂_same]
    intro entry isEntry
    obtain ⟨part, -, -, partRead⟩ := exists_of_mem_right each (NameMap.mem_of_mem_ofList isEntry)
    exact ⟨rfl, (locator_restores room).again partRead
      (Value.readsBack_object.1 readsBack _ (List.mem_map_of_mem isEntry))⟩

/-- Cubes are restored. -/
theorem cube_restores (room : Nat) : cube.Restores Cube.toValue (room + 1) where
  bounds isRead := by
    obtain ⟨entries, rfl, said⟩ := cube_eq_ok.1 isRead
    refine Node.bounds_object ?_
    simp only [List.cons_append, List.forall_mem_cons, List.forall_mem_append, forall_mem_givenField]
    exact ⟨bounds_read? (vector_restores room) said.origin nofun,
      bounds_read? (vector_restores room) said.size nofun,
      ⟨bounds_given (vector_restores room) said.rotation,
        bounds_given (vector_restores room) said.pivot⟩, bounds_kept said.extra room⟩
  again {node data} isRead readsBack := by
    obtain ⟨entries, rfl, said⟩ := cube_eq_ok.1 isRead
    have each := Value.readsBack_object.1 readsBack
    simp only [List.cons_append, List.forall_mem_cons, List.forall_mem_append,
      forall_mem_givenField] at each
    obtain ⟨origin, size, ⟨rotation, pivot⟩, extra⟩ := each
    have written : AreWritten Cube.fieldNames (("origin", data.origin.toValue) ::
        ("size", data.size.toValue) :: givenField "rotation" Vec3.toValue data.rotation ++
        givenField "pivot" Vec3.toValue data.pivot) data.extra := by
      refine areWritten_of_kept said.extra (by decide) ?_ extra
      simp only [List.cons_append, List.map_cons, List.map_append]
      exact (((names_givenField ..).append (names_givenField ..)).cons_cons _).cons_cons _
    exact cube_eq_ok.2 ⟨_, written.node, fun name _ => written.once name,
      written.read?_field (by decide) (by simp) (vector_toValue origin),
      written.read?_field (by decide) (by simp) (vector_toValue size),
      written.read?_given (by decide) (by simp) (fun _ given => vector_toValue (rotation _ given)) nofun,
      written.read?_given (by decide) (by simp) (fun _ given => vector_toValue (pivot _ given)) nofun,
      written.kept⟩

/-- Bones are restored. -/
theorem bone_restores (room : Nat) : bone.Restores Bone.toValue (room + 3) where
  bounds isRead := by
    obtain ⟨entries, rfl, said⟩ := bone_eq_ok.1 isRead
    refine Node.bounds_object ?_
    simp only [List.cons_append, List.forall_mem_cons, List.forall_mem_append, forall_mem_givenField]
    refine ⟨bounds_read? (string_restores _) said.name nofun,
      ⟨⟨bounds_given (string_restores _) said.parent, bounds_read? (vector_restores _) said.pivot ?_,
        bounds_given (locators_restores room) said.locators⟩,
        bounds_given (cube_restores room).list said.cubes⟩, bounds_kept said.extra _⟩
    rintro _ ⟨⟩
    exact bounds_zero _
  again {node data} isRead readsBack := by
    obtain ⟨entries, rfl, said⟩ := bone_eq_ok.1 isRead
    have each := Value.readsBack_object.1 readsBack
    simp only [List.cons_append, List.forall_mem_cons, List.forall_mem_append,
      forall_mem_givenField] at each
    obtain ⟨name, ⟨⟨parent, pivot, locators⟩, cubes⟩, extra⟩ := each
    have written : AreWritten Bone.fieldNames (("name", .string data.name) ::
        givenField "parent" .string data.parent ++ ("pivot", data.pivot.toValue) ::
        givenField "locators" locatorsValue data.locators ++
        givenField "cubes" cubesValue data.cubes) data.extra := by
      refine areWritten_of_kept said.extra (by decide) ?_ extra
      simp only [List.cons_append, List.map_cons, List.map_append]
      exact (((names_givenField ..).append ((names_givenField ..).cons_cons _)).append
        (names_givenField ..)).cons_cons _
    have nameAgain := again_read? (string_restores room) said.name name
    have parentAgain := again_given (string_restores room) said.parent parent
    have locatorsAgain := again_given (locators_restores room) said.locators locators
    have cubesAgain : ∀ given ∈ data.cubes, Json.Reader.list cube (cubesValue given).node = .ok given :=
      again_given (cube_restores room).list said.cubes cubes
    exact bone_eq_ok.2 ⟨_, written.node, fun name _ => written.once name,
      written.read?_field (by decide) (by simp) nameAgain,
      written.read?_given (by decide) (by simp) parentAgain nofun,
      written.read?_field (by decide) (by simp) (vector_toValue pivot),
      written.read?_given (by decide) (by simp) locatorsAgain nofun,
      written.read?_given (by decide) (by simp) cubesAgain nofun, written.kept⟩

/-- Descriptions are restored. -/
theorem description_restores (room : Nat) : description.Restores Description.toValue (room + 1) where
  bounds isRead := by
    obtain ⟨entries, rfl, said⟩ := description_eq_ok.1 isRead
    have isInside := bounds_read? (string_restores room) said.identifier nofun
    exact Node.bounds_object (List.forall_mem_cons.2 ⟨isInside, bounds_kept said.extra room⟩)
  again {node data} isRead readsBack := by
    obtain ⟨entries, rfl, said⟩ := description_eq_ok.1 isRead
    obtain ⟨identifier, extra⟩ := List.forall_mem_cons.1 (Value.readsBack_object.1 readsBack)
    have written : AreWritten Description.fieldNames [("identifier", .string data.identifier)]
        data.extra := areWritten_of_kept said.extra (by decide) (.refl _) extra
    have identifierAgain := again_read? (string_restores room) said.identifier identifier
    exact description_eq_ok.2 ⟨_, written.node, fun name _ => written.once name,
      written.read?_field (by decide) (by simp) identifierAgain, written.kept⟩

/-- Geometries are restored. -/
theorem geometry_restores (room : Nat) : geometry.Restores Geometry.toValue (room + 5) where
  bounds isRead := by
    obtain ⟨entries, rfl, said⟩ := geometry_eq_ok.1 isRead
    have details := bounds_read? (description_restores (room + 3)) said.description nofun
    have bones := bounds_read? (bone_restores room).list said.bones nofun
    exact Node.bounds_object (List.forall_mem_cons.2 ⟨details,
      List.forall_mem_cons.2 ⟨bones, bounds_kept said.extra _⟩⟩)
  again {node data} isRead readsBack := by
    obtain ⟨entries, rfl, said⟩ := geometry_eq_ok.1 isRead
    have each := Value.readsBack_object.1 readsBack
    simp only [List.forall_mem_cons] at each
    obtain ⟨details, bones, extra⟩ := each
    have written : AreWritten Geometry.fieldNames [("description", data.description.toValue),
        ("bones", .array (data.bones.map Bone.toValue))] data.extra :=
      areWritten_of_kept said.extra (by decide) (.refl _) extra
    have detailsAgain := again_read? (description_restores room) said.description details
    have bonesAgain := again_read? (bone_restores room).list said.bones bones
    exact geometry_eq_ok.2 ⟨_, written.node, fun name _ => written.once name,
      written.read?_field (by decide) (by simp) detailsAgain,
      written.read?_field (by decide) (by simp) bonesAgain, written.kept⟩

/-- Models are restored. -/
theorem model_restores (room : Nat) : model.Restores Model.toValue (room + 7) where
  bounds isRead := by
    obtain ⟨entries, rfl, said⟩ := model_eq_ok.1 isRead
    have version := bounds_read? (string_restores (room + 6)) said.formatVersion
      fun _ _ => Node.bounds_string _ _ _
    have geometries := bounds_read? (geometry_restores room).list said.geometries nofun
    exact Node.bounds_object (List.forall_mem_cons.2 ⟨version,
      List.forall_mem_cons.2 ⟨geometries, bounds_kept said.extra _⟩⟩)
  again {node data} isRead readsBack := by
    obtain ⟨entries, rfl, said⟩ := model_eq_ok.1 isRead
    have each := Value.readsBack_object.1 readsBack
    simp only [List.forall_mem_cons] at each
    obtain ⟨-, geometries, extra⟩ := each
    have written : AreWritten Model.fieldNames [("format_version", .string data.formatVersion),
        ("minecraft:geometry", .array (data.geometries.map Geometry.toValue))] data.extra :=
      areWritten_of_kept said.extra (by decide) (.refl _) extra
    have versionAgain :
        Json.Reader.string (Value.string data.formatVersion).node = .ok data.formatVersion := rfl
    have geometriesAgain := again_read? (geometry_restores room).list said.geometries geometries
    exact model_eq_ok.2 ⟨_, written.node, fun name _ => written.once name,
      written.read?_field (by decide) (by simp) versionAgain,
      written.read?_field (by decide) (by simp) geometriesAgain, written.kept⟩

end Model.Reader

/-- A model that was read from a text can be read within the limit of texts. -/
theorem Model.reads_of_parse {text : String} {model : Model Float}
    (parsed : Model.parse text = .ok model) : Reader.model.Reads Json.Build.depthLimit model :=
  ⟨_, ⟨Document.depth_ofText text, Document.isProper_ofText text⟩, Model.read_of_parse parsed⟩

/-- A model that can be read is read from what is written of it, if its doubles are read as they are
written. -/
theorem Model.parse_of_reads {model : Model Float}
    (reads : Reader.model.Reads Json.Build.depthLimit model)
    (doubles : ∀ value : Float, .double value ∈ model.toValue.numbers → value.isFinite = true →
      (Number.double value).ReadsBack) :
    Model.parse model.toValue.text = .ok model ∧ Model.parse model.toValue.pretty = .ok model := by
  obtain ⟨shallow, again⟩ := (Reader.model_restores 0).again_of_reads (by decide) reads doubles
  constructor
  · rw [Model.parse, Json.Reader.run, Document.ofText_text shallow, again]
    rfl
  · rw [Model.parse, Json.Reader.run, Document.ofText_pretty shallow, again]
    rfl

/-- Whether a model is read from both of its written forms as it was, so that writing it once more
changes nothing. -/
structure Model.IsLossless (model : Model Float) : Prop where
  /-- The form without blanks gives the model. -/
  compact : Model.parse model.toValue.text = .ok model
  /-- The laid out form gives the model. -/
  pretty : Model.parse model.toValue.pretty = .ok model
  /-- What is read from either form is written in the same way again. -/
  fixed : ∀ read,
    Model.parse model.toValue.text = .ok read ∨ Model.parse model.toValue.pretty = .ok read →
    read.toValue.text = model.toValue.text ∧ read.toValue.pretty = model.toValue.pretty

/-- A model that was read is written without loss, if its doubles are read as they are written. -/
theorem Model.parse_isLossless {text : String} {model : Model Float}
    (parsed : Model.parse text = .ok model)
    (doubles : ∀ value : Float, .double value ∈ model.toValue.numbers → value.isFinite = true →
      (Number.double value).ReadsBack) : model.IsLossless := by
  obtain ⟨compact, pretty⟩ := Model.parse_of_reads (Model.reads_of_parse parsed) doubles
  refine ⟨compact, pretty, ?_⟩
  rintro read (isSame | isSame)
  · cases compact.symm.trans isSame
    exact ⟨rfl, rfl⟩
  · cases pretty.symm.trans isSame
    exact ⟨rfl, rfl⟩

/-- The text of a model with locators of both forms. -/
def Model.bollardText : String :=
  "\x7b\"minecraft:geometry\":[\x7b\"description\":\x7b\"identifier\":\"a\"\x7d,\"bones\":[" ++
  "\x7b\"name\":\"b\",\"parent\":null,\"locators\":\x7b\"top\":[0,16,0]," ++
  "\"ring\":\x7b\"offset\":[0,8,0],\"k\":1.5\x7d\x7d\x7d]\x7d],\"w\":-2\x7d"

/-- How the model with locators of both forms is written. -/
def Model.bollardWritten : String :=
  "\x7b\"format_version\":\"\",\"minecraft:geometry\":[\x7b\"description\":\x7b\"identifier\":\"a\"\x7d," ++
  "\"bones\":[\x7b\"name\":\"b\",\"pivot\":[0.0,0.0,0.0],\"locators\":\x7b\"ring\":\x7b" ++
  "\"offset\":[0.0,8.0,0.0],\"k\":1.5\x7d,\"top\":[0.0,16.0,0.0]\x7d\x7d]\x7d],\"w\":-2\x7d"

/-- The model with locators of both forms is written without loss. -/
theorem Model.parse_isLossless_bollard : ∃ model, Model.parse bollardText = .ok model ∧
    (∀ value : Float, .double value ∈ model.toValue.numbers → value.isFinite = true →
      (Number.double value).ReadsBack) ∧ model.IsLossless ∧ model.toValue.text = bollardWritten := by
  have passes : (Model.parse bollardText).toOption.any (fun model =>
      (∀ number ∈ model.toValue.numbers, number.ReadsBack) ∧
        model.toValue.text = bollardWritten) = true := by decide +kernel
  obtain ⟨model, parsed, isGood⟩ := exists_of_any passes
  obtain ⟨readsBack, isWritten⟩ := of_decide_eq_true isGood
  have doubles (value : Float) (inside : .double value ∈ model.toValue.numbers)
      (_ : value.isFinite = true) : (Number.double value).ReadsBack := readsBack _ inside
  exact ⟨model, parsed, doubles, Model.parse_isLossless parsed doubles, isWritten⟩

end PhysicsPrefab
