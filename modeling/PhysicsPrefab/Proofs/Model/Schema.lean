import PhysicsPrefab.Proofs.Model.Fields

/-!
# The schema of a model

Which documents are models can be said of their trees alone: which names each object must or may
have, how often, and what their values are (`Node.IsModel`). The reader accepts exactly these
(`Model.Reader.accepts_model`), as long as every part of the document is well formed.
-/

namespace PhysicsPrefab

open Answer
open Json (Node Reader Value)
open Json.Members (count count_eq_zero held? held?_eq_none held?_of_mem kept? kept?_eq_some mem_of_held?
  read? read?_eq_some)

namespace Json

namespace Members

/-- Whether a name is given exactly once, with a value of some shape. -/
def ExactlyOne (name : String) (shape : Node → Prop) (entries : List (String × Node)) : Prop :=
  count name entries = 1 ∧ ∀ node, (name, node) ∈ entries → shape node

/-- Whether a name is given at most once, with a value of some shape. -/
def AtMostOne (name : String) (shape : Node → Prop) (entries : List (String × Node)) : Prop :=
  count name entries ≤ 1 ∧ ∀ node, (name, node) ∈ entries → shape node

end Members

open Members (AtMostOne ExactlyOne)

namespace Node

/-- Exactly three numbers. -/
def IsVector (node : Node) : Prop := ∃ x y z, node = .array [.number x, .number y, .number z] true

/-- A text. -/
def IsText (node : Node) : Prop := ∃ text, node = .string text

/-- `null`, or what has some shape. -/
def IsNullOr (shape : Node → Prop) (node : Node) : Prop := node = .null ∨ shape node

/-- An array all of whose items have some shape. -/
def IsListOf (shape : Node → Prop) (node : Node) : Prop :=
  ∃ items, node = .array items true ∧ ∀ item ∈ items, shape item

/-- An object all of whose values have some shape. -/
def IsMapOf (shape : Node → Prop) (node : Node) : Prop :=
  ∃ entries, node = .object entries true ∧ ∀ name item, (name, item) ∈ entries → shape item

/-- An object whose members follow some rules; further members are free. -/
def IsObjectWith (rules : List (List (String × Node) → Prop)) (node : Node) : Prop :=
  ∃ entries, node = .object entries true ∧ ∀ rule ∈ rules, rule entries

/-- A locator: a position, or an object with one. -/
def IsLocator (node : Node) : Prop :=
  node.IsVector ∨ node.IsObjectWith [ExactlyOne "offset" IsVector]

/-- A cube. -/
def IsCube : Node → Prop :=
  IsObjectWith [ExactlyOne "origin" IsVector, ExactlyOne "size" IsVector,
    AtMostOne "rotation" (IsNullOr IsVector), AtMostOne "pivot" (IsNullOr IsVector)]

/-- A bone. -/
def IsBone : Node → Prop :=
  IsObjectWith [ExactlyOne "name" IsText, AtMostOne "parent" (IsNullOr IsText),
    AtMostOne "pivot" IsVector, AtMostOne "locators" (IsNullOr (IsMapOf IsLocator)),
    AtMostOne "cubes" (IsNullOr (IsListOf IsCube))]

/-- A description. -/
def IsDescription : Node → Prop := IsObjectWith [ExactlyOne "identifier" IsText]

/-- A geometry. -/
def IsGeometry : Node → Prop :=
  IsObjectWith [ExactlyOne "description" IsDescription, ExactlyOne "bones" (IsListOf IsBone)]

/-- A model. -/
def IsModel : Node → Prop :=
  IsObjectWith [AtMostOne "format_version" IsText,
    ExactlyOne "minecraft:geometry" (IsListOf IsGeometry)]

/-- A tree without malformed places. -/
def IsWellFormed (node : Node) : Prop := node.value?.isSome = true

/-- The items of a well-formed array are well formed. -/
theorem IsWellFormed.item {items : List Node} {closed : Bool}
    (wellFormed : (Node.array items closed).IsWellFormed) : ∀ item ∈ items, item.IsWellFormed := by
  intro item member
  obtain ⟨value, isValue⟩ := Option.isSome_iff_exists.1 wellFormed
  obtain ⟨-, values, each, -⟩ := value?_array.1 isValue
  obtain ⟨held, -, isHeld⟩ := exists_of_mem_left each member
  exact Option.isSome_iff_exists.2 ⟨held, isHeld⟩

/-- The members of a well-formed object are well formed. -/
theorem IsWellFormed.member {entries : List (String × Node)} {closed : Bool}
    (wellFormed : (Node.object entries closed).IsWellFormed) :
    ∀ name node, (name, node) ∈ entries → node.IsWellFormed := by
  intro name node member
  obtain ⟨value, isValue⟩ := Option.isSome_iff_exists.1 wellFormed
  obtain ⟨-, values, each, -⟩ := value?_object.1 isValue
  obtain ⟨held, -, -, isHeld⟩ := exists_of_mem_left each member
  exact Option.isSome_iff_exists.2 ⟨held.2, isHeld⟩

end Node

/-- Whether a reader accepts exactly the well-formed trees of a shape. -/
def Reader.Accepts {α : Type} (reader : Reader α) (shape : Node → Prop) : Prop :=
  ∀ node : Node, node.IsWellFormed → ((∃ value, reader node = .ok value) ↔ shape node)

namespace Reader.Accepts

variable {α : Type} {reader : Reader α} {shape : Node → Prop}

/-- Texts are accepted. -/
theorem string : Reader.string.Accepts Node.IsText := fun _ _ => by
  simp only [string_eq_ok, Node.IsText]

/-- `null` is accepted besides. -/
theorem optional (accepts : reader.Accepts shape) :
    (Reader.optional reader).Accepts (Node.IsNullOr shape) := by
  intro node wellFormed
  rw [Node.IsNullOr, ← accepts node wellFormed]
  constructor
  · rintro ⟨given, isRead⟩
    rcases optional_eq_ok.1 isRead with ⟨isNull, -⟩ | ⟨-, value, isRead, -⟩
    · exact .inl isNull
    · exact .inr ⟨value, isRead⟩
  · intro shaped
    by_cases isNull : node = .null
    · exact ⟨none, optional_eq_ok.2 (.inl ⟨isNull, rfl⟩)⟩
    · obtain ⟨value, isRead⟩ := shaped.resolve_left isNull
      exact ⟨some value, optional_eq_ok.2 (.inr ⟨isNull, value, isRead, rfl⟩)⟩

/-- Lists are accepted if their items are. -/
theorem list (accepts : reader.Accepts shape) : (Reader.list reader).Accepts (Node.IsListOf shape) := by
  intro node wellFormed
  constructor
  · rintro ⟨values, areRead⟩
    obtain ⟨items, rfl, each⟩ := list_eq_ok.1 areRead
    refine ⟨items, rfl, fun item member => (accepts _ (wellFormed.item item member)).1 ?_⟩
    obtain ⟨value, -, isRead⟩ := exists_of_mem_left each member
    exact ⟨value, isRead⟩
  · rintro ⟨items, rfl, shaped⟩
    obtain ⟨values, each⟩ := exists_forall₂ fun item member =>
      (accepts _ (wellFormed.item item member)).2 (shaped item member)
    exact ⟨values, list_eq_ok.2 ⟨items, rfl, each⟩⟩

variable {entries : List (String × Node)} {name : String}

/-- A name that is given once at most is read if its value is as it should be, and if something
stands for it where it is not given. -/
theorem exists_read?_iff (accepts : reader.Accepts shape)
    (wellFormed : ∀ name node, (name, node) ∈ entries → node.IsWellFormed) {missing : Option α}
    (once : count name entries ≤ 1) : (∃ value, read? reader missing name entries = some value) ↔
      (count name entries = 0 → ∃ value, missing = some value) ∧
        ∀ node, (name, node) ∈ entries → shape node := by
  have absent : held? name entries = none ↔ count name entries = 0 :=
    held?_eq_none.trans count_eq_zero.symm
  constructor
  · rintro ⟨value, isRead⟩
    rcases read?_eq_some.1 isRead with ⟨isMissing, isValue⟩ | ⟨held, isHeld, isRead⟩
    · refine ⟨fun _ => ⟨value, isValue⟩, fun node member => ?_⟩
      exact absurd (List.mem_map_of_mem member) (held?_eq_none.1 isMissing)
    · refine ⟨fun none => ?_, fun node member => ?_⟩
      · rw [absent.2 none] at isHeld
        cases isHeld
      · obtain rfl := Option.some.inj (isHeld.symm.trans (held?_of_mem once member))
        exact (accepts _ (wellFormed name held member)).1 ⟨value, isRead⟩
  · rintro ⟨given, shaped⟩
    cases isHeld : held? name entries with
    | none =>
      obtain ⟨value, isValue⟩ := given (absent.1 isHeld)
      exact ⟨value, read?_eq_some.2 (.inl ⟨isHeld, isValue⟩)⟩
    | some node =>
      have member := mem_of_held? isHeld
      obtain ⟨value, isRead⟩ := (accepts _ (wellFormed name node member)).2 (shaped node member)
      exact ⟨value, read?_eq_some.2 (.inr ⟨node, isHeld, isRead⟩)⟩

/-- A field that must be given is read if it is given exactly once and as it should be. -/
theorem exactlyOne (accepts : reader.Accepts shape)
    (wellFormed : ∀ name node, (name, node) ∈ entries → node.IsWellFormed) :
    ExactlyOne name shape entries ↔
      count name entries ≤ 1 ∧ ∃ value, read? reader none name entries = some value := by
  rw [ExactlyOne]
  constructor
  · rintro ⟨one, shaped⟩
    have once : count name entries ≤ 1 := by omega
    exact ⟨once, (accepts.exists_read?_iff wellFormed once).2 ⟨fun none => by omega, shaped⟩⟩
  · rintro ⟨once, isRead⟩
    obtain ⟨given, shaped⟩ := (accepts.exists_read?_iff wellFormed once).1 isRead
    refine ⟨?_, shaped⟩
    by_contra other
    obtain ⟨_, isMissing⟩ := given (by omega)
    cases isMissing

/-- A field that may be given is read if it is given once at most and as it should be. -/
theorem atMostOne (accepts : reader.Accepts shape)
    (wellFormed : ∀ name node, (name, node) ∈ entries → node.IsWellFormed) (missing : α) :
    AtMostOne name shape entries ↔
      count name entries ≤ 1 ∧ ∃ value, read? reader (some missing) name entries = some value := by
  refine and_congr_right fun once => ?_
  rw [accepts.exists_read?_iff wellFormed once]
  exact (and_iff_right fun _ => ⟨missing, rfl⟩).symm

end Reader.Accepts

/-- The rest of a well-formed object is kept. -/
theorem Members.exists_kept? {entries : List (String × Node)} (typed : List String)
    (wellFormed : ∀ name node, (name, node) ∈ entries → node.IsWellFormed) :
    ∃ extra, kept? typed entries = some extra := by
  have valued : ∀ member ∈ entries.filter fun entry => !typed.contains entry.1,
      ∃ entry : String × Value, member.1 = entry.1 ∧ member.2.value? = some entry.2 := by
    intro member isOther
    have isMember := (List.mem_filter.1 isOther).1
    obtain ⟨value, isValue⟩ := Option.isSome_iff_exists.1 (wellFormed member.1 member.2 isMember)
    exact ⟨(member.1, value), rfl, isValue⟩
  obtain ⟨others, each⟩ := exists_forall₂ valued
  exact ⟨_, kept?_eq_some.2 ⟨others, each, rfl⟩⟩

end Json

namespace Model.Reader

open Json.Members (ExactlyOne exists_kept?)
open Json.Reader (Accepts)
open Json.Reader.Accepts (string)

/-- Vectors are accepted. -/
theorem accepts_vector : Accepts vector Node.IsVector := by
  intro node _
  constructor
  · rintro ⟨_, isRead⟩
    obtain ⟨x, y, z, isArray, -⟩ := vector_eq_ok.1 isRead
    exact ⟨x, y, z, isArray⟩
  · rintro ⟨x, y, z, isArray⟩
    exact ⟨_, vector_eq_ok.2 ⟨x, y, z, isArray, rfl⟩⟩

/-- An object is accepted if its members follow the rules of what is read from them. -/
theorem accepts_of_rules {α : Type} {reader : Json.Reader α} {said : List (String × Node) → α → Prop}
    {rules : List (List (String × Node) → Prop)}
    (isReader : ∀ {node result}, reader node = .ok result ↔
      ∃ entries, node = .object entries true ∧ said entries result)
    (follows : ∀ {entries}, (∀ name node, (name, node) ∈ entries → node.IsWellFormed) →
      ((∃ result, said entries result) ↔ ∀ rule ∈ rules, rule entries)) :
    Accepts reader (Node.IsObjectWith rules) := by
  intro node wellFormed
  constructor
  · rintro ⟨result, isRead⟩
    obtain ⟨entries, rfl, isSaid⟩ := isReader.1 isRead
    exact ⟨entries, rfl, (follows wellFormed.member).1 ⟨result, isSaid⟩⟩
  · rintro ⟨entries, rfl, followed⟩
    obtain ⟨result, isSaid⟩ := (follows wellFormed.member).2 followed
    exact ⟨result, isReader.2 ⟨entries, rfl, isSaid⟩⟩

/-- Locators are accepted. -/
theorem accepts_locator : Accepts locator Node.IsLocator := by
  intro node wellFormed
  have detailed : Accepts (Json.Reader.record "Locator" ["offset"] locatorField buildLocator)
      (Node.IsObjectWith [ExactlyOne "offset" Node.IsVector]) := by
    refine accepts_of_rules detailed_eq_ok fun {entries} wellFormed => ?_
    simp only [List.forall_mem_cons, List.not_mem_nil, IsEmpty.forall_iff, implies_true, and_true,
      accepts_vector.exactlyOne wellFormed]
    constructor
    · rintro ⟨locator, offset, extra, -, said⟩
      exact ⟨said.once _ (by decide), offset, said.offset⟩
    · rintro ⟨once, offset, isOffset⟩
      obtain ⟨extra, isExtra⟩ := exists_kept? Locator.fieldNames wellFormed
      refine ⟨_, offset, extra, rfl, ?_, isOffset, isExtra⟩
      exact List.forall_mem_singleton.2 once
  rw [Node.IsLocator, ← accepts_vector node wellFormed, ← detailed node wellFormed]
  simp only [locator_eq_ok, ← detailed_eq_ok, and_iff_right (show node.value?.isSome = true from wellFormed)]
  constructor
  · rintro ⟨locator, ⟨position, isRead, -⟩ | isRead⟩
    · exact .inl ⟨position, isRead⟩
    · exact .inr ⟨locator, isRead⟩
  · rintro (⟨position, isRead⟩ | ⟨locator, isRead⟩)
    · exact ⟨.point position, .inl ⟨position, isRead, rfl⟩⟩
    · exact ⟨locator, .inr isRead⟩

/-- Locators of a bone are accepted. -/
theorem accepts_locators : Accepts locators (Node.IsMapOf Node.IsLocator) := by
  intro node wellFormed
  constructor
  · rintro ⟨result, areRead⟩
    obtain ⟨entries, values, rfl, each, -⟩ := locators_eq_ok.1 areRead
    refine ⟨entries, rfl, fun name item member => ?_⟩
    obtain ⟨value, -, -, isRead⟩ := exists_of_mem_left each member
    exact (accepts_locator item (wellFormed.member name item member)).1 ⟨value.2, isRead⟩
  · rintro ⟨entries, rfl, shaped⟩
    have readable : ∀ entry ∈ entries, ∃ value : String × Locator Float,
        entry.1 = value.1 ∧ locator entry.2 = .ok value.2 := by
      intro entry member
      obtain ⟨value, isRead⟩ := (accepts_locator entry.2 (wellFormed.member _ _ member)).2
        (shaped _ _ member)
      exact ⟨(entry.1, value), rfl, isRead⟩
    obtain ⟨values, each⟩ := exists_forall₂ readable
    exact ⟨_, locators_eq_ok.2 ⟨entries, values, rfl, each, rfl⟩⟩

/-- Cubes are accepted. -/
theorem accepts_cube : Accepts cube Node.IsCube := by
  refine accepts_of_rules cube_eq_ok fun {entries} wellFormed => ?_
  simp only [List.forall_mem_cons, List.not_mem_nil, IsEmpty.forall_iff, implies_true, and_true,
    accepts_vector.exactlyOne wellFormed, accepts_vector.optional.atMostOne wellFormed none]
  constructor
  · rintro ⟨cube, said⟩
    exact ⟨⟨said.once _ (by decide), _, said.origin⟩, ⟨said.once _ (by decide), _, said.size⟩,
      ⟨said.once _ (by decide), _, said.rotation⟩, said.once _ (by decide), _, said.pivot⟩
  · rintro ⟨⟨origin, _, isOrigin⟩, ⟨size, _, isSize⟩, ⟨rotation, _, isRotation⟩, pivot, _, isPivot⟩
    obtain ⟨extra, isExtra⟩ := exists_kept? Cube.fieldNames wellFormed
    refine ⟨⟨_, _, _, _, extra⟩, ?_, isOrigin, isSize, isRotation, isPivot, isExtra⟩
    simp [Cube.fieldNames, origin, size, rotation, pivot]

/-- Bones are accepted. -/
theorem accepts_bone : Accepts bone Node.IsBone := by
  refine accepts_of_rules bone_eq_ok fun {entries} wellFormed => ?_
  simp only [List.forall_mem_cons, List.not_mem_nil, IsEmpty.forall_iff, implies_true, and_true,
    string.exactlyOne wellFormed, string.optional.atMostOne wellFormed none,
    accepts_vector.atMostOne wellFormed Vec3.zero,
    accepts_locators.optional.atMostOne wellFormed none,
    accepts_cube.list.optional.atMostOne wellFormed none]
  constructor
  · rintro ⟨bone, said⟩
    exact ⟨⟨said.once _ (by decide), _, said.name⟩, ⟨said.once _ (by decide), _, said.parent⟩,
      ⟨said.once _ (by decide), _, said.pivot⟩, ⟨said.once _ (by decide), _, said.locators⟩,
      said.once _ (by decide), _, said.cubes⟩
  · rintro ⟨⟨name, _, isName⟩, ⟨parent, _, isParent⟩, ⟨pivot, _, isPivot⟩,
      ⟨locators, _, areLocators⟩, cubes, _, areCubes⟩
    obtain ⟨extra, isExtra⟩ := exists_kept? Bone.fieldNames wellFormed
    refine ⟨⟨_, _, _, _, _, extra⟩, ?_, isName, isParent, isPivot, areLocators, areCubes, isExtra⟩
    simp [Bone.fieldNames, name, parent, pivot, locators, cubes]

/-- Descriptions are accepted. -/
theorem accepts_description : Accepts description Node.IsDescription := by
  refine accepts_of_rules description_eq_ok fun {entries} wellFormed => ?_
  simp only [List.forall_mem_cons, List.not_mem_nil, IsEmpty.forall_iff, implies_true, and_true,
    string.exactlyOne wellFormed]
  constructor
  · rintro ⟨description, said⟩
    exact ⟨said.once _ (by decide), _, said.identifier⟩
  · rintro ⟨identifier, _, isIdentifier⟩
    obtain ⟨extra, isExtra⟩ := exists_kept? Description.fieldNames wellFormed
    exact ⟨⟨_, extra⟩, List.forall_mem_singleton.2 identifier, isIdentifier, isExtra⟩

/-- Geometries are accepted. -/
theorem accepts_geometry : Accepts geometry Node.IsGeometry := by
  refine accepts_of_rules geometry_eq_ok fun {entries} wellFormed => ?_
  simp only [List.forall_mem_cons, List.not_mem_nil, IsEmpty.forall_iff, implies_true, and_true,
    accepts_description.exactlyOne wellFormed, accepts_bone.list.exactlyOne wellFormed]
  constructor
  · rintro ⟨geometry, said⟩
    exact ⟨⟨said.once _ (by decide), _, said.description⟩, said.once _ (by decide), _, said.bones⟩
  · rintro ⟨⟨description, _, isDescription⟩, bones, _, areBones⟩
    obtain ⟨extra, isExtra⟩ := exists_kept? Geometry.fieldNames wellFormed
    refine ⟨⟨_, _, extra⟩, ?_, isDescription, areBones, isExtra⟩
    simp [Geometry.fieldNames, description, bones]

/-- Models are accepted. -/
theorem accepts_model : Accepts model Node.IsModel := by
  refine accepts_of_rules model_eq_ok fun {entries} wellFormed => ?_
  simp only [List.forall_mem_cons, List.not_mem_nil, IsEmpty.forall_iff, implies_true, and_true,
    string.atMostOne wellFormed "", accepts_geometry.list.exactlyOne wellFormed]
  constructor
  · rintro ⟨model, said⟩
    exact ⟨⟨said.once _ (by decide), _, said.formatVersion⟩, said.once _ (by decide), _, said.geometries⟩
  · rintro ⟨⟨version, _, isVersion⟩, geometries, _, areGeometries⟩
    obtain ⟨extra, isExtra⟩ := exists_kept? Model.fieldNames wellFormed
    refine ⟨⟨_, _, extra⟩, ?_, isVersion, areGeometries, isExtra⟩
    simp [Model.fieldNames, version, geometries]

end Model.Reader

end PhysicsPrefab
