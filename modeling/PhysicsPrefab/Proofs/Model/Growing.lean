import PhysicsPrefab.Proofs.Json.Growing
import PhysicsPrefab.Proofs.Model.Fields

/-!
# What is added to a model

A member of a new name that is put into one of the objects of a model is kept there and changes
nothing else: the model is read as the former one with one more entry in that place
(`Model.Reader.model_grows`).
-/

namespace PhysicsPrefab

open Answer
open Json (Node Place Value)
open Json.Members (count_changed count_insert kept?_changed kept?_insert read?_changed read?_here
  read?_insert)
open Json.Reader (list of_optional optional optional_eq_ok)

section

variable (name : String) (value : Value)

/-- What is kept with one more entry, if its name is new and not that of a field. -/
def NameMap.keep (typed : List String) (extra : NameMap Value) : Option (NameMap Value) :=
  if name ∈ typed ∨ name ∈ extra.names then none else some (extra.insert name value)

/-- A list with the item of an index grown, if there is one and it can grow. -/
def growItem {α : Type} (index : Nat) (grow : α → Option α) (items : List α) : Option (List α) := do
  let item ← items[index]?
  let grown ← grow item
  return items.set index grown

/-- A locator with one more entry at the end of a path. -/
def Locator.keepAt : List Place → Locator Float → Option (Locator Float)
  | [], .detailed offset extra => (extra.keep name value fieldNames).map (.detailed offset)
  | _, _ => none

/-- A cube with one more entry at the end of a path. -/
def Cube.keepAt : List Place → Cube Float → Option (Cube Float)
  | [], cube => (cube.extra.keep name value fieldNames).map fun extra => { cube with extra }
  | _, _ => none

/-- A bone with one more entry at the end of a path. -/
def Bone.keepAt : List Place → Bone Float → Option (Bone Float)
  | [], bone => (bone.extra.keep name value fieldNames).map fun extra => { bone with extra }
  | .member "locators" :: .member place :: path, bone => do
    let locators ← bone.locators
    let locator ← locators.find? place
    let grown ← locator.keepAt name value path
    return { bone with locators := some (locators.insert place grown) }
  | .member "cubes" :: .item index :: path, bone => do
    let cubes ← bone.cubes
    let grown ← growItem index (Cube.keepAt name value path) cubes
    return { bone with cubes := some grown }
  | _, _ => none

/-- A description with one more entry at the end of a path. -/
def Description.keepAt : List Place → Description → Option Description
  | [], description => (description.extra.keep name value fieldNames).map
    fun extra => { description with extra }
  | _, _ => none

/-- A geometry with one more entry at the end of a path. -/
def Geometry.keepAt : List Place → Geometry Float → Option (Geometry Float)
  | [], geometry => (geometry.extra.keep name value fieldNames).map
    fun extra => { geometry with extra }
  | .member "description" :: path, geometry => do
    let grown ← geometry.description.keepAt name value path
    return { geometry with description := grown }
  | .member "bones" :: .item index :: path, geometry => do
    let grown ← growItem index (Bone.keepAt name value path) geometry.bones
    return { geometry with bones := grown }
  | _, _ => none

/-- A model with one more entry at the end of a path. -/
def Model.keepAt : List Place → Model Float → Option (Model Float)
  | [], model => (model.extra.keep name value fieldNames).map fun extra => { model with extra }
  | .member "minecraft:geometry" :: .item index :: path, model => do
    let grown ← growItem index (Geometry.keepAt name value path) model.geometries
    return { model with geometries := grown }
  | _, _ => none

end

namespace Model.Reader

section

variable {name : String} {item : Node} {value : Value}

/-- Whether what has grown at the end of a path is read as what is kept there. -/
def FollowsGrowth {α : Type} (entry : String × Node) (reader : Json.Reader α)
    (keepAt : List Place → α → Option α) : Prop :=
  ∀ {node other path result grown}, node.HasDistinctNames → node.Grows entry path other →
    reader node = .ok result → keepAt path result = some grown → reader other = .ok grown

/-- A list with a grown item is read as the list with the item grown. -/
theorem list_grows {α : Type} {entry : String × Node} {reader : Json.Reader α}
    {keepAt : List Place → α → Option α} (follows : FollowsGrowth entry reader keepAt)
    {node other : Node} {index : Nat} {path : List Place} {values grown : List α}
    (distinct : node.HasDistinctNames) (grows : node.Grows entry (.item index :: path) other)
    (areRead : Json.Reader.list reader node = .ok values)
    (isKept : growItem index (keepAt path) values = some grown) :
    Json.Reader.list reader other = .ok grown := by
  obtain ⟨items, rfl, each⟩ := Json.Reader.list_eq_ok.1 areRead
  cases grows with
  | item before after closed grows =>
    obtain ⟨first, result, second, rfl, firstEach, isRead, secondEach⟩ := forall₂_middle each
    obtain ⟨held, isHeld, isKept⟩ := Option.bind_eq_some_iff.1 isKept
    obtain ⟨changed, isChanged, same⟩ := Option.bind_eq_some_iff.1 isKept
    cases same
    rw [firstEach.length_eq] at isHeld ⊢
    rw [List.getElem?_append_right (Nat.le_refl _), Nat.sub_self, List.getElem?_cons_zero] at isHeld
    cases isHeld
    rw [List.set_append_right _ _ (Nat.le_refl _), Nat.sub_self, List.set_cons_zero]
    exact Json.Reader.list_eq_ok.2 ⟨_, rfl,
      List.rel_append firstEach (.cons (follows distinct.item grows isRead isChanged) secondEach)⟩

/-- What is kept of a new member is kept with the rest. -/
theorem kept?_grows {typed : List String} {before after : List (String × Node)}
    {extra grown : NameMap Value} (isValue : item.value? = some value)
    (distinct : (Node.object (before ++ after) true).HasDistinctNames)
    (areKept : Json.Members.kept? typed (before ++ after) = some extra)
    (isKept : extra.keep name value typed = some grown) :
    (∀ other ∈ typed, name ≠ other) ∧
      Json.Members.kept? typed (before ++ (name, item) :: after) = some grown := by
  rw [NameMap.keep] at isKept
  split at isKept
  · cases isKept
  · rename_i free
    rw [not_or] at free
    cases isKept
    obtain ⟨names, -⟩ := Node.hasDistinctNames_object.1 distinct
    exact ⟨fun other typed same => free.1 (same ▸ typed),
      kept?_insert names areKept free.1 free.2 isValue⟩

/-- What may be `null` is read as what has grown. -/
theorem optional_grows {α : Type} {entry : String × Node} {reader : Json.Reader α}
    {path : List Place} {node other : Node} (grows : node.Grows entry path other) {value : α}
    (isRead : reader other = .ok value) : optional reader other = .ok (some value) := by
  refine optional_eq_ok.2 (.inr ⟨?_, value, isRead, rfl⟩)
  rintro rfl
  cases grows

/-- A locator is read with what it keeps. -/
theorem locator_grows (isValue : item.value? = some value) :
    FollowsGrowth (name, item) locator (Locator.keepAt name value) := by
  intro node other path result grown distinct grows isRead isKept
  obtain ⟨isThere, isRead⟩ := locator_eq_ok.1 isRead
  cases path with
  | cons => cases result <;> cases isKept
  | nil =>
    cases grows with
    | here before after =>
      rcases isRead with ⟨position, isRead, -⟩ | ⟨entries, same, offset, extra, rfl, said⟩
      · exact absurd isRead vector_ne_object
      · cases same
        obtain ⟨grown, isGrown, rfl⟩ := Option.map_eq_some_iff.1 isKept
        obtain ⟨apart, areKept⟩ := kept?_grows isValue distinct said.extra isGrown
        have stillThere : (Node.object (before ++ (name, item) :: after) true).value?.isSome = true :=
          Json.Members.isSome_value?_insert isThere isValue
        exact locator_eq_ok.2 ⟨stillThere, .inr ⟨_, rfl, offset, grown, rfl, {
          once := fun other typed => (count_insert (apart other typed)).trans_le (said.once other typed)
          offset := (read?_insert (apart _ (by decide))).trans said.offset
          extra := areKept }⟩⟩

/-- A cube is read with what it keeps. -/
theorem cube_grows (isValue : item.value? = some value) :
    FollowsGrowth (name, item) cube (Cube.keepAt name value) := by
  intro node other path result grown distinct grows isRead isKept
  obtain ⟨entries, rfl, said⟩ := cube_eq_ok.1 isRead
  cases path with
  | cons => cases isKept
  | nil =>
    cases grows with
    | here before after =>
      obtain ⟨grown, isGrown, rfl⟩ := Option.map_eq_some_iff.1 isKept
      obtain ⟨apart, areKept⟩ := kept?_grows isValue distinct said.extra isGrown
      exact cube_eq_ok.2 ⟨_, rfl, {
        once := fun other typed => (count_insert (apart other typed)).trans_le (said.once other typed)
        origin := (read?_insert (apart _ (by decide))).trans said.origin
        size := (read?_insert (apart _ (by decide))).trans said.size
        rotation := (read?_insert (apart _ (by decide))).trans said.rotation
        pivot := (read?_insert (apart _ (by decide))).trans said.pivot
        extra := areKept }⟩

/-- The locators of a bone are read with what one of them keeps. -/
theorem locators_grow (isValue : item.value? = some value) {node other : Node} {place : String}
    {path : List Place} {held : NameMap (Locator Float)} {former grown : Locator Float}
    (distinct : node.HasDistinctNames) (grows : node.Grows (name, item) (.member place :: path) other)
    (areRead : locators node = .ok held) (isThere : held.find? place = some former)
    (isKept : former.keepAt name value path = some grown) :
    locators other = .ok (held.insert place grown) := by
  obtain ⟨entries, values, rfl, each, rfl⟩ := locators_eq_ok.1 areRead
  obtain ⟨names, -⟩ := Node.hasDistinctNames_object.1 distinct
  rw [Json.Members.names_of_forall₂ each And.left] at names
  cases grows with
  | member before _ after closed grows =>
    obtain ⟨first, ⟨_, result⟩, second, rfl, firstEach, ⟨rfl, isRead⟩, secondEach⟩ :=
      forall₂_middle each
    rw [NameMap.ofList_middle names, NameMap.find?_insert_self] at isThere
    cases isThere
    refine locators_eq_ok.2 ⟨_, first ++ (place, grown) :: second, rfl, ?_, ?_⟩
    · exact List.rel_append firstEach
        (.cons ⟨rfl, locator_grows isValue distinct.member grows isRead isKept⟩ secondEach)
    · rw [NameMap.ofList_middle names, NameMap.insert_insert]
      exact NameMap.ofList_middle (by simpa using names)

/-- A bone is read with what it and its parts keep. -/
theorem bone_grows (isValue : item.value? = some value) :
    FollowsGrowth (name, item) bone (Bone.keepAt name value) := by
  intro node other path result grown distinct grows isRead isKept
  obtain ⟨entries, rfl, said⟩ := bone_eq_ok.1 isRead
  unfold Bone.keepAt at isKept
  split at isKept
  case h_1 =>
    cases grows with
    | here before after =>
      obtain ⟨grown, isGrown, rfl⟩ := Option.map_eq_some_iff.1 isKept
      obtain ⟨apart, areKept⟩ := kept?_grows isValue distinct said.extra isGrown
      exact bone_eq_ok.2 ⟨_, rfl, {
        once := fun other typed => (count_insert (apart other typed)).trans_le (said.once other typed)
        name := (read?_insert (apart _ (by decide))).trans said.name
        parent := (read?_insert (apart _ (by decide))).trans said.parent
        pivot := (read?_insert (apart _ (by decide))).trans said.pivot
        locators := (read?_insert (apart _ (by decide))).trans said.locators
        cubes := (read?_insert (apart _ (by decide))).trans said.cubes
        extra := areKept }⟩
  case h_2 place path =>
    obtain ⟨locators, areLocators, isKept⟩ := Option.bind_eq_some_iff.1 isKept
    obtain ⟨locator, isLocator, isKept⟩ := Option.bind_eq_some_iff.1 isKept
    obtain ⟨changed, isChanged, same⟩ := Option.bind_eq_some_iff.1 isKept
    cases same
    cases grows with
    | @member _ inner outer before _ after closed grows =>
      have once := said.once "locators" (by decide)
      have areRead := of_optional ((read?_here once).1 (said.locators.trans (congrArg some areLocators)))
      have areGrown := locators_grow isValue distinct.member grows areRead isLocator isChanged
      exact bone_eq_ok.2 ⟨_, rfl, {
        once := fun other typed => (count_changed other inner outer).trans_le (said.once other typed)
        name := (read?_changed (by decide) inner outer).trans said.name
        parent := (read?_changed (by decide) inner outer).trans said.parent
        pivot := (read?_changed (by decide) inner outer).trans said.pivot
        locators := (read?_here (count_changed _ inner outer ▸ once)).2 (optional_grows grows areGrown)
        cubes := (read?_changed (by decide) inner outer).trans said.cubes
        extra := (kept?_changed (by decide) inner outer).trans said.extra }⟩
  case h_3 index path =>
    obtain ⟨cubes, areCubes, isKept⟩ := Option.bind_eq_some_iff.1 isKept
    obtain ⟨changed, areChanged, same⟩ := Option.bind_eq_some_iff.1 isKept
    cases same
    cases grows with
    | @member _ inner outer before _ after closed grows =>
      have once := said.once "cubes" (by decide)
      have areRead := of_optional ((read?_here once).1 (said.cubes.trans (congrArg some areCubes)))
      have areGrown := list_grows (cube_grows isValue) distinct.member grows areRead areChanged
      exact bone_eq_ok.2 ⟨_, rfl, {
        once := fun other typed => (count_changed other inner outer).trans_le (said.once other typed)
        name := (read?_changed (by decide) inner outer).trans said.name
        parent := (read?_changed (by decide) inner outer).trans said.parent
        pivot := (read?_changed (by decide) inner outer).trans said.pivot
        locators := (read?_changed (by decide) inner outer).trans said.locators
        cubes := (read?_here (count_changed _ inner outer ▸ once)).2 (optional_grows grows areGrown)
        extra := (kept?_changed (by decide) inner outer).trans said.extra }⟩
  case h_4 => cases isKept

/-- A description is read with what it keeps. -/
theorem description_grows (isValue : item.value? = some value) :
    FollowsGrowth (name, item) description (Description.keepAt name value) := by
  intro node other path result grown distinct grows isRead isKept
  obtain ⟨entries, rfl, said⟩ := description_eq_ok.1 isRead
  cases path with
  | cons => cases isKept
  | nil =>
    cases grows with
    | here before after =>
      obtain ⟨grown, isGrown, rfl⟩ := Option.map_eq_some_iff.1 isKept
      obtain ⟨apart, areKept⟩ := kept?_grows isValue distinct said.extra isGrown
      exact description_eq_ok.2 ⟨_, rfl, {
        once := fun other typed => (count_insert (apart other typed)).trans_le (said.once other typed)
        identifier := (read?_insert (apart _ (by decide))).trans said.identifier
        extra := areKept }⟩

/-- A geometry is read with what it and its parts keep. -/
theorem geometry_grows (isValue : item.value? = some value) :
    FollowsGrowth (name, item) geometry (Geometry.keepAt name value) := by
  intro node other path result grown distinct grows isRead isKept
  obtain ⟨entries, rfl, said⟩ := geometry_eq_ok.1 isRead
  unfold Geometry.keepAt at isKept
  split at isKept
  case h_1 =>
    cases grows with
    | here before after =>
      obtain ⟨grown, isGrown, rfl⟩ := Option.map_eq_some_iff.1 isKept
      obtain ⟨apart, areKept⟩ := kept?_grows isValue distinct said.extra isGrown
      exact geometry_eq_ok.2 ⟨_, rfl, {
        once := fun other typed => (count_insert (apart other typed)).trans_le (said.once other typed)
        description := (read?_insert (apart _ (by decide))).trans said.description
        bones := (read?_insert (apart _ (by decide))).trans said.bones
        extra := areKept }⟩
  case h_2 path =>
    obtain ⟨changed, isChanged, same⟩ := Option.bind_eq_some_iff.1 isKept
    cases same
    cases grows with
    | @member _ inner outer before _ after closed grows =>
      have once := said.once "description" (by decide)
      have isGrown := description_grows isValue distinct.member grows
        ((read?_here once).1 said.description) isChanged
      exact geometry_eq_ok.2 ⟨_, rfl, {
        once := fun other typed => (count_changed other inner outer).trans_le (said.once other typed)
        description := (read?_here (count_changed _ inner outer ▸ once)).2 isGrown
        bones := (read?_changed (by decide) inner outer).trans said.bones
        extra := (kept?_changed (by decide) inner outer).trans said.extra }⟩
  case h_3 index path =>
    obtain ⟨changed, areChanged, same⟩ := Option.bind_eq_some_iff.1 isKept
    cases same
    cases grows with
    | @member _ inner outer before _ after closed grows =>
      have once := said.once "bones" (by decide)
      have areGrown := list_grows (bone_grows isValue) distinct.member grows
        ((read?_here once).1 said.bones) areChanged
      exact geometry_eq_ok.2 ⟨_, rfl, {
        once := fun other typed => (count_changed other inner outer).trans_le (said.once other typed)
        description := (read?_changed (by decide) inner outer).trans said.description
        bones := (read?_here (count_changed _ inner outer ▸ once)).2 areGrown
        extra := (kept?_changed (by decide) inner outer).trans said.extra }⟩
  case h_4 => cases isKept

/-- A model is read with what it and its parts keep. -/
theorem model_grows (isValue : item.value? = some value) :
    FollowsGrowth (name, item) model (Model.keepAt name value) := by
  intro node other path result grown distinct grows isRead isKept
  obtain ⟨entries, rfl, said⟩ := model_eq_ok.1 isRead
  unfold Model.keepAt at isKept
  split at isKept
  case h_1 =>
    cases grows with
    | here before after =>
      obtain ⟨grown, isGrown, rfl⟩ := Option.map_eq_some_iff.1 isKept
      obtain ⟨apart, areKept⟩ := kept?_grows isValue distinct said.extra isGrown
      exact model_eq_ok.2 ⟨_, rfl, {
        once := fun other typed => (count_insert (apart other typed)).trans_le (said.once other typed)
        formatVersion := (read?_insert (apart _ (by decide))).trans said.formatVersion
        geometries := (read?_insert (apart _ (by decide))).trans said.geometries
        extra := areKept }⟩
  case h_2 index path =>
    obtain ⟨changed, areChanged, same⟩ := Option.bind_eq_some_iff.1 isKept
    cases same
    cases grows with
    | @member _ inner outer before _ after closed grows =>
      have once := said.once "minecraft:geometry" (by decide)
      have areGrown := list_grows (geometry_grows isValue) distinct.member grows
        ((read?_here once).1 said.geometries) areChanged
      exact model_eq_ok.2 ⟨_, rfl, {
        once := fun other typed => (count_changed other inner outer).trans_le (said.once other typed)
        formatVersion := (read?_changed (by decide) inner outer).trans said.formatVersion
        geometries := (read?_here (count_changed _ inner outer ▸ once)).2 areGrown
        extra := (kept?_changed (by decide) inner outer).trans said.extra }⟩
  case h_3 => cases isKept

end

end Model.Reader

end PhysicsPrefab
