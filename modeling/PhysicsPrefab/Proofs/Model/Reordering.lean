import PhysicsPrefab.Proofs.Json.Reordering
import PhysicsPrefab.Proofs.Model.Fields

/-!
# Models and the order of members

A model is read the same whatever the order of the members of its objects, as long as no object has
two members of one name (`Model.Reader.model_ignoresOrder`). The argument goes up from vectors: what
an object says depends on the names of its members alone.
-/

namespace PhysicsPrefab.Model.Reader

open Json (Node)
open Json.Reader.IgnoresOrder (of_members string)

/-- A vector has no members. -/
theorem vector_ignoresOrder : Json.Reader.IgnoresOrder vector := by
  intro node other result _ step isRead
  obtain ⟨x, y, z, rfl, -⟩ := vector_eq_ok.1 isRead
  generalize isNode : Node.array [.number x, .number y, .number z] true = node at step
  cases step with
  | members | member => cases isNode
  | @item inner outer before after closed step =>
    have isItem : inner ∈ [Node.number x, .number y, .number z] := by
      rw [(Node.array.inj isNode).1]
      exact List.mem_append_right _ List.mem_cons_self
    simp only [List.mem_cons, List.not_mem_nil, or_false] at isItem
    rcases isItem with rfl | rfl | rfl <;> cases step

/-- A locator is read the same in any order. -/
theorem locator_ignoresOrder : Json.Reader.IgnoresOrder locator := by
  have detailed : Json.Reader.IgnoresOrder
      (Json.Reader.record "Locator" ["offset"] locatorField buildLocator) := by
    refine of_members detailed_eq_ok fun distinct step => ?_
    rintro ⟨offset, extra, rfl, said⟩
    refine ⟨offset, extra, rfl, ?_, ?_, step.kept? distinct said.extra⟩
    · exact fun name typed => step.count_eq name ▸ said.once name typed
    · exact step.read? vector_ignoresOrder distinct said.offset
  intro node other result distinct step isRead
  simp only [locator_eq_ok, ← detailed_eq_ok] at isRead ⊢
  obtain ⟨isThere, isRead⟩ := isRead
  obtain ⟨value, isValue⟩ := Option.isSome_iff_exists.1 isThere
  refine ⟨Option.isSome_iff_exists.2 ⟨value, step.value? distinct isValue⟩, ?_⟩
  rcases isRead with ⟨position, isRead, rfl⟩ | isRead
  · exact .inl ⟨position, vector_ignoresOrder node other position distinct step isRead, rfl⟩
  · exact .inr (detailed node other result distinct step isRead)

/-- The locators of a bone are read the same in any order. -/
theorem locators_ignoresOrder : Json.Reader.IgnoresOrder locators := by
  intro node other result distinct step isRead
  obtain ⟨entries, values, rfl, each, rfl⟩ := locators_eq_ok.1 isRead
  obtain ⟨others, rfl, moved⟩ := step.object
  obtain ⟨names, inMembers⟩ := Node.hasDistinctNames_object.1 distinct
  obtain ⟨permuted, othersEach, same⟩ := moved.exists_ofList_eq
    (fun node value => locator node = .ok value) names (fun member reordered =>
     locator_ignoresOrder _ _ _ (inMembers _ _ member) reordered) each
  exact locators_eq_ok.2 ⟨others, permuted, rfl, othersEach, same⟩

/-- A cube is read the same in any order. -/
theorem cube_ignoresOrder : Json.Reader.IgnoresOrder cube :=
  of_members cube_eq_ok fun distinct step said => {
    once := fun name typed => step.count_eq name ▸ said.once name typed
    origin := step.read? vector_ignoresOrder distinct said.origin
    size := step.read? vector_ignoresOrder distinct said.size
    rotation := step.read? vector_ignoresOrder.optional distinct said.rotation
    pivot := step.read? vector_ignoresOrder.optional distinct said.pivot
    extra := step.kept? distinct said.extra }

/-- A bone is read the same in any order. -/
theorem bone_ignoresOrder : Json.Reader.IgnoresOrder bone :=
  of_members bone_eq_ok fun distinct step said => {
    once := fun name typed => step.count_eq name ▸ said.once name typed
    name := step.read? string distinct said.name
    parent := step.read? string.optional distinct said.parent
    pivot := step.read? vector_ignoresOrder distinct said.pivot
    locators := step.read? locators_ignoresOrder.optional distinct said.locators
    cubes := step.read? cube_ignoresOrder.list.optional distinct said.cubes
    extra := step.kept? distinct said.extra }

/-- A description is read the same in any order. -/
theorem description_ignoresOrder : Json.Reader.IgnoresOrder description :=
  of_members description_eq_ok fun distinct step said => {
    once := fun name typed => step.count_eq name ▸ said.once name typed
    identifier := step.read? string distinct said.identifier
    extra := step.kept? distinct said.extra }

/-- A geometry is read the same in any order. -/
theorem geometry_ignoresOrder : Json.Reader.IgnoresOrder geometry :=
  of_members geometry_eq_ok fun distinct step said => {
    once := fun name typed => step.count_eq name ▸ said.once name typed
    description := step.read? description_ignoresOrder distinct said.description
    bones := step.read? bone_ignoresOrder.list distinct said.bones
    extra := step.kept? distinct said.extra }

/-- A model is read the same in any order. -/
theorem model_ignoresOrder : Json.Reader.IgnoresOrder model :=
  of_members model_eq_ok fun distinct step said => {
    once := fun name typed => step.count_eq name ▸ said.once name typed
    formatVersion := step.read? string distinct said.formatVersion
    geometries := step.read? geometry_ignoresOrder.list distinct said.geometries
    extra := step.kept? distinct said.extra }

end PhysicsPrefab.Model.Reader
