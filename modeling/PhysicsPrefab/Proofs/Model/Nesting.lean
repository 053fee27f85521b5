import PhysicsPrefab.Proofs.Json.Depth
import PhysicsPrefab.Proofs.Model.Fields
import PhysicsPrefab.Proofs.Prefab.Assembly

/-!
# What cubes keep

A cube keeps what it does not understand, so that it can be written again. What it keeps has other
names than its own fields and is no deeper than the cube was (`Model.Reader.fitsIn_of_cube`). This
holds for all cubes of a model that was read from a text (`Model.cubesFitIn_of_parse`) and still for
the bodies that are made of them.
-/

namespace PhysicsPrefab

open Answer
open Json (Document Node Reader Value)
open Json.Members (exists_of_kept? mem_of_held? read? read?_eq_some)

/-- Whether what a cube keeps can be written in it without going deeper than a limit. -/
structure Cube.FitsIn {α : Type} (limit : Nat) (cube : Cube α) : Prop where
  /-- What is kept has other names than the fields. -/
  names : ∀ entry ∈ cube.extra.entries, entry.1 ∉ fieldNames
  /-- What is kept is less deep than the limit. -/
  depth : ∀ entry ∈ cube.extra.entries, entry.2.depth < limit

/-- What fits in a limit fits in a larger one. -/
theorem Cube.FitsIn.mono {limit larger : Nat} {cube : Cube Float} (fits : cube.FitsIn limit)
    (atMost : limit ≤ larger) : cube.FitsIn larger :=
  ⟨fits.names, fun entry member => (fits.depth entry member).trans_le atMost⟩

/-- Whether all cubes of a geometry fit in a limit. -/
def Geometry.CubesFitIn (limit : Nat) (geometry : Geometry Float) : Prop :=
  ∀ bone ∈ geometry.bones, ∀ cube ∈ bone.cubes.getD [], cube.FitsIn limit

/-- A cube that is moved keeps the same. -/
theorem Cube.FitsIn.relativeTo {limit : Nat} {cube : Cube Float} (fits : cube.FitsIn limit)
    (pivot : Vec3 Float) : (cube.relativeTo pivot).FitsIn limit := ⟨fits.names, fits.depth⟩

/-- The cubes of a body are as those of its bone. -/
theorem Prefab.SoundFor.fitsIn {prefab : Prefab} {geometry : Geometry Float} {limit : Nat}
    (sound : prefab.SoundFor geometry) (fit : geometry.CubesFitIn limit) :
    ∀ body ∈ prefab.bodies, ∀ cube ∈ body.cubes, cube.FitsIn limit := by
  intro body isBody cube isCube
  obtain ⟨bone, isBone, stands⟩ := sound.bones body isBody
  rw [stands.cubes] at isCube
  obtain ⟨origin, isOrigin, rfl⟩ := List.mem_map.1 isCube
  exact (fit bone isBone origin isOrigin).relativeTo bone.pivot

namespace Model.Reader

/-- What an item of a list was read from is less deep than the list. -/
theorem exists_item {α : Type} {reader : Reader α} {node : Node} {values : List α} {value : α}
    (isRead : Json.Reader.list reader node = .ok values) (member : value ∈ values) :
    ∃ item, item.depth < node.depth ∧ reader item = .ok value := by
  obtain ⟨items, rfl, each⟩ := Json.Reader.list_eq_ok.1 isRead
  obtain ⟨item, isItem, itemRead⟩ := exists_of_mem_right each member
  exact ⟨item, Node.depth_lt_of_mem_array isItem, itemRead⟩

/-- What a name was read from is less deep than the object. -/
theorem exists_part {α : Type} {reader : Reader α} {missing : Option α} {name : String}
    {entries : List (String × Node)} {value : α}
    (isRead : read? reader missing name entries = some value) (given : missing ≠ some value) :
    ∃ part, part.depth < (Node.object entries true).depth ∧ reader part = .ok value := by
  rcases read?_eq_some.1 isRead with ⟨-, isMissing⟩ | ⟨part, isHeld, isRead⟩
  · exact absurd isMissing given
  · exact ⟨part, Node.depth_lt_of_mem_object (mem_of_held? isHeld), isRead⟩

/-- What a cube keeps is less deep than the cube. -/
theorem fitsIn_of_cube {node : Node} {result : Cube Float} (isRead : cube node = .ok result) :
    result.FitsIn node.depth := by
  obtain ⟨entries, rfl, said⟩ := cube_eq_ok.1 isRead
  refine ⟨fun entry member => (exists_of_kept? said.extra member).1, fun entry member => ?_⟩
  obtain ⟨-, part, isMember, isValue⟩ := exists_of_kept? said.extra member
  exact (Node.depth_value? isValue).trans_lt (Node.depth_lt_of_mem_object isMember)

/-- The cubes of a bone are read two levels below it. -/
theorem fitsIn_of_bone {node : Node} {result : Bone Float} (isRead : bone node = .ok result)
    {limit : Nat} (shallow : node.depth ≤ limit + 2) :
    ∀ cube ∈ result.cubes.getD [], cube.FitsIn limit := by
  obtain ⟨entries, rfl, said⟩ := bone_eq_ok.1 isRead
  intro cube isCube
  cases given : result.cubes with
  | none =>
    rw [given] at isCube
    cases isCube
  | some cubes =>
    rw [given] at isCube
    obtain ⟨part, partShallow, partRead⟩ := exists_part (said.cubes.trans (congrArg some given)) (by simp)
    obtain ⟨item, itemShallow, itemRead⟩ := exists_item (Json.Reader.of_optional partRead) isCube
    exact (fitsIn_of_cube itemRead).mono (by omega)

/-- The bones of a geometry are read two levels below it. -/
theorem cubesFitIn_of_geometry {node : Node} {result : Geometry Float}
    (isRead : geometry node = .ok result) {limit : Nat} (shallow : node.depth ≤ limit + 4) :
    result.CubesFitIn limit := by
  obtain ⟨entries, rfl, said⟩ := geometry_eq_ok.1 isRead
  intro bone isBone
  obtain ⟨part, partShallow, partRead⟩ := exists_part said.bones nofun
  obtain ⟨item, itemShallow, itemRead⟩ := exists_item partRead isBone
  exact fitsIn_of_bone itemRead (by omega)

/-- The geometries of a model are read two levels below it. -/
theorem cubesFitIn_of_model {node : Node} {result : Model Float} (isRead : model node = .ok result)
    {limit : Nat} (shallow : node.depth ≤ limit + 6) :
    ∀ geometry ∈ result.geometries, geometry.CubesFitIn limit := by
  obtain ⟨entries, rfl, said⟩ := model_eq_ok.1 isRead
  intro geometry isGeometry
  obtain ⟨part, partShallow, partRead⟩ := exists_part said.geometries nofun
  obtain ⟨item, itemShallow, itemRead⟩ := exists_item partRead isGeometry
  exact cubesFitIn_of_geometry itemRead (by omega)

end Model.Reader

/-- How deep a cube of a model may be: six arrays and objects are open around it. -/
def Cube.depthLimit : Nat := Json.Build.depthLimit - 6

/-- The cubes of a model that was read from a text can be written again in their place. -/
theorem Model.cubesFitIn_of_parse {text : String} {model : Model Float}
    (parsed : Model.parse text = .ok model) :
    ∀ geometry ∈ model.geometries, geometry.CubesFitIn Cube.depthLimit :=
  Reader.cubesFitIn_of_model (Model.read_of_parse parsed) (Document.depth_ofText text)

end PhysicsPrefab
