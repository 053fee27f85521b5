import PhysicsPrefab.Proofs.Json.Replacing
import PhysicsPrefab.Proofs.Model.Rereading
import PhysicsPrefab.Proofs.Model.Restoring

/-!
# Models that are changed

The parts of a model that was read can be read by themselves, each within what is left of the limit.
A part can also be read after one of its fields was changed: a cube that was moved, a bone with other
cubes, a description with another identifier, a geometry with other bones. So what is written of a
model that was changed in this way is read as the changed model (`Model.parse_of_reads`).
-/

namespace PhysicsPrefab

open Answer
open Json (Node)
open Json.Members (count_replace_le fits_replace kept?_replace read?_replace_of_ne read?_replace_self
  replace)
open Json.Reader (Reads list reads_list reads_string)

namespace Model.Reader

variable {limit : Nat}

/-- The tree of a vector. -/
def tree (position : Vec3 Float) : Node :=
  .array [.number (.double position.x), .number (.double position.y),
    .number (.double position.z)] true

/-- The tree of a finite vector fits wherever an array does. -/
theorem tree_fits {position : Vec3 Float} (isFinite : position.IsFinite) :
    (tree position).Fits (limit + 1) := by
  refine ⟨Nat.le_add_left 1 limit, ?_⟩
  simp only [Node.IsProper, tree, Node.numbers, Node.itemsNumbers, List.append_nil,
    List.cons_append, List.nil_append, List.forall_mem_cons]
  exact ⟨isFinite.x, isFinite.y, isFinite.z, List.forall_mem_nil _⟩

/-- A cube with another corner can be read if the cube can. -/
theorem reads_cube_origin {cube : Cube Float} (reads : Reader.cube.Reads (limit + 2) cube)
    {origin : Vec3 Float} (isFinite : origin.IsFinite) :
    Reader.cube.Reads (limit + 2) { cube with origin := origin } := by
  obtain ⟨node, fits, isRead⟩ := reads
  obtain ⟨entries, rfl, said⟩ := cube_eq_ok.1 isRead
  refine ⟨_, fits_replace "origin" fits (tree_fits isFinite), cube_eq_ok.2 ⟨_, rfl, ?_⟩⟩
  exact {
    once := fun name isName => count_replace_le (said.once name isName)
    origin := read?_replace_self rfl
    size := (read?_replace_of_ne (by decide)).trans said.size
    rotation := (read?_replace_of_ne (by decide)).trans said.rotation
    pivot := (read?_replace_of_ne (by decide)).trans said.pivot
    extra := (kept?_replace (by decide)).trans said.extra }

/-- A cube with another centre of its rotation can be read if the cube can. -/
theorem reads_cube_pivot {cube : Cube Float} (reads : Reader.cube.Reads (limit + 2) cube)
    {pivot : Vec3 Float} (isFinite : pivot.IsFinite) :
    Reader.cube.Reads (limit + 2) { cube with pivot := some pivot } := by
  obtain ⟨node, fits, isRead⟩ := reads
  obtain ⟨entries, rfl, said⟩ := cube_eq_ok.1 isRead
  refine ⟨_, fits_replace "pivot" fits (tree_fits isFinite), cube_eq_ok.2 ⟨_, rfl, ?_⟩⟩
  exact {
    once := fun name isName => count_replace_le (said.once name isName)
    origin := (read?_replace_of_ne (by decide)).trans said.origin
    size := (read?_replace_of_ne (by decide)).trans said.size
    rotation := (read?_replace_of_ne (by decide)).trans said.rotation
    pivot := read?_replace_self rfl
    extra := (kept?_replace (by decide)).trans said.extra }

/-- A cube that was moved can be read if the cube can, and it is still finite. -/
theorem reads_cube_relativeTo {cube : Cube Float} (reads : Reader.cube.Reads (limit + 2) cube)
    {pivot : Vec3 Float} (isFinite : (cube.relativeTo pivot).IsFinite) :
    Reader.cube.Reads (limit + 2) (cube.relativeTo pivot) := by
  have moved := reads_cube_origin reads isFinite.origin
  cases given : cube.pivot with
  | none =>
    have same : cube.relativeTo pivot = { cube with origin := cube.origin - pivot } := by
      rw [Cube.relativeTo, given]
      rfl
    rw [same]
    exact moved
  | some centre =>
    have same : cube.relativeTo pivot =
        { cube with origin := cube.origin - pivot, pivot := some (centre - pivot) } := by
      rw [Cube.relativeTo, given]
      rfl
    have centreFinite : (centre - pivot).IsFinite :=
      isFinite.pivot _ (congrArg (Option.map (· - pivot)) given)
    rw [same]
    exact reads_cube_pivot moved centreFinite

/-- The cubes of a bone that can be read can be read. -/
theorem reads_cubes {bone : Bone Float} (reads : Reader.bone.Reads (limit + 2) bone) :
    ∀ cube ∈ bone.cubes.getD [], Reader.cube.Reads limit cube := by
  obtain ⟨node, fits, isRead⟩ := reads
  obtain ⟨entries, rfl, said⟩ := bone_eq_ok.1 isRead
  cases given : bone.cubes with
  | none => exact nofun
  | some cubes => exact reads_list.1 (.of_given fits (said.cubes.trans (congrArg some given)))

/-- A bone with other cubes can be read if the bone and the cubes can. -/
theorem reads_bone_cubes {bone : Bone Float} (reads : Reader.bone.Reads (limit + 2) bone)
    {cubes : List (Cube Float)} (each : ∀ cube ∈ cubes, Reader.cube.Reads limit cube) :
    Reader.bone.Reads (limit + 2) { bone with cubes := some cubes } := by
  obtain ⟨node, fits, isRead⟩ := reads
  obtain ⟨entries, rfl, said⟩ := bone_eq_ok.1 isRead
  obtain ⟨items, itemsFit, areRead⟩ := reads_list.2 each
  have areGiven : Json.Reader.optional (list Reader.cube) items = .ok (some cubes) := by
    refine Json.Reader.optional_eq_ok.2 (.inr ⟨?_, cubes, areRead, rfl⟩)
    obtain ⟨_, rfl, -⟩ := Json.Reader.list_eq_ok.1 areRead
    exact nofun
  refine ⟨_, fits_replace "cubes" fits itemsFit, bone_eq_ok.2 ⟨_, rfl, ?_⟩⟩
  exact {
    once := fun name isName => count_replace_le (said.once name isName)
    name := (read?_replace_of_ne (by decide)).trans said.name
    parent := (read?_replace_of_ne (by decide)).trans said.parent
    pivot := (read?_replace_of_ne (by decide)).trans said.pivot
    locators := (read?_replace_of_ne (by decide)).trans said.locators
    cubes := read?_replace_self areGiven
    extra := (kept?_replace (by decide)).trans said.extra }

/-- A description with another identifier can be read if the description can. -/
theorem reads_description_identifier {details : Description}
    (reads : description.Reads (limit + 1) details) (identifier : String) :
    description.Reads (limit + 1) { details with identifier := identifier } := by
  obtain ⟨node, fits, isRead⟩ := reads
  obtain ⟨entries, rfl, said⟩ := description_eq_ok.1 isRead
  obtain ⟨text, textFits, textRead⟩ := reads_string identifier
  refine ⟨_, fits_replace "identifier" fits textFits, description_eq_ok.2 ⟨_, rfl, ?_⟩⟩
  exact {
    once := fun name isName => count_replace_le (said.once name isName)
    identifier := read?_replace_self textRead
    extra := (kept?_replace (by decide)).trans said.extra }

/-- The description of a geometry that can be read can be read. -/
theorem reads_description {geometry : Geometry Float}
    (reads : Reader.geometry.Reads (limit + 1) geometry) :
    description.Reads limit geometry.description := by
  obtain ⟨node, fits, isRead⟩ := reads
  obtain ⟨entries, rfl, said⟩ := geometry_eq_ok.1 isRead
  exact .of_required fits said.description

/-- The bones of a geometry that can be read can be read. -/
theorem reads_bones {geometry : Geometry Float}
    (reads : Reader.geometry.Reads (limit + 2) geometry) :
    ∀ bone ∈ geometry.bones, Reader.bone.Reads limit bone := by
  obtain ⟨node, fits, isRead⟩ := reads
  obtain ⟨entries, rfl, said⟩ := geometry_eq_ok.1 isRead
  exact reads_list.1 (.of_required fits said.bones)

/-- A geometry with another description and other bones can be read if all of them can. -/
theorem reads_geometry_parts {geometry : Geometry Float}
    (reads : Reader.geometry.Reads (limit + 2) geometry) {details : Description}
    (readsDetails : description.Reads (limit + 1) details) {bones : List (Bone Float)}
    (each : ∀ bone ∈ bones, Reader.bone.Reads limit bone) :
    Reader.geometry.Reads (limit + 2) { geometry with description := details, bones := bones } := by
  obtain ⟨node, fits, isRead⟩ := reads
  obtain ⟨entries, rfl, said⟩ := geometry_eq_ok.1 isRead
  obtain ⟨part, partFits, partRead⟩ := readsDetails
  obtain ⟨items, itemsFit, areRead⟩ := reads_list.2 each
  refine ⟨_, fits_replace "bones" (fits_replace "description" fits partFits)
    itemsFit, geometry_eq_ok.2 ⟨_, rfl, ?_⟩⟩
  exact {
    once := fun name isName => count_replace_le (count_replace_le (said.once name isName))
    description := (read?_replace_of_ne (by decide)).trans (read?_replace_self partRead)
    bones := read?_replace_self areRead
    extra := (kept?_replace (by decide)).trans ((kept?_replace (by decide)).trans said.extra) }

/-- The geometries of a model that can be read can be read. -/
theorem reads_geometries {data : Model Float} (reads : model.Reads (limit + 2) data) :
    ∀ geometry ∈ data.geometries, Reader.geometry.Reads limit geometry := by
  obtain ⟨node, fits, isRead⟩ := reads
  obtain ⟨entries, rfl, said⟩ := model_eq_ok.1 isRead
  exact reads_list.1 (.of_required fits said.geometries)

/-- A model with other geometries can be read if the model and the geometries can. -/
theorem reads_model_geometries {data : Model Float} (reads : model.Reads (limit + 2) data)
    {geometries : List (Geometry Float)}
    (each : ∀ geometry ∈ geometries, Reader.geometry.Reads limit geometry) :
    model.Reads (limit + 2) { data with geometries := geometries } := by
  obtain ⟨node, fits, isRead⟩ := reads
  obtain ⟨entries, rfl, said⟩ := model_eq_ok.1 isRead
  obtain ⟨items, itemsFit, areRead⟩ := reads_list.2 each
  refine ⟨_, fits_replace "minecraft:geometry" fits itemsFit, model_eq_ok.2 ⟨_, rfl, ?_⟩⟩
  exact {
    once := fun name isName => count_replace_le (said.once name isName)
    formatVersion := (read?_replace_of_ne (by decide)).trans said.formatVersion
    geometries := read?_replace_self areRead
    extra := (kept?_replace (by decide)).trans said.extra }

end Model.Reader

end PhysicsPrefab
