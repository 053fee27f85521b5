import Mathlib.Tactic.Ring
import PhysicsPrefab.Proofs.Prefab.Dependence

/-!
# Where the parts of a body are

Cubes and locators are made relative to the pivot of their bone, lengths in pixels become lengths in
blocks, and a box is placed by its centre instead of its lower corner. In exact numbers the pivot
cancels out: seen from where the prefab is placed, every box and every locator is where its bone has
it. So a bone that is moved as a whole only moves its body (`Bone.body_placed`).
-/

namespace PhysicsPrefab

attribute [ext] Vec3

/-- What is open in exact numbers: how large a degree is in radians, and the numbers that numerals
stand for. -/
class ExactNumbers where
  /-- The size of a degree. -/
  radiansPerDegree : ℚ
  /-- The number that a numeral stands for. -/
  ofNumeral : Numeral → Option ℚ

/-- Exact numbers are added, subtracted and multiplied without rounding. -/
instance [ExactNumbers] : Scalar ℚ where
  blocksPerPixel := 1 / 16
  half := 1 / 2
  radiansPerDegree := ExactNumbers.radiansPerDegree
  ofNumeral := ExactNumbers.ofNumeral
  isZero number := number = 0

namespace Vec3

/-- The vector with every component divided by a number. -/
def divBy (vector : Vec3 ℚ) (divisor : ℚ) : Vec3 ℚ :=
  ⟨vector.x / divisor, vector.y / divisor, vector.z / divisor⟩

/-- Half of a sixteenth is a thirty-second. -/
theorem divBy_divBy (vector : Vec3 ℚ) : (vector.divBy 2).divBy 16 = vector.divBy 32 := by
  ext <;> simp only [divBy] <;> ring

variable [ExactNumbers] (first second third shift vector : Vec3 ℚ) (divisor : ℚ)

/-- A sum has the sums of the components. -/
theorem add_eq : first + second = ⟨first.x + second.x, first.y + second.y, first.z + second.z⟩ :=
  rfl

/-- A difference has the differences of the components. -/
theorem sub_eq : first - second = ⟨first.x - second.x, first.y - second.y, first.z - second.z⟩ :=
  rfl

/-- Sums can be grouped in any way. -/
theorem add_assoc : first + second + third = first + (second + third) := by
  ext <;> simp only [add_eq] <;> ring

/-- A part of a sum is the sum of the parts. -/
theorem divBy_add :
    (first + second).divBy divisor = first.divBy divisor + second.divBy divisor := by
  ext <;> simp only [add_eq, divBy] <;> ring

/-- Different vectors added to one have different sums. -/
theorem add_right_inj : first + second = first + third ↔ second = third := by
  simp only [add_eq, Vec3.ext_iff, add_left_cancel_iff]

/-- What is seen from a place is seen from the origin if the place is added. -/
theorem add_sub_cancel : second + (first - second) = first := by
  ext <;> simp only [add_eq, sub_eq] <;> ring

/-- Places that are moved alike are seen from each other as before. -/
theorem add_sub_add : first + shift - (second + shift) = first - second := by
  ext <;> simp only [add_eq, sub_eq] <;> ring

/-- A length in blocks is a sixteenth of that in pixels. -/
theorem toBlocks_eq : vector.toBlocks = vector.divBy 16 := by
  ext <;> exact mul_one_div ..

/-- Half a length in blocks is half a sixteenth of that in pixels. -/
theorem scale_half : vector.toBlocks.scale Scalar.half = (vector.divBy 2).divBy 16 := by
  ext <;> change _ * (1 / 16) * (1 / 2) = _ / 2 / 16 <;> ring

/-- What is seen from a place, in blocks, is seen from the origin if the place is added. -/
theorem toBlocks_add_sub (place origin : Vec3 ℚ) :
    origin.toBlocks + (place - origin).toBlocks = place.divBy 16 := by
  rw [toBlocks_eq, toBlocks_eq, ← divBy_add, add_sub_cancel]

end Vec3

variable [ExactNumbers]

/-- The centre of a cube, in blocks. -/
def Cube.centre (cube : Cube ℚ) : Vec3 ℚ := (cube.origin + cube.size.divBy 2).divBy 16

/-- The box of a cube reaches half its size to each side. -/
theorem Cube.shape_halfExtents (cube : Cube ℚ) : cube.shape.halfExtents = cube.size.divBy 32 := by
  rw [← Vec3.divBy_divBy]
  exact Vec3.scale_half cube.size

/-- The box of a cube that was made relative to a pivot is around the centre that the cube has. -/
theorem Cube.add_shape_offset (pivot : Vec3 ℚ) (cube : Cube ℚ) :
    pivot.toBlocks + (cube.relativeTo pivot).shape.offset = cube.centre :=
  calc pivot.toBlocks + ((cube.origin - pivot).toBlocks + cube.size.toBlocks.scale Scalar.half)
    _ = pivot.toBlocks + (cube.origin - pivot).toBlocks + cube.size.toBlocks.scale Scalar.half :=
      (Vec3.add_assoc ..).symm
    _ = cube.origin.divBy 16 + (cube.size.divBy 2).divBy 16 := by
      rw [Vec3.toBlocks_add_sub, Vec3.scale_half]
    _ = cube.centre := (Vec3.divBy_add ..).symm

/-- A locator that was made relative to a pivot is at the place that the locator has. -/
theorem Locator.add_position (pivot : Vec3 ℚ) (locator : Locator ℚ) :
    pivot.toBlocks + (locator.mapPosition (· - pivot)).position.toBlocks =
      locator.position.divBy 16 := by
  cases locator <;> exact Vec3.toBlocks_add_sub ..

/-- A body has its boxes and its locators where a bone has its cubes and locators. -/
structure Bone.PlacedAs (bone : Bone ℚ) (body : Body ℚ) : Prop where
  /-- Every cube becomes a box of its size around its centre. -/
  shapes : List.Forall₂
    (fun cube shape => body.offset + shape.offset = cube.centre ∧
      shape.halfExtents = cube.size.divBy 32) (bone.cubes.getD []) body.shapes
  /-- Every locator keeps its name and its place. -/
  locators : List.Forall₂
    (fun given own => own.1 = given.1 ∧
      body.offset + own.2.position.toBlocks = given.2.position.divBy 16)
    bone.givenLocators.entries body.locators.entries
  /-- A place on the body is a vector as it is written, or else the place of the first locator of
  that trimmed name. -/
  place?_iff : ∀ raw place, body.place? raw = some place ↔
    Options.decodeVec3 raw = some place ∨ Options.decodeVec3 (α := ℚ) raw = none ∧
      ∃ name locator,
        bone.givenLocators.entries.find? (fun entry => Options.trim entry.1 == raw) =
          some (name, locator) ∧
        body.offset + place = locator.position.divBy 16

/-- The boxes of a body are around the centres of the cubes of its bone. -/
theorem Bone.forall₂_shapes (bone : Bone ℚ) :
    List.Forall₂
      (fun cube shape => bone.pivot.toBlocks + shape.offset = cube.centre ∧
        shape.halfExtents = cube.size.divBy 32)
      (bone.cubes.getD []) (bone.centred.cubes.map Cube.shape) := by
  rw [Bone.centred, List.map_map, List.forall₂_map_right_iff, List.forall₂_same]
  intro cube _
  exact ⟨cube.add_shape_offset bone.pivot, (cube.relativeTo bone.pivot).shape_halfExtents⟩

/-- The locators of a body are where its bone has them. -/
theorem Bone.forall₂_locators (bone : Bone ℚ) :
    List.Forall₂
      (fun given own => own.1 = given.1 ∧
        bone.pivot.toBlocks + own.2.position.toBlocks = given.2.position.divBy 16)
      bone.givenLocators.entries bone.centred.locators.entries := by
  change List.Forall₂ _ _ (List.map _ bone.givenLocators.entries)
  rw [List.forall₂_map_right_iff, List.forall₂_same]
  intro entry _
  exact ⟨rfl, entry.2.add_position bone.pivot⟩

/-- The place of a locator on a body is found by its name, and it is where its bone has it. -/
theorem Bone.find?_place (bone : Bone ℚ) (raw : String) (place : Vec3 ℚ) :
    (bone.centred.locators.entries.find? fun entry => Options.trim entry.1 == raw).map
        (fun entry => entry.2.position.toBlocks) = some place ↔
      ∃ name locator,
        bone.givenLocators.entries.find? (fun entry => Options.trim entry.1 == raw) =
          some (name, locator) ∧
        bone.pivot.toBlocks + place = locator.position.divBy 16 := by
  have relative : (bone.centred.locators.entries.find? fun entry => Options.trim entry.1 == raw) =
      (bone.givenLocators.entries.find? fun entry => Options.trim entry.1 == raw).map
        fun entry => (entry.1, entry.2.mapPosition (· - bone.pivot)) := List.find?_map ..
  rw [relative, Option.map_map, Option.map_eq_some_iff, Prod.exists]
  refine exists_congr fun name => exists_congr fun locator => and_congr_right fun _ => ?_
  rw [← Locator.add_position bone.pivot, Vec3.add_right_inj]
  exact eq_comm

/-- A body has everything where its bone has it. -/
theorem Bone.placedAs_body (bone : Bone ℚ) : bone.PlacedAs bone.centred.body.value := by
  constructor
  case shapes => exact bone.forall₂_shapes
  case locators => exact bone.forall₂_locators
  case place?_iff =>
    intro raw place
    rw [Body.place?]
    cases Options.decodeVec3 (α := ℚ) raw with
    | some vector => simp
    | none =>
      simp only [reduceCtorEq, false_or, true_and]
      exact bone.find?_place raw place

/-- A cube in another place. -/
def Cube.translate (shift : Vec3 ℚ) (cube : Cube ℚ) : Cube ℚ :=
  { cube with origin := cube.origin + shift, pivot := cube.pivot.map (· + shift) }

/-- A bone in another place, with its cubes and locators. -/
def Bone.translate (shift : Vec3 ℚ) (bone : Bone ℚ) : Bone ℚ :=
  { bone with
    pivot := bone.pivot + shift
    cubes := bone.cubes.map (List.map (Cube.translate shift))
    locators := bone.locators.map fun locators =>
      locators.mapValues (Locator.mapPosition (· + shift)) }

/-- A cube that is moved with a pivot is relative to it as before. -/
theorem Cube.relativeTo_translate (shift pivot : Vec3 ℚ) (cube : Cube ℚ) :
    (cube.translate shift).relativeTo (pivot + shift) = cube.relativeTo pivot := by
  simp only [relativeTo, translate, Vec3.add_sub_add, Option.map_map, Function.comp_def]

/-- A locator that is moved with a pivot is relative to it as before. -/
theorem Locator.mapPosition_translate (shift pivot : Vec3 ℚ) (locator : Locator ℚ) :
    (locator.mapPosition (· + shift)).mapPosition (· - (pivot + shift)) =
      locator.mapPosition (· - pivot) := by
  cases locator <;> simp only [mapPosition, Vec3.add_sub_add]

/-- Of a centred bone that was moved as a whole only the pivot has moved. -/
theorem Bone.centred_translate (shift : Vec3 ℚ) (bone : Bone ℚ) :
    (bone.translate shift).centred = { bone.centred with pivot := bone.pivot + shift } := by
  have cubes : (bone.translate shift).centred.cubes = bone.centred.cubes := by
    change ((bone.cubes.map _).getD []).map _ = (bone.cubes.getD []).map _
    cases bone.cubes with
    | none => rfl
    | some cubes =>
      rw [Option.map_some, Option.getD_some, Option.getD_some, List.map_map]
      exact List.map_congr_left fun cube _ => cube.relativeTo_translate shift bone.pivot
  have locators : (bone.translate shift).centred.locators = bone.centred.locators := by
    change (bone.translate shift).givenLocators.mapValues _ = bone.givenLocators.mapValues _
    rw [givenLocators, givenLocators, translate]
    cases bone.locators with
    | none => rfl
    | some locators =>
      simp only [Option.map_some, Option.getD_some, NameMap.mapValues, List.map_map,
        Function.comp_def, Locator.mapPosition_translate]
  exact congrArg₂ (fun locators cubes =>
    CentredBone.mk bone.name bone.parent (bone.pivot + shift) locators cubes bone.extra)
    locators cubes

/-- The body of a centred bone only moves with its pivot. -/
theorem CentredBone.body_translate (shift : Vec3 ℚ) (bone : CentredBone ℚ) :
    { bone with pivot := bone.pivot + shift }.body =
      (fun body => { body with offset := body.offset + shift.divBy 16 }) <$> bone.body := by
  simp only [body, map_bind, map_pure, Vec3.toBlocks_eq, Vec3.divBy_add]

/-- The pivot of a bone cancels out. In the body of a bone every box is around the centre of its
cube and every locator is in its place, whatever the pivot; and if the bone is moved with all its
cubes and locators, the body is moved and nothing else about it changes. -/
theorem Bone.body_placed (bone : Bone ℚ) :
    bone.PlacedAs bone.centred.body.value ∧
    ∀ shift, (bone.translate shift).centred.body =
      (fun body => { body with offset := body.offset + shift.divBy 16 }) <$> bone.centred.body := by
  refine ⟨bone.placedAs_body, fun shift => ?_⟩
  rw [Bone.centred_translate]
  exact bone.centred.body_translate shift

end PhysicsPrefab
