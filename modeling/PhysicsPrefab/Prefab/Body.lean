import PhysicsPrefab.Model.Centred
import PhysicsPrefab.Options.Lookup

/-!
# Bodies

A bone under the parent of all bodies becomes a rigid body with one box per cube. Mass and
friction stay open unless a locator sets them.
-/

namespace PhysicsPrefab

/-- A box that a body collides with. -/
structure Shape (α : Type) where
  /-- The centre relative to the body, in blocks. -/
  offset : Vec3 α
  /-- Angles in radians. -/
  orientation : Vec3 α
  /-- Half the lengths of the edges, in blocks. -/
  halfExtents : Vec3 α

/-- A rigid body. -/
structure Body (α : Type) where
  /-- The name of its bone. -/
  id : String
  /-- The pivot of its bone, in blocks from where the prefab is placed. -/
  offset : Vec3 α
  /-- The boxes it collides with. -/
  shapes : List (Shape α)
  /-- The cubes it is drawn with, relative to its pivot, in pixels. -/
  cubes : List (Cube α)
  /-- Its mass, if set. -/
  mass : Option α
  /-- Its friction, if set. -/
  friction : Option α
  /-- The locators of its bone, by which constraints can name their pivots. -/
  locators : NameMap (Locator α)

variable {α : Type} [Scalar α]

/-- The box of a cube. The origin of a cube is its lower corner and a box is placed by its
centre. -/
def Cube.shape (cube : Cube α) : Shape α :=
  let halfExtents := cube.size.toBlocks.scale Scalar.half
  { offset := cube.origin.toBlocks + halfExtents
    orientation := (cube.rotation.map Vec3.toRadians).getD Vec3.zero
    halfExtents }

/-- The body of a centred bone. -/
def CentredBone.body (bone : CentredBone α) : Noted (Body α) := do
  let mass ← Options.lookup bone.locators "mass"
  let friction ← Options.lookup bone.locators "friction"
  return {
    id := bone.name
    offset := bone.pivot.toBlocks
    shapes := bone.cubes.map Cube.shape
    cubes := bone.cubes
    mass := mass.bind Options.decodeNumber
    friction := friction.bind Options.decodeNumber
    locators := bone.locators }

namespace Body

/-- A body without cubes is an invisible point of attachment. -/
def isVisual (body : Body α) : Bool := !body.cubes.isEmpty

/-- A place on a body: a vector as it is written, or else the position of the first locator of
that trimmed name, in blocks. -/
def place? (body : Body α) (raw : String) : Option (Vec3 α) :=
  match Options.decodeVec3 raw with
  | some vector => some vector
  | none =>
    (body.locators.entries.find? fun entry => Options.trim entry.1 == raw).map
      fun entry => entry.2.position.toBlocks

end Body

end PhysicsPrefab
