import PhysicsPrefab.Number.Numeral

/-!
# Vectors and units

Models are authored in pixels, sixteen to the block; the physics world counts in blocks and
radians. The conversions and everything built from them hold for any type of numbers that has
the needed constants: the program uses doubles, and the same definitions run on exact numbers.
-/

namespace PhysicsPrefab

/-- The numbers that positions and options are made of. -/
class Scalar (α : Type) extends Zero α, Add α, Sub α, Mul α where
  /-- The length of a pixel in blocks, a sixteenth. -/
  blocksPerPixel : α
  /-- One half. -/
  half : α
  /-- The size of a degree in radians. -/
  radiansPerDegree : α
  /-- The number that a numeral stands for, if there is one in range. -/
  ofNumeral : Numeral → Option α
  /-- Whether a number is zero, whatever its sign. -/
  isZero : α → Bool

instance : Scalar Float where
  zero := 0.0
  blocksPerPixel := 1.0 / 16.0
  half := 0.5
  radiansPerDegree := 3.14159265358979323846264338327950288 / 180.0
  ofNumeral numeral :=
    let value := numeral.toFloat
    if value.isFinite then some value else none
  isZero value := value == 0.0

/-- Three numbers along the axes. -/
structure Vec3 (α : Type) where
  x : α
  y : α
  z : α
deriving DecidableEq, Repr

namespace Vec3

variable {α : Type} [Scalar α]

/-- The vector of three zeros. -/
def zero : Vec3 α := ⟨0, 0, 0⟩

/-- The sum by components. -/
def add (left right : Vec3 α) : Vec3 α :=
  ⟨left.x + right.x, left.y + right.y, left.z + right.z⟩

/-- The difference by components. -/
def sub (left right : Vec3 α) : Vec3 α :=
  ⟨left.x - right.x, left.y - right.y, left.z - right.z⟩

/-- The vector with every component multiplied by a factor. -/
def scale (vector : Vec3 α) (factor : α) : Vec3 α :=
  ⟨vector.x * factor, vector.y * factor, vector.z * factor⟩

instance : Add (Vec3 α) := ⟨add⟩

instance : Sub (Vec3 α) := ⟨sub⟩

/-- A position or size in pixels, converted to blocks. -/
def toBlocks (vector : Vec3 α) : Vec3 α := vector.scale Scalar.blocksPerPixel

/-- Angles in degrees, converted to radians. -/
def toRadians (vector : Vec3 α) : Vec3 α := vector.scale Scalar.radiansPerDegree

end Vec3

end PhysicsPrefab
