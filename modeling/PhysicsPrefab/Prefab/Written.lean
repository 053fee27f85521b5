import PhysicsPrefab.Model.Written
import PhysicsPrefab.Prefab.Basic

/-!
# Writing prefabs

The written form of a prefab, as it is shown to whoever wants to look at it. The locators of a
body are not part of it.
-/

namespace PhysicsPrefab

open Json (Value)

/-- The written form of a number that may be left open. -/
def optionalNumber : Option Float → Value
  | some value => .ofFloat value
  | none => .null

/-- The written form of a box. -/
def Shape.toValue (shape : Shape Float) : Value :=
  .object [("offset", shape.offset.toValue), ("orientation", shape.orientation.toValue),
    ("kind", .object [("type", .string "box"), ("half_extents", shape.halfExtents.toValue)])]

/-- The written form of a body. -/
def Body.toValue (body : Body Float) : Value :=
  .object [("id", .string body.id), ("offset", body.offset.toValue),
    ("shapes", .array (body.shapes.map Shape.toValue)), ("cubes", cubesValue body.cubes),
    ("mass", optionalNumber body.mass), ("friction", optionalNumber body.friction)]

/-- The written fields of a hinge. -/
def Hinge.fields (hinge : Hinge) : List (String × Value) :=
  [("pivot_a", hinge.pivotA.toValue), ("pivot_b", hinge.pivotB.toValue),
    ("axis_a", hinge.axisA.toValue), ("axis_b", hinge.axisB.toValue),
    ("max_force", optionalNumber hinge.maxForce),
    ("collide_connected", .boolean hinge.collideConnected)]

/-- The written fields of what a constraint does. -/
def ConstraintKind.fields : ConstraintKind → List (String × Value)
  | distance length maxForce =>
    [("distance", .ofFloat length), ("max_force", optionalNumber maxForce)]
  | lock maxForce => [("max_force", optionalNumber maxForce)]
  | hinge parts => parts.fields
  | twist parts angle twistAngle =>
    parts.fields ++ [("angle", .ofFloat angle), ("twist_angle", .ofFloat twistAngle)]
  | point pivotA pivotB maxForce =>
    [("pivot_a", pivotA.toValue), ("pivot_b", pivotB.toValue),
      ("max_force", optionalNumber maxForce)]

/-- The written form of what a constraint does. -/
def ConstraintKind.toValue (kind : ConstraintKind) : Value :=
  .object (("type", .string kind.type.name) :: kind.fields)

/-- The written form of a constraint. -/
def Constraint.toValue (constraint : Constraint) : Value :=
  .object [("id", .string constraint.id), ("body_a", .string constraint.bodyA),
    ("body_b", .string constraint.bodyB), ("kind", constraint.kind.toValue)]

/-- The written form of a prefab. -/
def Prefab.toValue (prefab : Prefab) : Value :=
  .object [("id", .string prefab.id), ("bodies", .array (prefab.bodies.map Body.toValue)),
    ("constraints", .array (prefab.constraints.map Constraint.toValue))]

end PhysicsPrefab
