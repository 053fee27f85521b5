import PhysicsPrefab.Prefab.Constraint

/-!
# Prefabs

A prefab is what one geometry compiles to: its bodies, and the constraints between them. All
bodies are built before any constraint, so a constraint may name a body that comes later.
-/

namespace PhysicsPrefab

/-- The bodies and constraints of one geometry. -/
structure Prefab where
  /-- The identifier of the geometry, without the common first part. -/
  id : String
  /-- The bodies in bone order. -/
  bodies : List (Body Float)
  /-- The constraints in bone order. -/
  constraints : List Constraint

/-- The first body of a name. -/
def Prefab.body? (prefab : Prefab) (id : String) : Option (Body Float) :=
  prefab.bodies.find? fun body => body.id == id

/-- A constraint that was declared and could not be built. -/
structure SkippedConstraint where
  /-- The prefab it belongs to. -/
  prefabId : String
  /-- The name of its bone. -/
  constraint : String
  /-- Why it was left out. -/
  reason : ConstraintError
deriving DecidableEq, Repr

/-- The identifier of a geometry without `geometry.` in front. -/
def prefabId (identifier : String) : String :=
  match "geometry.".toList.isPrefixOf? identifier.toList with
  | some rest => String.ofList rest
  | none => identifier

namespace Prefab

/-- The bodies of the bones, after those already there; a bone with the name of an earlier body
is passed over. -/
def collectBodies (id : String) :
    List (Body Float) → List (CentredBone Float) → Noted (List (Body Float))
  | bodies, [] => return bodies
  | bodies, bone :: rest => do
    if bodies.any fun body => body.id == bone.name then
      Noted.note .warn s!"{id}: duplicate body bone `{bone.name}` ignored"
      collectBodies id bodies rest
    else
      let body ← bone.body
      collectBodies id (bodies ++ [body]) rest

/-- The constraints of the bones, and those that were left out. -/
def collectConstraints (id : String) (bodies : List (Body Float)) :
    List (CentredBone Float) → Noted (List Constraint × List SkippedConstraint)
  | [] => return ([], [])
  | bone :: rest => do
    match ← (bone.constraint bodies).run with
    | .ok (some constraint) =>
      let kind := constraint.kind.type.name
      Noted.note .debug
        s!"{id}: {kind} constraint `{constraint.id}` links `{constraint.bodyA}` to `{constraint.bodyB}`"
      let (constraints, skipped) ← collectConstraints id bodies rest
      return (constraint :: constraints, skipped)
    | .ok none => collectConstraints id bodies rest
    | .error reason =>
      Noted.note .warn s!"{id}: dropping constraint `{bone.name}`: {reason.message}"
      let (constraints, skipped) ← collectConstraints id bodies rest
      return (constraints, ⟨id, bone.name, reason⟩ :: skipped)

end Prefab

/-- The prefab of a geometry, and the constraints that were left out. -/
def Geometry.prefab (geometry : Geometry Float) : Noted (Prefab × List SkippedConstraint) := do
  let id := prefabId geometry.description.identifier
  let bones := geometry.bones.map Bone.centred
  let bodies ← Prefab.collectBodies id [] (bones.filter fun bone => bone.role = .body)
  let (constraints, skipped) ←
    Prefab.collectConstraints id bodies (bones.filter fun bone => bone.role = .constraint)
  Noted.note .debug s!"{id}: {bodies.length} bodies, {constraints.length} constraints"
  return (⟨id, bodies, constraints⟩, skipped)

end PhysicsPrefab
