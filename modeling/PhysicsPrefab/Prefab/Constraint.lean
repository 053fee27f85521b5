import PhysicsPrefab.Prefab.Body

/-!
# Constraints

A bone under the parent of all constraints declares one between two bodies. Three options decide
whether it declares one at all; from then on the first thing wrong with it is the reason why it
is left out.
-/

namespace PhysicsPrefab

/-- The kinds of constraints. -/
inductive ConstraintType where
  | distance
  | lock
  | hinge
  | twist
  | point
deriving DecidableEq, Repr

namespace ConstraintType

/-- The name of a kind. -/
def name : ConstraintType → String
  | distance => "distance"
  | lock => "lock"
  | hinge => "hinge"
  | twist => "twist"
  | point => "point"

/-- The kind of a name. -/
def ofName? (name : String) : Option ConstraintType :=
  [distance, lock, hinge, twist, point].find? fun kind => kind.name == name

end ConstraintType

/-- The options of a constraint that may be missing or wrong. -/
inductive ConstraintOption where
  | maxForce
  | distance
  | pivotA
  | pivotB
  | axisA
  | axisB
  | angle
  | twistAngle
deriving DecidableEq, Repr

/-- The key of an option. -/
def ConstraintOption.key : ConstraintOption → String
  | maxForce => "maxforce"
  | distance => "distance"
  | pivotA => "pivota"
  | pivotB => "pivotb"
  | axisA => "axisa"
  | axisB => "axisb"
  | angle => "angle"
  | twistAngle => "twistangle"

/-- The two bodies of a constraint. -/
inductive Side where
  | a
  | b
deriving DecidableEq, Repr

/-- The letter of a side. -/
def Side.letter : Side → String
  | a => "A"
  | b => "B"

/-- Why a declared constraint is left out. -/
inductive ConstraintError where
  /-- No body of the prefab has the name given for a side. -/
  | unknownBody (side : Side) (id : String)
  /-- Both sides are the same body. -/
  | selfReference (id : String)
  /-- An option that the kind needs is not set. -/
  | missingOption (option : ConstraintOption)
  /-- An option is set to something that cannot be read. -/
  | invalidOption (option : ConstraintOption) (raw : String)
deriving DecidableEq, Repr

/-- The words of an error. -/
def ConstraintError.message : ConstraintError → String
  | unknownBody side id => s!"body{side.letter} `{id}` is not a body of this prefab"
  | selfReference id => s!"constraint links body `{id}` to itself"
  | missingOption option => s!"missing required option `{option.key}`"
  | invalidOption option raw => s!"option `{option.key}` has undecodable value `{raw}`"

/-- What a hinge is made of. Pivots are in blocks, each relative to its own body. -/
structure Hinge where
  pivotA : Vec3 Float
  pivotB : Vec3 Float
  axisA : Vec3 Float
  axisB : Vec3 Float
  /-- The largest force, if limited. -/
  maxForce : Option Float
  /-- Whether the two bodies collide with each other. -/
  collideConnected : Bool

/-- What a constraint does. -/
inductive ConstraintKind where
  /-- Keeps two bodies at a distance. -/
  | distance (distance : Float) (maxForce : Option Float)
  /-- Keeps two bodies as they are to each other. -/
  | lock (maxForce : Option Float)
  /-- Lets two bodies turn about an axis. -/
  | hinge (hinge : Hinge)
  /-- A hinge that may also swing and twist, by angles in degrees. -/
  | twist (hinge : Hinge) (angle : Float) (twistAngle : Float)
  /-- Keeps a point of each body together. -/
  | point (pivotA : Vec3 Float) (pivotB : Vec3 Float) (maxForce : Option Float)

/-- The type of a kind. -/
def ConstraintKind.type : ConstraintKind → ConstraintType
  | distance .. => .distance
  | lock .. => .lock
  | hinge .. => .hinge
  | twist .. => .twist
  | point .. => .point

/-- A constraint between two bodies. -/
structure Constraint where
  /-- The name of its bone. -/
  id : String
  /-- The first body. -/
  bodyA : String
  /-- The second body. -/
  bodyB : String
  /-- What it does. -/
  kind : ConstraintKind

namespace Constraint

/-- A step of building a constraint. -/
abbrev Building := ExceptT ConstraintError Noted

/-- The body that a side names. -/
def findBody (bodies : List (Body Float)) (side : Side) (id : String) :
    Except ConstraintError (Body Float) :=
  match bodies.find? fun body => body.id == id with
  | some body => .ok body
  | none => .error (.unknownBody side id)

variable {α : Type}

/-- The decoded value of an option that may be left out. -/
def optional (locators : NameMap (Locator Float)) (option : ConstraintOption)
    (decode : String → Option α) : Building (Option α) := do
  match ← Options.lookup locators option.key with
  | none => return none
  | some raw =>
    match decode raw with
    | some value => return some value
    | none => throw (.invalidOption option raw)

/-- The decoded value of an option that must be set. -/
def required (locators : NameMap (Locator Float)) (option : ConstraintOption)
    (decode : String → Option α) : Building α := do
  match ← optional locators option decode with
  | some value => return value
  | none => throw (.missingOption option)

/-- What a hinge between two bodies is made of. -/
def buildHinge (locators : NameMap (Locator Float)) (first second : Body Float)
    (maxForce : Option Float) : Building Hinge := do
  let pivotA ← required locators .pivotA first.place?
  let pivotB ← required locators .pivotB second.place?
  let axisA ← required locators .axisA Options.decodeVec3
  let axisB ← required locators .axisB Options.decodeVec3
  let collide ← Options.lookup locators "collideconnected"
  return { pivotA, pivotB, axisA, axisB, maxForce, collideConnected := Options.decodeFlag collide }

/-- What a constraint of a type between two bodies does. -/
def buildKind (locators : NameMap (Locator Float)) (first second : Body Float)
    (maxForce : Option Float) : ConstraintType → Building ConstraintKind
  | .distance => do
    return .distance (← required locators .distance Options.decodeNumber) maxForce
  | .lock => return .lock maxForce
  | .hinge => do return .hinge (← buildHinge locators first second maxForce)
  | .twist => do
    let hinge ← buildHinge locators first second maxForce
    let angle ← required locators .angle Options.decodeNumber
    let twistAngle ← required locators .twistAngle Options.decodeNumber
    return .twist hinge angle twistAngle
  | .point => do
    let pivotA ← required locators .pivotA first.place?
    let pivotB ← required locators .pivotB second.place?
    return .point pivotA pivotB maxForce

/-- A constraint of a type between two bodies that are named. -/
def buildBetween (name : String) (locators : NameMap (Locator Float))
    (bodies : List (Body Float)) (type : ConstraintType) (bodyA bodyB : String) :
    Building Constraint := do
  let first ← findBody bodies .a bodyA
  let second ← findBody bodies .b bodyB
  if first.id = second.id then throw (.selfReference first.id)
  let maxForce ← optional locators .maxForce Options.decodeNumber
  let kind ← buildKind locators first second maxForce type
  return ⟨name, first.id, second.id, kind⟩

end Constraint

/-- The constraint that a bone declares. It declares none if its type or one of its bodies is
not set, or if the type is not known. -/
def CentredBone.constraint (bone : CentredBone Float) (bodies : List (Body Float)) :
    Constraint.Building (Option Constraint) := do
  let type ← Options.lookup bone.locators "type"
  let bodyA ← Options.lookup bone.locators "bodya"
  let bodyB ← Options.lookup bone.locators "bodyb"
  match type, bodyA, bodyB with
  | some typeName, some bodyA, some bodyB =>
    match ConstraintType.ofName? typeName with
    | some type => some <$> Constraint.buildBetween bone.name bone.locators bodies type bodyA bodyB
    | none =>
      Noted.note .debug s!"bone `{bone.name}` has unknown constraint type `{typeName}`, ignoring"
      return none
  | _, _, _ =>
    Noted.note .debug s!"bone `{bone.name}` does not declare type/bodya/bodyb, ignoring"
    return none

end PhysicsPrefab
