import PhysicsPrefab.Proofs.Number.Plain
import PhysicsPrefab.Proofs.Script.Literals
import PhysicsPrefab.Proofs.Script.Resolution

/-!
# Forms of lines

A script is written in a few fixed forms of lines (`Script.forms`), which are the same for every
prefab. A form leaves places open for numbers, variables and literals, and each place can only be
filled with what belongs there (`LinePart.Fills`), so what an id holds can neither end a line nor
come to stand outside of its literal.
-/

namespace PhysicsPrefab

/-- A part of the form of a line. -/
inductive LinePart where
  /-- Text that is the same in every script. -/
  | fixed (text : String)
  /-- A number. -/
  | number
  /-- A variable. -/
  | name
  /-- The variable of a body that a constraint links. -/
  | link
  /-- The literal of the id of the prefab. -/
  | ownId
  /-- The literal of the entity of a body. -/
  | entity
  /-- The literal of the key of a body. -/
  | bodyKey
  /-- The literal of the key of a constraint. -/
  | constraintKey
deriving DecidableEq

open Quoted (IsLiteral)

namespace LinePart

/-- What may fill a part of a line in the script of a prefab. -/
inductive Fills (prefab : Prefab) : LinePart → List Char → Prop where
  | fixed (text : String) : Fills prefab (fixed text) text.toList
  | number {characters : List Char} (isNumber : IsPlainNumber characters) :
      Fills prefab number characters
  | name {name : String} (isIdentifier : IsIdentifier name) : Fills prefab .name name.toList
  | link {name : String} (isIdentifier : IsIdentifier name) : Fills prefab link name.toList
  /-- Nothing stands for a body that is not there. -/
  | noLink {constraint : Constraint} (isConstraint : constraint ∈ prefab.constraints)
      (unknown : constraint.bodyA ∉ prefab.bodyIds ∨ constraint.bodyB ∉ prefab.bodyIds) :
      Fills prefab link []
  | ownId {characters : List Char} (literal : IsLiteral characters prefab.id) :
      Fills prefab ownId characters
  | entity {body : Body Float} (isBody : body ∈ prefab.bodies) {characters : List Char}
      (literal : IsLiteral characters ("physics:" ++ prefab.id ++ "." ++ body.id)) :
      Fills prefab entity characters
  | bodyKey {body : Body Float} (isBody : body ∈ prefab.bodies) {characters : List Char}
      (literal : IsLiteral characters ("body" ++ body.id)) : Fills prefab bodyKey characters
  | constraintKey {constraint : Constraint} (isConstraint : constraint ∈ prefab.constraints)
      {characters : List Char} (literal : IsLiteral characters ("constraint" ++ constraint.id)) :
      Fills prefab constraintKey characters

/-- Characters fill the parts of a form one after the other. -/
inductive FillsForm (prefab : Prefab) : List LinePart → List Char → Prop where
  | nil : FillsForm prefab [] []
  | cons {part : LinePart} {form : List LinePart} {first rest : List Char}
      (fills : part.Fills prefab first) (others : FillsForm prefab form rest) :
      FillsForm prefab (part :: form) (first ++ rest)

/-- A vector. -/
def vector : List LinePart :=
  [fixed "new CANNON.Vec3(", number, fixed ", ", number, fixed ", ", number, fixed ")"]

/-- A number that may be left open. -/
def optionalNumbers : List (List LinePart) := [[number], [fixed "undefined"]]

/-- The start of a constraint, with the two bodies that it links. -/
def linked (start : String) : List LinePart := [fixed start, link, fixed ", ", link, fixed ", "]

/-- The options of a hinge before its flag. -/
def hingeStart : List LinePart :=
  [fixed "\x7b ", fixed "pivotA: "] ++ vector ++ [fixed ", ", fixed "pivotB: "] ++ vector ++
    [fixed ", ", fixed "axisA: "] ++ vector ++ [fixed ", ", fixed "axisB: "] ++ vector ++
    [fixed ", "]

/-- The two angles among the options of a hinge. -/
def hingeAngles : List LinePart :=
  [fixed "angle: ", number, fixed ", ", fixed "twistAngle: ", number, fixed ", "]

/-- The options of a hinge from its flag on; the force may be limited or not. -/
def hingeEnds : List (List LinePart) :=
  [[fixed "collideConnected: ", fixed "true", fixed " \x7d"],
    [fixed "collideConnected: ", fixed "false", fixed " \x7d"],
    [fixed "collideConnected: ", fixed "true", fixed ", ", fixed "maxForce: ", number,
      fixed " \x7d"],
    [fixed "collideConnected: ", fixed "false", fixed ", ", fixed "maxForce: ", number,
      fixed " \x7d"]]

/-- The objects of constraints. -/
def constraints : List (List LinePart) :=
  (optionalNumbers.map fun force =>
    linked "new CANNON.DistanceConstraint(" ++ [number, fixed ", "] ++ force ++ [fixed ")"]) ++
  [linked "new CANNON.LockConstraint(" ++ [fixed "\x7b\x7d", fixed ")"],
    linked "new CANNON.LockConstraint(" ++
      [fixed "\x7b ", fixed "maxForce: ", number, fixed " \x7d", fixed ")"]] ++
  (hingeEnds.map fun finish =>
    linked "new CANNON.HingeConstraint(" ++ hingeStart ++ finish ++ [fixed ")"]) ++
  (hingeEnds.map fun finish =>
    linked "new CANNON.ConeTwistConstraint(" ++ hingeStart ++ hingeAngles ++ finish ++
      [fixed ")"]) ++
  (optionalNumbers.map fun force =>
    [fixed "new CANNON.PointToPointConstraint(", link, fixed ", "] ++ vector ++
      [fixed ", ", link, fixed ", "] ++ vector ++ [fixed ", "] ++ force ++ [fixed ")"])

end LinePart

open LinePart

/-- The forms of the lines of scripts. -/
def Script.forms : List (List LinePart) :=
  [[fixed "import * as CANNON from \"cannon-es\";"],
    [fixed "import Physics from \"../physics\";"],
    [fixed "import \x7b CollisionGroup \x7d from \"../consts\";"],
    [fixed ""],
    [fixed "Physics.registerPrefab(", ownId, fixed ", (",
      fixed "\x7b physWorld, pos, dim \x7d) => \x7b"],
    [fixed "  ", fixed "const ", name, fixed " = pos.vadd("] ++ vector ++ [fixed ");"],
    [fixed "  ", fixed "const ", name, fixed " = new CANNON.Body(", fixed "\x7b"],
    [fixed "    mass: ", number, fixed ","],
    [fixed "    position: ", name, fixed ","],
    [fixed "    material: new CANNON.Material(),"],
    [fixed "    material: new CANNON.Material(\x7b friction: ", number, fixed " \x7d),"],
    [fixed "    collisionFilterGroup: CollisionGroup.Object,"],
    [fixed "    collisionFilterMask: CollisionGroup.World | CollisionGroup.Object | CollisionGroup.Player,"],
    [fixed "  \x7d);"],
    [fixed "  ", name, fixed ".addShape(", fixed "new CANNON.Box("] ++ vector ++ [fixed "), "] ++
      vector ++ [fixed ", new CANNON.Quaternion().setFromEuler(", number, fixed ", ", number,
        fixed ", ", number, fixed ")", fixed ");"],
    [fixed "  physWorld.addConstraint(", name, fixed ");"],
    [fixed "  Physics.createBodyEntity(", entity, fixed ", ", name, fixed ", dim, ", name,
      fixed ");"],
    [fixed "  physWorld.addBody(", name, fixed ");"],
    [fixed "  return \x7b"],
    [fixed "    ", bodyKey, fixed ": ", name, fixed ","],
    [fixed "    ", constraintKey, fixed ": ", name, fixed ","],
    [fixed "  \x7d;"],
    [fixed "\x7d);"]] ++
  LinePart.constraints.map fun object =>
    [fixed "  ", fixed "const ", name, fixed " = "] ++ object ++ [fixed ";"]

/-- The characters of a line have one of the forms. -/
def Script.InForm (prefab : Prefab) (line : List Char) : Prop :=
  ∃ form ∈ forms, FillsForm prefab form line

namespace LinePart

variable {prefab : Prefab}

/-- A part keeps a line together: its text, if it has one, holds no line break. -/
def isOneLine : LinePart → Bool
  | fixed text => !text.toList.contains '\n'
  | _ => true

/-- No form has a line break in its text. -/
theorem forms_isOneLine : ∀ form ∈ Script.forms, ∀ part ∈ form, part.isOneLine = true := by
  decide +kernel

/-- What fills a part of one line holds no line break. -/
theorem Fills.no_break {part : LinePart} {characters : List Char}
    (oneLine : part.isOneLine = true) (fills : part.Fills prefab characters) :
    '\n' ∉ characters := by
  have ofLiteral {characters : List Char} {text : String} (literal : IsLiteral characters text) :
      '\n' ∉ characters :=
    fun member => absurd (literal.printable '\n' member) (by decide)
  have ofName {name : String} (isIdentifier : IsIdentifier name) : '\n' ∉ name.toList := by
    intro member
    have word := isIdentifier.characters '\n' member
    revert word
    unfold IsWordCharacter IsDecimal
    decide
  cases fills with
  | fixed text => simpa [isOneLine] using oneLine
  | number isNumber =>
    intro member
    exact absurd (isNumber.character member) (by decide)
  | name isIdentifier => exact ofName isIdentifier
  | link isIdentifier => exact ofName isIdentifier
  | noLink _ _ => exact List.not_mem_nil
  | ownId literal => exact ofLiteral literal
  | entity _ literal => exact ofLiteral literal
  | bodyKey _ literal => exact ofLiteral literal
  | constraintKey _ literal => exact ofLiteral literal

/-- What fills a form of one line holds no line break. -/
theorem FillsForm.no_break {form : List LinePart} {characters : List Char}
    (oneLine : ∀ part ∈ form, part.isOneLine = true) (fills : FillsForm prefab form characters) :
    '\n' ∉ characters := by
  induction fills with
  | nil => exact List.not_mem_nil
  | cons first _ ih =>
    obtain ⟨firstOneLine, othersOneLine⟩ := List.forall_mem_cons.1 oneLine
    rw [List.mem_append, not_or]
    exact ⟨first.no_break firstOneLine, ih othersOneLine⟩

end LinePart

end PhysicsPrefab
