import PhysicsPrefab.Prefab.Basic
import PhysicsPrefab.Text.Quoted

/-!
# Lines of a script

A script is a list of lines of a few fixed forms. What varies in them is numbers, variables and
quoted texts, so the forms are a type and their text is one function.
-/

namespace PhysicsPrefab

/-- A line of a script. -/
inductive ScriptLine where
  | importRuntime
  | importRegistry
  | importGroups
  | blank
  /-- The start of the function that builds a prefab. -/
  | register (prefabId : String)
  /-- The place of a body. -/
  | declarePlace (body : String) (offset : Vec3 Float)
  /-- The start of a body. -/
  | declareBody (body : String)
  | mass (value : Float)
  | position (body : String)
  | material (friction : Option Float)
  | collisionGroup
  | collisionMask
  | endBody
  | addShape (body : String) (shape : Shape Float)
  /-- A constraint between two bodies. -/
  | declareConstraint (constraint bodyA bodyB : String) (kind : ConstraintKind)
  | addConstraint (constraint : String)
  /-- A body that is drawn as an entity. -/
  | createEntity (entity body : String)
  /-- A body that is not drawn. -/
  | addBody (body : String)
  /-- The start of the object that is returned. -/
  | openResult
  | entry (key name : String)
  | endResult
  | endFunction

namespace ScriptLine

/-- A number in a script. -/
def number (value : Float) : String := NumberStyle.plain.text value

/-- A number that may be left open. -/
def optionalNumber : Option Float → String
  | some value => number value
  | none => "undefined"

/-- A vector in a script. -/
def vector (value : Vec3 Float) : String :=
  s!"new CANNON.Vec3({number value.x}, {number value.y}, {number value.z})"

/-- An object with the given entries. -/
def object : List String → String
  | [] => "\x7b\x7d"
  | entries => "\x7b " ++ String.intercalate ", " entries ++ " \x7d"

/-- The entry of a limited force. -/
def forceEntry : Option Float → List String
  | some force => [s!"maxForce: {number force}"]
  | none => []

/-- The entries of a hinge, with more before its flag. -/
def hingeEntries (hinge : Hinge) (more : List String) : List String :=
  [s!"pivotA: {vector hinge.pivotA}", s!"pivotB: {vector hinge.pivotB}",
    s!"axisA: {vector hinge.axisA}", s!"axisB: {vector hinge.axisB}"] ++ more ++
  [s!"collideConnected: {hinge.collideConnected}"] ++ forceEntry hinge.maxForce

/-- An angle in degrees as a number in radians. -/
def angle (degrees : Float) : String := number (degrees * Scalar.radiansPerDegree)

/-- The object of a constraint between two variables. -/
def constraint (a b : String) : ConstraintKind → String
  | .distance distance maxForce =>
    s!"new CANNON.DistanceConstraint({a}, {b}, {number distance}, {optionalNumber maxForce})"
  | .lock maxForce => s!"new CANNON.LockConstraint({a}, {b}, {object (forceEntry maxForce)})"
  | .hinge hinge => s!"new CANNON.HingeConstraint({a}, {b}, {object (hingeEntries hinge [])})"
  | .twist hinge swing twist =>
    let more := [s!"angle: {angle swing}", s!"twistAngle: {angle twist}"]
    s!"new CANNON.ConeTwistConstraint({a}, {b}, {object (hingeEntries hinge more)})"
  | .point pivotA pivotB maxForce =>
    s!"new CANNON.PointToPointConstraint({a}, {vector pivotA}, {b}, {vector pivotB}, {optionalNumber maxForce})"

/-- The arguments that place a box. -/
def shapeArguments (shape : Shape Float) : String :=
  let turn := shape.orientation
  s!"new CANNON.Box({vector shape.halfExtents}), {vector shape.offset}, new CANNON.Quaternion().setFromEuler({number turn.x}, {number turn.y}, {number turn.z})"

/-- The text of a line, without its end. -/
def text : ScriptLine → String
  | importRuntime => "import * as CANNON from \"cannon-es\";"
  | importRegistry => "import Physics from \"../physics\";"
  | importGroups => "import \x7b CollisionGroup \x7d from \"../consts\";"
  | blank => ""
  | register prefabId =>
    s!"Physics.registerPrefab({Quoted.encode prefabId}, (" ++
      "\x7b physWorld, pos, dim \x7d) => \x7b"
  | declarePlace body offset => s!"  const offPos{body} = pos.vadd({vector offset});"
  | declareBody body => s!"  const {body} = new CANNON.Body(" ++ "\x7b"
  | mass value => s!"    mass: {number value},"
  | position body => s!"    position: offPos{body},"
  | material none => "    material: new CANNON.Material(),"
  | material (some friction) =>
    "    material: new CANNON.Material(\x7b friction: " ++ number friction ++ " \x7d),"
  | collisionGroup => "    collisionFilterGroup: CollisionGroup.Object,"
  | collisionMask =>
    "    collisionFilterMask: CollisionGroup.World | CollisionGroup.Object | CollisionGroup.Player,"
  | endBody => "  \x7d);"
  | addShape body shape => s!"  {body}.addShape({shapeArguments shape});"
  | declareConstraint name a b kind => s!"  const {name} = {constraint a b kind};"
  | addConstraint name => s!"  physWorld.addConstraint({name});"
  | createEntity entity body =>
    s!"  Physics.createBodyEntity({Quoted.encode entity}, offPos{body}, dim, {body});"
  | addBody body => s!"  physWorld.addBody({body});"
  | openResult => "  return \x7b"
  | entry key name => s!"    {Quoted.encode key}: {name},"
  | endResult => "  \x7d;"
  | endFunction => "\x7d);"

end ScriptLine

end PhysicsPrefab
