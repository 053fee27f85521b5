import PhysicsPrefab.Script.Identifier
import PhysicsPrefab.Script.Line

/-!
# Scripts

The script of a prefab registers a function that builds every body, links the bodies with
constraints, puts them into the world and returns them by name. The index imports the scripts
of all prefabs, so that each registers itself.
-/

namespace PhysicsPrefab

/-- The variables of a script. -/
structure ScriptNames where
  /-- The ids of the bodies with the variable made for each, in order. -/
  bodies : List (String × String)
  /-- The variables of the constraints, in order. -/
  constraints : List String

namespace ScriptNames

/-- The variables of a prefab: first one for each body, then one for each constraint, none of
them twice. -/
def ofPrefab (prefab : Prefab) : ScriptNames :=
  let bodyBases := prefab.bodies.map fun body => "body" ++ Identifier.sanitize body.id
  let constraintBases := prefab.constraints.map fun constraint =>
    "constraint" ++ Identifier.sanitize constraint.id
  let (bodyNames, taken) := Identifier.freshAll [] bodyBases
  let (constraintNames, _) := Identifier.freshAll taken constraintBases
  ⟨(prefab.bodies.map (·.id)).zip bodyNames, constraintNames⟩

/-- The variable of a body: the last one made for its id, empty if there is none. -/
def body (names : ScriptNames) (id : String) : String :=
  match names.bodies.reverse.find? fun entry => entry.1 == id with
  | some entry => entry.2
  | none => ""

end ScriptNames

namespace Script

/-- The mass of a body that sets none, unless the project says otherwise. -/
def defaultMass : Float := 2.0

/-- The lines that build a body. -/
def bodyLines (name : String) (defaultMass : Float) (body : Body Float) : List ScriptLine :=
  [.declarePlace name body.offset, .declareBody name,
    .mass (body.mass.getD defaultMass), .position name, .material body.friction,
    .collisionGroup, .collisionMask, .endBody] ++
  body.shapes.map (.addShape name) ++ [.blank]

/-- The lines that build a constraint. -/
def constraintLines (names : ScriptNames) (name : String) (constraint : Constraint) :
    List ScriptLine :=
  [.declareConstraint name (names.body constraint.bodyA) (names.body constraint.bodyB)
      constraint.kind,
    .addConstraint name, .blank]

/-- The name of the entity that a body is drawn as. -/
def entityName (prefabId bodyId : String) : String := s!"physics:{prefabId}.{bodyId}"

/-- The line that puts a body into the world. -/
def spawnLine (prefabId name : String) (body : Body Float) : ScriptLine :=
  if body.isVisual then .createEntity (entityName prefabId body.id) name
  else .addBody name

/-- The lines of the script of a prefab. -/
def lines (prefab : Prefab) (defaultMass : Float) : List ScriptLine :=
  let names := ScriptNames.ofPrefab prefab
  let constraints := prefab.constraints.zip names.constraints
  [.importRuntime, .importRegistry, .importGroups, .blank, .register prefab.id] ++
  prefab.bodies.flatMap (fun body => bodyLines (names.body body.id) defaultMass body) ++
  constraints.flatMap (fun (constraint, name) => constraintLines names name constraint) ++
  prefab.bodies.map (fun body => spawnLine prefab.id (names.body body.id) body) ++
  [.blank, .openResult] ++
  prefab.bodies.map (fun body => .entry ("body" ++ body.id) (names.body body.id)) ++
  constraints.map (fun (constraint, name) =>
    .entry ("constraint" ++ constraint.id) name) ++
  [.endResult, .endFunction]

/-- Lines as text, each with its end. -/
def joinLines (lines : List ScriptLine) : String :=
  String.join (lines.map fun line => line.text ++ "\n")

/-- The script of a prefab. -/
def ofPrefab (prefab : Prefab) (defaultMass : Float) : String :=
  joinLines (lines prefab defaultMass)

/-- The import of one script. The id stands in it as it is. -/
def importLine (id : String) : String := s!"import \"./{id}\";"

/-- The script that imports the scripts of all prefabs. -/
def index (ids : List String) : String := String.intercalate "\n" (ids.map importLine)

end Script

end PhysicsPrefab
