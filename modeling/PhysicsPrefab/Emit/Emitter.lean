import PhysicsPrefab.Emit.Geometry
import PhysicsPrefab.Emit.Template
import PhysicsPrefab.Script.Basic

/-!
# Emitting prefabs

The artifacts of a prefab: three files for each body that is drawn, then one script. Ids of
prefabs and bodies become names of files, so each must be a single plain part of a path.
-/

namespace PhysicsPrefab

/-- What every prefab is stamped out from. -/
structure Templates where
  /-- The behavior of an entity, with placeholders. -/
  behavior : String
  /-- The appearance of an entity, with placeholders. -/
  appearance : String
  /-- The model of an entity, without its cubes. -/
  geometry : Model Float

namespace Templates

/-- The built-in templates. -/
def builtin : ExceptT EmitError Noted Templates := do
  let geometry ← (Model.ofText ⟨"templates/geo.json"⟩ Template.builtinGeometry).adapt
    EmitError.badModelTemplate
  return ⟨Template.builtinBehavior, Template.builtinAppearance, geometry⟩

variable {m : Type → Type} [Monad m] [Storage m] [Journal m]

/-- A text template from a file. -/
def readText (path : Path) : ExceptT EmitError m String := do
  match ← (Storage.readText path : m (Except StorageFault String)) with
  | .error cause => throw (.unreadableTemplate path cause)
  | .ok text => return text

/-- A model template from a file. -/
def readModel (path : Path) : ExceptT EmitError m (Model Float) := do
  let loaded ← (Model.load path : m (Noted (Except ModelError (Model Float))))
  match ← (loaded.publish : m (Except ModelError (Model Float))) with
  | .error error => throw (.badModelTemplate error)
  | .ok model => return model

/-- The built-in templates, each replaced by a file if one is given. -/
def load (behavior appearance geometry : Option Path) : ExceptT EmitError m Templates := do
  let builtin ← ExceptT.mk builtin.run.publish
  let behavior ← (behavior.map readText).getD (pure builtin.behavior)
  let appearance ← (appearance.map readText).getD (pure builtin.appearance)
  let geometry ← (geometry.map readModel).getD (pure builtin.geometry)
  return { behavior, appearance, geometry }

end Templates

/-- How prefabs are turned into artifacts. -/
structure Emitter where
  /-- Where the artifacts go. -/
  layout : OutputLayout
  /-- What they are made from. -/
  templates : Templates
  /-- The mass of a body that sets none. -/
  defaultMass : Float

namespace Emitter

/-- Whether an id is a single plain part of a path. -/
def isFileName (id : String) : Bool :=
  match (Path.mk id).components with
  | [.name _] => !id.toList.any fun character => character = '/' || character = '\\'
  | _ => false

/-- Refuse an id that is no name for a file. -/
def requireFileName (id : String) : ExceptT EmitError Noted Unit := do
  unless isFileName id do
    Noted.note .warn s!"refusing to use `{id}` as a file name"
    throw (.unsafeId id)

/-- The three files of a body that is drawn. -/
def bodyArtifacts (emitter : Emitter) (prefabId : String) (body : Body Float) :
    ExceptT EmitError Noted (List Artifact) := do
  requireFileName body.id
  let values := [("prefab", prefabId), ("body", body.id)]
  let file (directory : Path) : Path := (directory.join ⟨prefabId⟩).join ⟨body.id ++ ".json"⟩
  let geometry ← entityModelText emitter.templates.geometry prefabId body
  return [
    ⟨file emitter.layout.behavior, Template.substitute emitter.templates.behavior values⟩,
    ⟨file emitter.layout.appearance, Template.substitute emitter.templates.appearance values⟩,
    ⟨file emitter.layout.geometry, geometry⟩]

/-- The artifacts of a prefab. -/
def prefabArtifacts (emitter : Emitter) (prefab : Prefab) :
    ExceptT EmitError Noted (List Artifact) := do
  requireFileName prefab.id
  let visual := prefab.bodies.filter Body.isVisual
  let files ← visual.mapM (emitter.bodyArtifacts prefab.id)
  let script : Artifact :=
    ⟨emitter.layout.script.join ⟨prefab.id ++ ".js"⟩, Script.ofPrefab prefab emitter.defaultMass⟩
  return files.flatten ++ [script]

/-- The artifact that imports the scripts of all prefabs. -/
def indexArtifact (emitter : Emitter) (prefabs : List Prefab) : Artifact :=
  ⟨emitter.layout.script.join ⟨"index.js"⟩, Script.index (prefabs.map (·.id))⟩

end Emitter

end PhysicsPrefab
