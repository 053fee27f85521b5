import PhysicsPrefab.Model.Loading

/-!
# Artifacts

The files that the program makes, where each kind of them goes, and what can go wrong with them.
-/

namespace PhysicsPrefab

/-- A file to be written, with its path relative to the project. -/
structure Artifact where
  /-- Where it goes. -/
  path : Path
  /-- What it holds. -/
  contents : String
deriving DecidableEq, Repr

/-- The directories of the kinds of artifacts, relative to the project. -/
structure OutputLayout where
  /-- The behaviors of entities. -/
  behavior : Path
  /-- The appearances of entities. -/
  appearance : Path
  /-- The models of entities. -/
  geometry : Path
  /-- The scripts. -/
  script : Path
deriving DecidableEq, Repr

namespace OutputLayout

/-- The directories of a project that says nothing else. -/
def default : OutputLayout where
  behavior := ⟨"BP/entities/physics/prefabs"⟩
  appearance := ⟨"RP/entity/physics/prefabs"⟩
  geometry := ⟨"RP/models/entity/physics/prefabs"⟩
  script := ⟨"data/gametests/src/prefabs"⟩

/-- All directories, in the order in which they are made. -/
def directories (layout : OutputLayout) : List Path :=
  [layout.behavior, layout.appearance, layout.geometry, layout.script]

end OutputLayout

/-- Why artifacts could not be made or written. -/
inductive EmitError where
  /-- A file or directory could not be written. -/
  | unwritable (path : Path) (cause : StorageFault)
  /-- A text template could not be read. -/
  | unreadableTemplate (path : Path) (cause : StorageFault)
  /-- The model template is not a model. -/
  | badModelTemplate (error : ModelError)
  /-- The model template holds no geometry. -/
  | noTemplateGeometry
  /-- The model template has no bone for the cubes. -/
  | noTemplateBone
  /-- An id is no name for a file. -/
  | unsafeId (id : String)

/-- The bone of the model template that receives the cubes of a body. -/
def templateBone : String := "model"

namespace EmitError

/-- The words of an error without those of its cause in the system. -/
def headline : EmitError → String
  | unwritable path _ => s!"failed to write {path.text}"
  | unreadableTemplate path _ => s!"failed to read template {path.text}"
  | badModelTemplate error => s!"invalid geometry template: {error.headline}"
  | noTemplateGeometry => "geometry template has no geometry definition"
  | noTemplateBone => s!"geometry template has no `{templateBone}` bone"
  | unsafeId id => s!"`{id}` cannot be used as a file name"

/-- The words of an error. -/
def message : EmitError → String
  | unwritable path cause => s!"failed to write {path.text}: {cause.message}"
  | unreadableTemplate path cause => s!"failed to read template {path.text}: {cause.message}"
  | badModelTemplate error => s!"invalid geometry template: {error.message}"
  | other => other.headline

end EmitError

end PhysicsPrefab
