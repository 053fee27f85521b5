import PhysicsPrefab.Files.Storage
import PhysicsPrefab.Model.Reader

/-!
# Loading models

A model is read from a file, or from a text that carries the name of a file for messages.
-/

namespace PhysicsPrefab

/-- Why a model could not be loaded. -/
inductive ModelError where
  /-- The file could not be read. -/
  | unreadable (path : Path) (cause : StorageFault)
  /-- The text is not that of a model. -/
  | malformed (path : Path) (fault : Json.Fault)

namespace ModelError

/-- The words of an error without those of its cause in the system. -/
def headline : ModelError → String
  | unreadable path _ => s!"failed to read model {path.text}"
  | malformed path fault =>
    let detail := fault.detail
    if detail.isEmpty then s!"malformed model {path.text}"
    else s!"malformed model {path.text}: {detail}"

/-- The words of an error. -/
def message : ModelError → String
  | unreadable path cause => s!"failed to read model {path.text}: {cause.message}"
  | other => other.headline

end ModelError

/-- The model in a text that stands for a file. -/
def Model.ofText (path : Path) (text : String) : ExceptT ModelError Noted (Model Float) := do
  match Model.parse text with
  | .error fault => throw (.malformed path fault)
  | .ok model =>
    Noted.note .debug s!"loaded {path.shown}: {model.geometries.length} geometry definition(s)"
    return model

/-- The model in a file. -/
def Model.load {m : Type → Type} [Monad m] [Storage m] (path : Path) :
    m (Noted (Except ModelError (Model Float))) := do
  match ← Storage.readText path with
  | .error cause => return ⟨[], .error (.unreadable path cause)⟩
  | .ok text => return (Model.ofText path text).run

end PhysicsPrefab
