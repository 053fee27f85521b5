import PhysicsPrefab.Config.Toml
import PhysicsPrefab.Emit.Emitter

/-!
# Settings of a project

A project may say where its sources are, where its artifacts go, what bodies weigh by default,
whether sources are kept and which templates are used. What it does not say has a default; what
it says must be a known setting of the right kind, said once.
-/

namespace PhysicsPrefab

/-- The files that replace built-in templates. -/
structure TemplatePaths where
  behavior : Option Path
  appearance : Option Path
  geometry : Option Path
deriving DecidableEq, Repr

namespace TemplatePaths

/-- No replacements. -/
def none : TemplatePaths := ⟨.none, .none, .none⟩

/-- The paths with the template of a name replaced; there is nothing if the name is not known or
its template is replaced already. -/
def set? (paths : TemplatePaths) (name : String) (path : Path) : Option TemplatePaths :=
  match name, paths with
  | "behavior", ⟨.none, _, _⟩ => some { paths with behavior := some path }
  | "appearance", ⟨_, .none, _⟩ => some { paths with appearance := some path }
  | "geometry", ⟨_, _, .none⟩ => some { paths with geometry := some path }
  | _, _ => .none

end TemplatePaths

/-- The settings of a project. Every path is relative to the project. -/
structure Config where
  /-- Where the source models are. -/
  sourceDirectory : Path
  /-- Where the artifacts go. -/
  layout : OutputLayout
  /-- The mass of a body that sets none. -/
  defaultMass : Float
  /-- Whether sources stay after a run. -/
  keepSources : Bool
  /-- The files that replace built-in templates. -/
  templates : TemplatePaths

/-- The settings of a project that says nothing. -/
def Config.default : Config where
  sourceDirectory := ⟨"RP/models/entity/physics/prefabs"⟩
  layout := OutputLayout.default
  defaultMass := Script.defaultMass
  keepSources := false
  templates := TemplatePaths.none

/-- Why settings could not be used. -/
inductive ConfigError where
  /-- The file could not be read. -/
  | unreadable (path : Path) (cause : StorageFault)
  /-- The text is malformed, or says something that is no setting. -/
  | malformed (path : Path)
  /-- The default mass is negative or not finite. -/
  | invalidMass (mass : Float)

namespace ConfigError

/-- The words of an error without those of its cause in the system. -/
def headline : ConfigError → String
  | unreadable path _ => s!"failed to read config {path.text}"
  | malformed path => s!"invalid config {path.text}"
  | invalidMass mass =>
    s!"default_mass must be a finite, non-negative number, got {NumberStyle.plain.text mass}"

/-- The words of an error. -/
def message : ConfigError → String
  | unreadable path cause => s!"failed to read config {path.text}: {cause.message}"
  | other => other.headline

end ConfigError

/-- What the statements so far have said. -/
structure Settings where
  /-- The settings. -/
  config : Config
  /-- The top-level settings that were given. -/
  given : List String
  /-- Whether the templates are complete, so that no further statement may add to them. -/
  templatesClosed : Bool
  /-- Whether the section of the templates has begun. -/
  inTemplates : Bool

namespace Settings

/-- What has been said before the first statement. -/
def initial : Settings := ⟨Config.default, [], false, false⟩

/-- A path among the values of settings. -/
def path? : Toml.Value → Option Path
  | .string text => some ⟨text⟩
  | _ => none

/-- A number among the values of settings. -/
def number? : Toml.Value → Option Float
  | .integer value => some (Int64.ofInt value).toFloat
  | .float value => some value
  | _ => none

/-- A truth value among the values of settings. -/
def boolean? : Toml.Value → Option Bool
  | .boolean value => some value
  | _ => none

/-- The configuration with one top-level setting changed. -/
def assign? (config : Config) (name : String) (value : Toml.Value) : Option Config :=
  match name with
  | "source_dir" => do return { config with sourceDirectory := ← path? value }
  | "behavior_dir" => do return { config with layout.behavior := ← path? value }
  | "appearance_dir" => do return { config with layout.appearance := ← path? value }
  | "geometry_dir" => do return { config with layout.geometry := ← path? value }
  | "script_dir" => do return { config with layout.script := ← path? value }
  | "default_mass" => do return { config with defaultMass := ← number? value }
  | "keep_sources" => do return { config with keepSources := ← boolean? value }
  | _ => none

/-- Templates given as a table. -/
def templateTable? : TemplatePaths → List (List String × Toml.Value) → Option TemplatePaths
  | paths, [] => some paths
  | paths, ([name], value) :: rest => do templateTable? (← paths.set? name (← path? value)) rest
  | _, _ :: _ => none

/-- Templates given as a list, in the order behavior, appearance, geometry; more is ignored. -/
def templateList? (items : List Toml.Value) : Option TemplatePaths := do
  match ← (items.take 3).mapM path? with
  | [] => return TemplatePaths.none
  | [behavior] => return ⟨some behavior, none, none⟩
  | [behavior, appearance] => return ⟨some behavior, some appearance, none⟩
  | behavior :: appearance :: geometry :: _ =>
    return ⟨some behavior, some appearance, some geometry⟩

/-- The settings after one more statement, if it has a place there. -/
def step? (settings : Settings) : Toml.Statement → Option Settings
  | .section ["templates"] =>
    if settings.templatesClosed || settings.given.contains "templates" then none
    else some { settings with
      given := "templates" :: settings.given, templatesClosed := true, inTemplates := true }
  | .section _ | .repeated _ => none
  | .assign [name] value =>
    if settings.inTemplates then do
      let templates ← settings.config.templates.set? name (← path? value)
      return { settings with config.templates := templates }
    else if settings.given.contains name then none
    else do
      let config ← match name, value with
        | "templates", .table entries =>
          (templateTable? TemplatePaths.none entries).map ({ settings.config with templates := · })
        | "templates", .array items =>
          (templateList? items).map ({ settings.config with templates := · })
        | _, _ => assign? settings.config name value
      return { settings with
        config
        given := name :: settings.given
        templatesClosed := settings.templatesClosed || name == "templates" }
  | .assign ["templates", name] value =>
    if settings.inTemplates || settings.templatesClosed then none
    else do
      let templates ← settings.config.templates.set? name (← path? value)
      return { settings with
        config.templates := templates
        given := if settings.given.contains "templates" then settings.given
          else "templates" :: settings.given }
  | .assign _ _ => none

/-- The settings after all statements. -/
def run? : Settings → List Toml.Statement → Option Settings
  | settings, [] => some settings
  | settings, statement :: rest => do (← settings.step? statement).run? rest

end Settings

namespace Config

/-- The configuration that a text says, if it is well formed and says only settings. -/
def ofText? (text : String) : Option Config := do
  return (← Settings.initial.run? (← Toml.parse text)).config

/-- The configuration in the text of a file. -/
def parse (path : Path) (text : String) : Except ConfigError Config :=
  match ofText? text with
  | none => .error (.malformed path)
  | some config =>
    if !config.defaultMass.isFinite || config.defaultMass < 0.0 then
      .error (.invalidMass config.defaultMass)
    else .ok config

/-- The file that holds the settings, in the directory of the project. -/
def fileName : Path := ⟨"prefabs.toml"⟩

variable {m : Type → Type} [Monad m] [Storage m] [Journal m]

/-- The configuration in a file. -/
def load (path : Path) : m (Except ConfigError Config) := do
  match ← Storage.readText path with
  | .error cause => return .error (.unreadable path cause)
  | .ok text => return parse path text

/-- The configuration of a project: that of an explicit file, else that of the file in its
directory, else the default. -/
def discover (root : Path) (explicit : Option Path) : m (Except ConfigError Config) := do
  match explicit with
  | some path => load path
  | none =>
    let path := root.join fileName
    if ← Storage.isFile path then
      Journal.note .debug s!"using config {path.shown}"
      load path
    else return .ok default

end Config

end PhysicsPrefab
