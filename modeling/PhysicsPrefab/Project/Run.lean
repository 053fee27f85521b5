import PhysicsPrefab.Config.Basic
import PhysicsPrefab.Prefab.Compilation
import PhysicsPrefab.Prefab.Written
import PhysicsPrefab.Project.Pool
import PhysicsPrefab.Project.Sources

/-!
# Runs

A run finds the sources of a project, reads and compiles them, makes all artifacts, writes them
and removes the sources. Everything is read and made before the first write, and everything is
written before the first source is removed, so a run that fails removes nothing, unless it is the
removing that fails. Sources are read and prefabs are written by pools of workers; the notices of
what they read and write are not told.
-/

namespace PhysicsPrefab

/-- Why a run failed. -/
inductive RunError where
  /-- The settings could not be used. -/
  | config (error : ConfigError)
  /-- A source could not be loaded. -/
  | model (error : ModelError)
  /-- An artifact could not be made or written. -/
  | emit (error : EmitError)
  /-- A directory could not be listed or a source not be removed. -/
  | storage (path : Path) (cause : StorageFault)

namespace RunError

/-- The words of an error without those of its cause in the system. -/
def headline : RunError → String
  | config error => error.headline
  | model error => error.headline
  | emit error => error.headline
  | storage path _ => path.text

/-- The words of an error. -/
def message : RunError → String
  | config error => error.message
  | model error => error.message
  | emit error => error.message
  | storage path cause => s!"{path.text}: {cause.message}"

end RunError

/-- Whether a run may change anything. -/
inductive RunMode where
  /-- Artifacts are written and sources removed. -/
  | write
  /-- Everything is made and nothing is written or removed. -/
  | check
deriving DecidableEq, Repr

/-- What a run did. -/
structure RunReport where
  /-- The sources that were compiled. -/
  compiled : List Path
  /-- The sources without any part in the physics, which are left alone. -/
  ignored : List Path
  /-- The names of the prefabs. -/
  prefabs : List String
  /-- The constraints that were left out. -/
  skipped : List SkippedConstraint
  /-- All artifacts that were made, written or not. -/
  artifacts : List Path
  /-- The artifacts that were written. -/
  written : List Path
  /-- The sources that were removed. -/
  deleted : List Path

namespace RunReport

/-- The report of a run that found nothing to do. -/
def empty : RunReport := ⟨[], [], [], [], [], [], []⟩

end RunReport

namespace Run

variable {m : Type → Type} [Monad m] [Storage m] [Journal m]

/-- A step of a run. -/
abbrev Step (m : Type → Type) := ExceptT RunError m

/-- Tell something on the way. -/
def note (level : Level) (text : String) : Step m Unit :=
  ExceptT.lift (Journal.note level text)

/-- An answer about files as a step that may fail. -/
def attempt {α ε : Type} (wrap : ε → RunError) (answer : m (Except ε α)) : Step m α :=
  ExceptT.mk (return (← answer).mapError wrap)

/-- Read all sources; if some cannot be loaded, the first of them counts. -/
def readSources (schedule : Pool.Schedule) (sources : List Path) : Step m (List (Model Float)) :=
  attempt .model do
    let results ← Pool.runJobs schedule
      (fun path => return (← Model.load path).value) (sources.map ([·]))
    return Pool.collect results

/-- What came of the sources of a project. -/
structure Compiled where
  /-- The sources that were compiled. -/
  sources : List Path
  /-- The sources that were ignored. -/
  ignored : List Path
  /-- What was compiled. -/
  compilation : Compilation

/-- Compile the sources that have a part in the physics, in order. -/
def compileSources : List (Path × Model Float) → Compiled → Noted Compiled
  | [], compiled => return compiled
  | (path, model) :: rest, compiled =>
    if model.hasBonesUnder [bodyParent, constraintParent] then do
      let compilation ← compiled.compilation.addModel model
      compileSources rest { compiled with sources := compiled.sources ++ [path], compilation }
    else do
      Noted.note .warn
        s!"{path.shown} has no `{bodyParent}` or `{constraintParent}` bones, skipping"
      compileSources rest { compiled with ignored := compiled.ignored ++ [path] }

/-- Write one artifact under the root, making the directories above it. -/
def writeArtifact (root : Path) (artifact : Artifact) : m (Except EmitError Path) := do
  let path := root.join artifact.path
  match path.parent? with
  | none => write path
  | some directory =>
    match ← Storage.makeDirectories directory with
    | .error cause => return .error (.unwritable directory cause)
    | .ok () => write path
where
  /-- Write the file itself. -/
  write (path : Path) : m (Except EmitError Path) := do
    match ← Storage.writeText path artifact.contents with
    | .error cause => return .error (.unwritable path cause)
    | .ok () => return .ok path

/-- Write artifacts one after the other and tell of each; what has been written before a failure
stays. -/
def writeArtifacts (root : Path) : List Artifact → m (Except EmitError (List Path))
  | [] => return .ok []
  | artifact :: rest => do
    match ← writeArtifact root artifact with
    | .error error => return .error error
    | .ok path =>
      Journal.note .debug s!"wrote {path.shown}"
      return (← writeArtifacts root rest).map (path :: ·)

/-- Make a directory for artifacts. -/
def ensureDirectory (path : Path) : m (Except EmitError Unit) :=
  return (← Storage.makeDirectories path).mapError (.unwritable path)

/-- The place of a file, by which two paths to it are known to be the same. -/
def place (path : Path) : m Path := return (← Storage.canonical path).getD path

/-- Remove the compiled sources, except those that an artifact has been written over. -/
def removeSources (outputs : List Path) : List Path → Step m (List Path)
  | [] => return []
  | source :: rest => do
    if outputs.contains (← ExceptT.lift (place source)) then
      note .debug s!"{source.shown} was overwritten by an output, not deleting"
      removeSources outputs rest
    else
      attempt (.storage source) (Storage.removeFile source)
      note .debug s!"deleted {source.shown}"
      return source :: (← removeSources outputs rest)

/-- What a run has made before it changes anything. -/
structure Plan where
  /-- What came of the sources. -/
  compiled : Compiled
  /-- The artifacts of each prefab. -/
  artifacts : List (List Artifact)
  /-- The artifact that imports all scripts. -/
  index : Artifact

/-- The report of a run that has changed nothing. -/
def Plan.report (plan : Plan) (root : Path) : RunReport where
  compiled := plan.compiled.sources
  ignored := plan.compiled.ignored
  prefabs := plan.compiled.compilation.prefabs.map (·.id)
  skipped := plan.compiled.compilation.skipped
  artifacts := (plan.artifacts.flatten ++ [plan.index]).map fun artifact => root.join artifact.path
  written := []
  deleted := []

/-- Read the sources in a directory and make all artifacts. -/
def plan (schedule : Pool.Schedule) (root : Path) (config : Config) (directory : Path) :
    Step m Plan := do
  let sources ← attempt (fun (path, cause) => .storage path cause) (Sources.discover directory)
  note .debug s!"found {sources.length} source files under {directory.shown}"
  let models ← readSources schedule sources
  let compiled ← ExceptT.lift
    (compileSources (sources.zip models) ⟨[], [], Compilation.empty⟩).publish
  for prefab in compiled.compilation.prefabs do
    note .debug ("compiled " ++ prefab.toValue.text)
  let templates ← attempt .emit (Templates.load
    (config.templates.behavior.map root.join) (config.templates.appearance.map root.join)
    (config.templates.geometry.map root.join)).run
  let emitter : Emitter := ⟨config.layout, templates, config.defaultMass⟩
  let artifacts ← attempt .emit
    (compiled.compilation.prefabs.mapM emitter.prefabArtifacts).run.publish
  unless compiled.compilation.skipped.isEmpty do
    note .warn
      s!"{compiled.compilation.skipped.length} constraint(s) could not be built and were left out"
  return ⟨compiled, artifacts, emitter.indexArtifact compiled.compilation.prefabs⟩

/-- Write all artifacts, the index last. -/
def writePlan (schedule : Pool.Schedule) (root : Path) (layout : OutputLayout) (plan : Plan) :
    Step m (List Path) := do
  for directory in layout.directories do
    attempt .emit (ensureDirectory (root.join directory))
  let results ← ExceptT.lift (Pool.runJobs schedule (writeArtifact root) plan.artifacts)
  let written ← attempt .emit (return Pool.collect results)
  let index ← attempt .emit (writeArtifacts root [plan.index])
  return written ++ index

/-- Remove the compiled sources of a plan, unless they are to be kept. -/
def removePlanned (keep : Bool) (sources written : List Path) : Step m (List Path) := do
  if keep then
    note .debug "keeping sources"
    return []
  else
    let outputs ← ExceptT.lift (written.mapM place)
    removeSources outputs sources

/-- Run on a project. -/
def run (schedule : Pool.Schedule) (root : Path) (config : Config) (mode : RunMode) :
    Step m RunReport := do
  let directory := root.join config.sourceDirectory
  if !(← ExceptT.lift (Storage.isDirectory directory)) then
    note .warn s!"source directory {directory.shown} does not exist, nothing to compile"
    return RunReport.empty
  let plan ← plan schedule root config directory
  let report := plan.report root
  match mode with
  | .check =>
    note .info s!"checked {report.prefabs.length} prefab(s) from {report.compiled.length} source(s), {report.artifacts.length} artifact(s) would be written"
    return report
  | .write =>
    let written ← writePlan schedule root config.layout plan
    let deleted ← removePlanned config.keepSources report.compiled written
    note .info s!"compiled {report.prefabs.length} prefab(s) from {report.compiled.length} source(s): wrote {written.length} file(s), deleted {deleted.length}"
    return { report with written, deleted }

end Run

end PhysicsPrefab
