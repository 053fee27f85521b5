import PhysicsPrefab.CommandLine.Arguments
import PhysicsPrefab.Project.Run

/-!
# Execution of the program

What an invocation does on any storage, the notices that it lets through, and its exit code.
-/

namespace PhysicsPrefab

/-- The least important notices that options let through. -/
def RunOptions.level (options : RunOptions) : Level :=
  if options.verbose then .debug else if options.quiet then .warn else .info

/-- The variable of the environment that names the directory of the project. -/
def rootVariable : String := "PHYSICS_PREFAB_ROOT"

namespace Execution

variable {m : Type → Type} [Monad m] [Storage m] [Journal m]

/-- Whether a path leads anywhere. -/
def leadsSomewhere (path : Path) : m Bool := do
  if ← Storage.isDirectory path then return true
  else Storage.isFile path

/-- The directory of the project: the one asked for, else the one that the environment names if
it is there, else the current one. -/
def projectRoot (explicit : Option Path) (environment : Option String) (current : Path) :
    m Path := do
  match explicit, environment with
  | some path, _ => return path
  | none, some text =>
    if text.isEmpty then return current
    else if ← leadsSomewhere ⟨text⟩ then return ⟨text⟩
    else return current
  | none, none => return current

/-- Settle the configuration, run on the project and tell what was left out. -/
def compile (options : RunOptions) (environment : Option String) (current : Path) :
    ExceptT RunError m Unit := do
  let root ← ExceptT.lift (projectRoot options.root environment current)
  Run.note .info s!"project root {root.shown} (override with --root or {rootVariable})"
  let config ← Run.attempt .config (Config.discover root options.config)
  let config := { config with keepSources := config.keepSources || options.keepSources }
  let mode := if options.check then RunMode.check else .write
  let report ← Run.run Pool.Schedule.sequential root config mode
  for skipped in report.skipped do
    Run.note .info
      s!"skipped {skipped.prefabId}.{skipped.constraint}: {skipped.reason.message}"

/-- Run as the options ask; the exit code says whether it went well. -/
def execute (options : RunOptions) (environment : Option String) (current : Path) : m UInt32 := do
  match ← (compile options environment current).run with
  | .ok () => return 0
  | .error error =>
    Journal.note .error error.message
    return 1

/-- The exit code of wrong arguments. -/
def misuseCode : UInt32 := 2

end Execution

end PhysicsPrefab
