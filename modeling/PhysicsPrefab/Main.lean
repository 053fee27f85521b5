import PhysicsPrefab.CommandLine.Execution

/-!
# The program

The program on the real files: it reads its arguments and the environment, tells its notices on
the standard output and ends with an exit code.
-/

namespace PhysicsPrefab

/-- A program on the real files that tells notices from a level on. -/
abbrev Console := ReaderT Level IO

namespace Console

/-- The fault that an exception of the system stands for. -/
def faultOf : IO.Error → StorageFault
  | .noFileOrDirectory _ _ _ => .missing
  | .inappropriateType _ _ _ => .notADirectory
  | .alreadyExists _ _ _ => .occupied
  | .permissionDenied _ _ _ => .denied
  | error => .other error.toString

/-- The answer of an action on files, its exception turned into a fault. -/
def attempt {α : Type} (action : IO α) : Console (Except StorageFault α) := do
  try
    return .ok (← action)
  catch error => return .error (faultOf error)

/-- What a path leads to, if there is something. -/
def kindOf (path : Path) : Console (Option IO.FS.FileType) := do
  let found ← attempt do return (← (← IO.FS.realPath path.text).metadata).type
  return found.toOption

/-- What a directory holds; a link is not followed. -/
def entriesOf (path : Path) : Console (Except StorageFault (List (Path × IO.FS.FileType))) :=
  attempt do
    let entries ← (← IO.FS.realPath path.text).readDir
    entries.toList.mapM fun entry => do
      return (path.join ⟨entry.fileName⟩, (← entry.path.symlinkMetadata).type)

/-- All files in a directory and below it. -/
partial def filesBelow (path : Path) : Console (Except (Path × StorageFault) (List Path)) := do
  match ← entriesOf path with
  | .error fault => return .error (path, fault)
  | .ok entries =>
    let mut files := []
    for (inner, kind) in entries do
      if kind == .dir then
        match ← filesBelow inner with
        | .error failure => return .error failure
        | .ok found => files := files ++ found
      else files := files ++ [inner]
    return .ok files

end Console

instance : Storage Console where
  isDirectory path := return (← Console.kindOf path) == some .dir
  isFile path := return (← Console.kindOf path) == some .file
  filesBelow := Console.filesBelow
  readText path := Console.attempt (IO.FS.readFile path.text)
  makeDirectories path := Console.attempt (IO.FS.createDirAll path.text)
  writeText path text := Console.attempt (IO.FS.writeFile path.text text)
  removeFile path := Console.attempt (IO.FS.removeFile path.text)
  canonical path := do
    match ← Console.attempt (IO.FS.realPath path.text) with
    | .ok place => return some ⟨place.toString⟩
    | .error _ => return none

instance : Journal Console where
  tell notice := do
    if notice.level.atLeast (← read) then IO.println notice.line

/-- How the program is used. -/
def usage : String := String.intercalate "\n" [
  "Compile physics prefab models into add-on files",
  "",
  "Options:",
  "      --root <ROOT>      Add-on project root",
  "      --config <CONFIG>  Config file to use instead of prefabs.toml in the project root",
  "      --keep-sources     Leave source models in place after a successful run",
  "      --check            Compile and report without writing or deleting anything",
  "  -v, --verbose          Tell everything",
  "  -q, --quiet            Tell warnings only",
  "  -h, --help             Print help",
  "  -V, --version          Print version"]

end PhysicsPrefab

open PhysicsPrefab in
/-- Run the program with its arguments. -/
def main (arguments : List String) : IO UInt32 := do
  match Arguments.invocation arguments with
  | .help =>
    IO.println usage
    return 0
  | .version =>
    IO.println "0.1.0"
    return 0
  | .misuse =>
    IO.eprintln usage
    return Execution.misuseCode
  | .run options =>
    let environment ← IO.getEnv rootVariable
    let current : Path := ⟨(← IO.currentDir).toString⟩
    (Execution.execute options environment current : Console UInt32).run options.level
