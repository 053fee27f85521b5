import PhysicsPrefab.Files.Path

/-!
# Command line arguments

The arguments are read from the left. Flags may be given once each and in any order, short ones
also together; two flags take a value, after an equals sign or as the next argument. Help and
version win as soon as they are read, so only what stands before them can be wrong; what is
missing or in conflict is found when all arguments have been read.
-/

namespace PhysicsPrefab

/-- What the user asks for. -/
structure RunOptions where
  /-- The directory of the project. -/
  root : Option Path
  /-- The file of the settings. -/
  config : Option Path
  /-- Sources stay after the run. -/
  keepSources : Bool
  /-- Nothing is written or removed. -/
  check : Bool
  /-- Everything is told. -/
  verbose : Bool
  /-- Only warnings are told. -/
  quiet : Bool
deriving DecidableEq, Repr

/-- Nothing is asked for. -/
def RunOptions.none : RunOptions := ⟨.none, .none, false, false, false, false⟩

/-- What the arguments mean. -/
inductive Invocation where
  /-- A run with these options. -/
  | run (options : RunOptions)
  /-- The help text. -/
  | help
  /-- The version. -/
  | version
  /-- The arguments are wrong. -/
  | misuse
deriving DecidableEq, Repr

namespace Arguments

/-- A flag. -/
inductive Flag where
  | root
  | config
  | keepSources
  | check
  | verbose
  | quiet
  | help
  | version
deriving DecidableEq, Repr

/-- The flag of a long name. -/
def Flag.ofName? : String → Option Flag
  | "root" => some .root
  | "config" => some .config
  | "keep-sources" => some .keepSources
  | "check" => some .check
  | "verbose" => some .verbose
  | "quiet" => some .quiet
  | "help" => some .help
  | "version" => some .version
  | _ => none

/-- The flag of a letter. -/
def Flag.ofLetter? : Char → Option Flag
  | 'v' => some .verbose
  | 'q' => some .quiet
  | 'h' => some .help
  | 'V' => some .version
  | _ => none

/-- Whether a flag takes a value. -/
def Flag.takesValue : Flag → Bool
  | .root | .config => true
  | _ => false

/-- Options with a flag set that takes no value; there is an invocation in their place if the flag
ends the reading. -/
def set (options : RunOptions) : Flag → Except Invocation RunOptions
  | .keepSources =>
    if options.keepSources then .error .misuse else .ok { options with keepSources := true }
  | .check => if options.check then .error .misuse else .ok { options with check := true }
  | .verbose => if options.verbose then .error .misuse else .ok { options with verbose := true }
  | .quiet => if options.quiet then .error .misuse else .ok { options with quiet := true }
  | .help => .error .help
  | .version => .error .version
  | .root | .config => .error .misuse

/-- Options with a flag set to a value, which must not be empty. -/
def setValue (options : RunOptions) (flag : Flag) (value : String) : Except Invocation RunOptions :=
  if value.isEmpty then .error .misuse
  else match flag, options.root, options.config with
    | .root, .none, _ => .ok { options with root := some ⟨value⟩ }
    | .config, _, .none => .ok { options with config := some ⟨value⟩ }
    | _, _, _ => .error .misuse

/-- Options with the flags of some letters set, one after the other. -/
def setLetters (options : RunOptions) : List Char → Except Invocation RunOptions
  | [] => .ok options
  | letter :: rest => do
    match Flag.ofLetter? letter with
    | some flag => setLetters (← set options flag) rest
    | none => .error .misuse

/-- What an argument looks like. -/
inductive Shape where
  /-- Two dashes alone: no flags follow. -/
  | separator
  /-- A long flag, maybe with a value. -/
  | long (name : List Char) (value : Option (List Char))
  /-- The letters of short flags. -/
  | letters (letters : List Char)
  /-- Anything else. -/
  | plain

/-- The shape of an argument. -/
def Shape.of (argument : String) : Shape :=
  match argument.toList with
  | ['-', '-'] => .separator
  | '-' :: '-' :: rest =>
    let name := rest.takeWhile (· ≠ '=')
    match rest.dropWhile (· ≠ '=') with
    | [] => .long name none
    | _ :: value => .long name (some value)
  | '-' :: letter :: rest => .letters (letter :: rest)
  | _ => .plain

/-- The options that the rest of the arguments leads to; `pending` is a flag that waits for its
value. -/
def read (options : RunOptions) (pending : Option Flag) : List String → Except Invocation RunOptions
  | [] => if pending.isSome then .error .misuse else .ok options
  | argument :: rest =>
    match Shape.of argument, pending with
    | .plain, some flag => do read (← setValue options flag argument) none rest
    | _, some _ => .error .misuse
    | .plain, none => .error .misuse
    | .separator, none => if rest.isEmpty then .ok options else .error .misuse
    | .letters letters, none => do read (← setLetters options letters) none rest
    | .long name value, none =>
      match Flag.ofName? (String.ofList name), value with
      | none, _ => .error .misuse
      | some flag, none =>
        if flag.takesValue then read options (some flag) rest
        else do read (← set options flag) none rest
      | some flag, some value =>
        if flag.takesValue then do
          read (← setValue options flag (String.ofList value)) none rest
        else .error .misuse

/-- What the arguments mean. Asking for everything and for warnings only is a conflict. -/
def invocation (arguments : List String) : Invocation :=
  match read RunOptions.none none arguments with
  | .error invocation => invocation
  | .ok options => if options.verbose && options.quiet then .misuse else .run options

end Arguments

end PhysicsPrefab
