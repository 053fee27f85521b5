import PhysicsPrefab.Json.Document
import PhysicsPrefab.Text.Shown

/-!
# Typed reading

Readers turn a document into typed data. They walk it in document order and stop at the first
fault: a malformed place, or data that is well formed and not what was expected. A typed field
given twice is refused at its second key, before that key's value is looked at; a field that is
missing is noticed at the end of its object.
-/

namespace PhysicsPrefab.Json

/-- What a value is, as a message names it. -/
inductive Found where
  | null
  | boolean (value : Bool)
  | number (value : Number)
  | string (value : String)
  | sequence
  | map

/-- What a reader expected instead. -/
inductive Expected where
  | string
  | number
  | sequence
  | map
  /-- Three numbers. -/
  | vector
  /-- An object with typed fields, under the name of its kind. -/
  | record (kind : String)

/-- Why a document was refused. -/
inductive Fault where
  /-- The text stops being a data file, or breaks a limit of one. -/
  | malformed
  /-- An object ends without a field that it must have. -/
  | missingField (field : String)
  /-- A typed field is given a second time. -/
  | duplicateField (field : String)
  /-- A value is not of the expected kind. -/
  | wrongKind (found : Found) (expected : Expected)
  /-- A vector has fewer than three numbers. -/
  | wrongLength (length : Nat)
  /-- A locator is neither a position nor an object with an offset. -/
  | notALocator

/-- Whether the text or the data is at fault. -/
inductive FaultCategory where
  | malformedText
  | wrongData
deriving DecidableEq, Repr

namespace Fault

/-- The category of a fault. -/
def category : Fault → FaultCategory
  | malformed => .malformedText
  | _ => .wrongData

end Fault

/-- A found value in words. -/
def Found.describe : Found → String
  | null => "null"
  | boolean value => s!"boolean `{value}`"
  | number (.natural value) => s!"integer `{value}`"
  | number (.negative value) => s!"integer `{value}`"
  | number (.double value) => s!"floating point `{NumberStyle.data.text value}`"
  | string value => s!"string {Shown.text value}"
  | sequence => "sequence"
  | map => "map"

/-- An expectation in words. -/
def Expected.describe : Expected → String
  | string => "a string"
  | number => "f64"
  | sequence => "a sequence"
  | map => "a map"
  | vector => "an array of length 3"
  | record kind => s!"struct {kind}"

/-- The detail of a fault in words; a malformed text has none. -/
def Fault.detail : Fault → String
  | malformed => ""
  | missingField field => s!"missing field `{field}`"
  | duplicateField field => s!"duplicate field `{field}`"
  | wrongKind found expected =>
    s!"invalid type: {found.describe}, expected {expected.describe}"
  | wrongLength length => s!"invalid length {length}, expected an array of length 3"
  | notALocator => "data did not match any variant of untagged enum Locator"

/-- A reader of one type of data. -/
abbrev Reader (α : Type) := Node → Except Fault α

namespace Reader

variable {α φ : Type}

/-- The refusal of a value that is not of the expected kind. -/
def refuse (expected : Expected) : Node → Fault
  | .null => .wrongKind .null expected
  | .boolean value => .wrongKind (.boolean value) expected
  | .number value => .wrongKind (.number value) expected
  | .string value => .wrongKind (.string value) expected
  | .array _ _ => .wrongKind .sequence expected
  | .object _ _ => .wrongKind .map expected
  | .malformed => .malformed

/-- A text. -/
def string : Reader String
  | .string value => .ok value
  | other => .error (refuse .string other)

/-- A number of any form. -/
def number : Reader Float
  | .number value => .ok value.toFloat
  | other => .error (refuse .number other)

/-- Data that may also be `null`. -/
def optional (reader : Reader α) : Reader (Option α)
  | .null => .ok none
  | other => (reader other).map some

/-- Any value at all. -/
def value : Reader Value := fun node =>
  match node.value? with
  | some value => .ok value
  | none => .error .malformed

/-- A list of data of one type. -/
def list (reader : Reader α) : Reader (List α)
  | .array items closed => do
    let values ← items.mapM reader
    if closed then .ok values else .error .malformed
  | other => .error (refuse .sequence other)

/-- Exactly three numbers. A fourth item makes the text malformed, because the end of the vector
was due. -/
def triple : Reader (Float × Float × Float)
  | .array (first :: second :: third :: rest) closed => do
    let x ← number first
    let y ← number second
    let z ← number third
    if closed && rest.isEmpty then .ok (x, y, z) else .error .malformed
  | .array items closed => do
    let values ← items.mapM number
    if closed then .error (.wrongLength values.length) else .error .malformed
  | other => .error (refuse .vector other)

/-- The members of a map in document order. -/
def members (reader : Reader α) : Reader (List (String × α))
  | .object entries closed => do
    let values ← entries.mapM fun (name, node) => return (name, ← reader node)
    if closed then .ok values else .error .malformed
  | other => .error (refuse .map other)

/-- The fields of an object in document order; `typed` are the names that may be given only
once, and `field` reads the value of a name. -/
def fields (typed : List String) (field : String → Reader φ) :
    List String → List (String × Node) → Except Fault (List φ)
  | _, [] => .ok []
  | seen, (name, node) :: rest => do
    if seen.contains name then throw (.duplicateField name)
    let first ← field name node
    let others ← fields typed field (if typed.contains name then name :: seen else seen) rest
    return first :: others

/-- An object with typed fields, which `build` puts together when its end is reached. -/
def record (kind : String) (typed : List String) (field : String → Reader φ)
    (build : List φ → Except Fault α) : Reader α
  | .object entries closed => do
    let read ← fields typed field [] entries
    if closed then build read else .error .malformed
  | other => .error (refuse (.record kind) other)

/-- A field that must be given. -/
def required (name : String) : Option α → Except Fault α
  | some value => .ok value
  | none => .error (.missingField name)

/-- Read a whole text, which may hold nothing after its value. -/
def run (reader : Reader α) (text : String) : Except Fault α := do
  let document := Document.ofText text
  let result ← reader document.root
  if document.trailing then .error .malformed else .ok result

end Reader

end PhysicsPrefab.Json
