import PhysicsPrefab.Json.Token
import PhysicsPrefab.Json.Value
import PhysicsPrefab.NameMap

/-!
# Documents

The tokens of a data file are put together into a tree by a machine with a stack of open arrays
and objects. When it meets a token that has no place, it stops and closes what is open, marking
each such array and object as cut short. A typed reader can then walk the tree in document order
and report the first fault it comes to, whether that is wrong data or the malformed place.
-/

namespace PhysicsPrefab.Json

/-- What was read of one value of a file. -/
inductive Node where
  | null
  | boolean (value : Bool)
  | number (value : Number)
  | string (value : String)
  /-- An array; unless `closed`, its next item or its end is malformed. -/
  | array (items : List Node) (closed : Bool)
  /-- An object; unless `closed`, its last member is cut short, or its next key or its end is
  malformed. -/
  | object (members : List (String × Node)) (closed : Bool)
  /-- Nothing could be read. -/
  | malformed

/-- What was read of a file. -/
structure Document where
  /-- The value of the file. -/
  root : Node
  /-- Whether anything but blanks follows the value. -/
  trailing : Bool

/-- An array or object that is still open, with what it holds in reverse. -/
inductive Frame where
  /-- An array with its items. -/
  | array (items : List Node)
  /-- An object with its members, and the key whose value is to come. -/
  | object (members : List (String × Node)) (key : Option String)

/-- What may come next. -/
inductive Expect where
  /-- A value. -/
  | value
  /-- The first item of an array or its end. -/
  | firstItem
  /-- A comma or the end of an array. -/
  | itemEnd
  /-- The first key of an object or its end. -/
  | firstKey
  /-- A key. -/
  | key
  /-- The colon after a key. -/
  | colon
  /-- A comma or the end of an object. -/
  | memberEnd
deriving DecidableEq, Repr

/-- The machine between two tokens. -/
inductive Build where
  /-- Inside the value of the file: the open arrays and objects, innermost first. -/
  | inside (frames : List Frame) (expect : Expect)
  /-- After the value of the file, or after a malformed place. -/
  | done (document : Document)

namespace Build

/-- How many arrays and objects may be open at once. -/
def depthLimit : Nat := 127

/-- Close an open array or object that was cut short. -/
def cutShort : Frame → Node
  | .array items => .array items.reverse false
  | .object members none => .object members.reverse false
  | .object members (some key) => .object ((key, .malformed) :: members).reverse false

/-- Close all that is open around a value that was cut short. -/
def closeAll (inner : Node) : List Frame → Node
  | [] => inner
  | .array items :: outer => closeAll (.array (inner :: items).reverse false) outer
  | .object members none :: outer => closeAll (.object members.reverse false) outer
  | .object members (some key) :: outer =>
    closeAll (.object ((key, inner) :: members).reverse false) outer

/-- Stop at a malformed place. -/
def stop : List Frame → Build
  | [] => .done ⟨.malformed, false⟩
  | frame :: outer => .done ⟨closeAll (cutShort frame) outer, false⟩

/-- Put a complete value where it belongs. -/
def place (value : Node) : List Frame → Build
  | [] => .done ⟨value, false⟩
  | .array items :: outer => .inside (.array (value :: items) :: outer) .itemEnd
  | .object members (some key) :: outer =>
    .inside (.object ((key, value) :: members) none :: outer) .memberEnd
  | frames@(.object _ none :: _) => stop frames

/-- Open an array or object, unless too many are open. -/
def push (frame : Frame) (expect : Expect) (frames : List Frame) : Build :=
  if frames.length < depthLimit then .inside (frame :: frames) expect else stop frames

/-- A token where a value may stand. -/
def value (frames : List Frame) : Token → Build
  | .null => place .null frames
  | .boolean value => place (.boolean value) frames
  | .number value => place (.number value) frames
  | .string value => place (.string value) frames
  | .openArray => push (.array []) .firstItem frames
  | .openObject => push (.object [] none) .firstKey frames
  | .closeArray | .closeObject | .comma | .colon | .malformed => stop frames

/-- A token where a key must stand. -/
def key : List Frame → Token → Build
  | .object members none :: outer, .string name =>
    .inside (.object members (some name) :: outer) .colon
  | frames, _ => stop frames

/-- The end of the innermost array. -/
def endArray : List Frame → Build
  | .array items :: outer => place (.array items.reverse true) outer
  | frames => stop frames

/-- The end of the innermost object. -/
def endObject : List Frame → Build
  | .object members none :: outer => place (.object members.reverse true) outer
  | frames => stop frames

/-- The machine after one token. -/
def step : Build → Token → Build
  | .done document, _ => .done { document with trailing := true }
  | .inside frames .value, token => value frames token
  | .inside frames .firstItem, .closeArray => endArray frames
  | .inside frames .firstItem, token => value frames token
  | .inside frames .itemEnd, .comma => .inside frames .value
  | .inside frames .itemEnd, .closeArray => endArray frames
  | .inside frames .itemEnd, _ => stop frames
  | .inside frames .firstKey, .closeObject => endObject frames
  | .inside frames .firstKey, token => key frames token
  | .inside frames .key, token => key frames token
  | .inside frames .colon, .colon => .inside frames .value
  | .inside frames .colon, _ => stop frames
  | .inside frames .memberEnd, .comma => .inside frames .key
  | .inside frames .memberEnd, .closeObject => endObject frames
  | .inside frames .memberEnd, _ => stop frames

/-- The document when the text has ended; a value that is still open is cut short. -/
def finish : Build → Document
  | .done document => document
  | .inside frames _ =>
    match stop frames with
    | .done document => document
    | .inside _ _ => ⟨.malformed, false⟩

end Build

namespace Document

/-- The document of a list of tokens. -/
def ofTokens (tokens : List Token) : Document :=
  (tokens.foldl Build.step (.inside [] .value)).finish

/-- The document of a text. -/
def ofText (text : String) : Document := ofTokens (Token.ofText text)

end Document

mutual

/-- The value of a tree without malformed places; of a repeated key the last value is kept. -/
def Node.value? : Node → Option Value
  | .null => some .null
  | .boolean value => some (.boolean value)
  | .number value => some (.number value)
  | .string value => some (.string value)
  | .array items closed => if closed then (Node.values? items).map .array else none
  | .object members closed =>
    if closed then (Node.entries? members).map fun entries =>
      .object (NameMap.ofList entries).entries
    else none
  | .malformed => none

/-- The values of a list of trees. -/
def Node.values? : List Node → Option (List Value)
  | [] => some []
  | item :: rest => do
    let value ← item.value?
    let others ← Node.values? rest
    some (value :: others)

/-- The values of the members of an object, in document order. -/
def Node.entries? : List (String × Node) → Option (List (String × Value))
  | [] => some []
  | (name, item) :: rest => do
    let value ← item.value?
    let others ← Node.entries? rest
    some ((name, value) :: others)

end

end PhysicsPrefab.Json
