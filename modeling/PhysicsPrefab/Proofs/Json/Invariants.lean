import Mathlib.Data.List.Basic
import PhysicsPrefab.Json.Document

/-!
# What holds of all documents

The machine that puts a document together makes arrays and objects of what it has read before, and
never has too much open at once. So a property of trees holds of every document if simple values have
it and arrays and objects have it whenever all that they hold does (`Build.IsInvariant`,
`Document.holds_ofText`).
-/

namespace PhysicsPrefab.Json

/-- What an open array or object holds. -/
def Frame.parts : Frame → List Node
  | array items => items
  | object members _ => members.map (·.2)

namespace Build

/-- A property of trees, given how many arrays and objects are open around them, that holds of all
that is put together of proper numbers. -/
structure IsInvariant (proper : Number → Prop) (holds : Nat → Node → Prop) : Prop where
  /-- It holds of `null`. -/
  null : ∀ {level}, level ≤ depthLimit → holds level .null
  /-- It holds of truth values. -/
  boolean : ∀ {level}, level ≤ depthLimit → ∀ value, holds level (.boolean value)
  /-- It holds of proper numbers. -/
  number : ∀ {level}, level ≤ depthLimit → ∀ {value}, proper value → holds level (.number value)
  /-- It holds of texts. -/
  string : ∀ {level}, level ≤ depthLimit → ∀ value, holds level (.string value)
  /-- It holds where nothing could be read. -/
  malformed : ∀ {level}, level ≤ depthLimit → holds level .malformed
  /-- It holds of an array if it does of its items. -/
  array : ∀ {level}, level < depthLimit → ∀ {items closed},
    (∀ item ∈ items, holds (level + 1) item) → holds level (.array items closed)
  /-- It holds of an object if it does of its members. -/
  object : ∀ {level}, level < depthLimit → ∀ {members closed},
    (∀ member ∈ members, holds (level + 1) member.2) → holds level (.object members closed)

/-- Whether a property holds of what is open, and not too much is open. -/
def HoldsInside (holds : Nat → Node → Prop) : List Frame → Prop
  | [] => True
  | frame :: outer => (∀ part ∈ frame.parts, holds (outer.length + 1) part) ∧
    outer.length < depthLimit ∧ HoldsInside holds outer

/-- Whether a property holds of what the machine has put together. -/
def Holds (holds : Nat → Node → Prop) : Build → Prop
  | inside frames _ => HoldsInside holds frames
  | done document => holds 0 document.root

variable {proper : Number → Prop} {holds : Nat → Node → Prop} {frames : List Frame}

/-- No more is open than may be. -/
theorem HoldsInside.length_le (isHeld : HoldsInside holds frames) : frames.length ≤ depthLimit := by
  cases frames with
  | nil => exact Nat.zero_le _
  | cons frame outer => exact isHeld.2.1

namespace IsInvariant

variable (invariant : IsInvariant proper holds)

include invariant

/-- The property holds of an array that is closed. -/
theorem of_array {items : List Node} {closed : Bool} {outer : List Frame}
    (inRange : outer.length < depthLimit) (each : ∀ item ∈ items, holds (outer.length + 1) item) :
    holds outer.length (.array items.reverse closed) :=
  invariant.array inRange fun item member => each item (List.mem_reverse.1 member)

/-- The property holds of an object that is closed. -/
theorem of_object {members : List (String × Node)} {closed : Bool} {outer : List Frame}
    (inRange : outer.length < depthLimit)
    (each : ∀ part ∈ members.map (·.2), holds (outer.length + 1) part) :
    holds outer.length (.object members.reverse closed) :=
  invariant.object inRange fun member inside =>
    each member.2 (List.mem_map_of_mem (List.mem_reverse.1 inside))

/-- The property is kept when all that is open is closed. -/
theorem closeAll {inner : Node} (isHeld : HoldsInside holds frames)
    (here : holds frames.length inner) : holds 0 (closeAll inner frames) := by
  induction frames generalizing inner with
  | nil => exact here
  | cons frame outer ih =>
    obtain ⟨each, inRange, outside⟩ := isHeld
    rcases frame with items | ⟨members, _ | key⟩
    case array => exact ih outside (invariant.of_array inRange (List.forall_mem_cons.2 ⟨here, each⟩))
    case object.none => exact ih outside (invariant.of_object inRange each)
    case object.some =>
      exact ih outside (invariant.of_object inRange (List.forall_mem_cons.2 ⟨here, each⟩))

/-- The property is kept when the machine stops. -/
theorem stop (isHeld : HoldsInside holds frames) : (stop frames).Holds holds := by
  cases frames with
  | nil => exact invariant.malformed (Nat.zero_le _)
  | cons frame outer =>
    obtain ⟨each, inRange, outside⟩ := isHeld
    refine invariant.closeAll outside ?_
    rcases frame with items | ⟨members, _ | key⟩
    case array => exact invariant.of_array inRange each
    case object.none => exact invariant.of_object inRange each
    case object.some =>
      have cut := @invariant.malformed (outer.length + 1) inRange
      exact invariant.of_object inRange (List.forall_mem_cons.2 ⟨cut, each⟩)

/-- The property is kept when a value is placed. -/
theorem place {value : Node} (isHeld : HoldsInside holds frames)
    (here : holds frames.length value) : (place value frames).Holds holds := by
  rcases frames with _ | ⟨items | ⟨members, _ | key⟩, outer⟩
  case nil => exact here
  case cons.array => exact ⟨List.forall_mem_cons.2 ⟨here, isHeld.1⟩, isHeld.2⟩
  case cons.object.none => exact invariant.stop isHeld
  case cons.object.some => exact ⟨List.forall_mem_cons.2 ⟨here, isHeld.1⟩, isHeld.2⟩

/-- The property is kept when an array or object is opened. -/
theorem push {frame : Frame} {expect : Expect} (isHeld : HoldsInside holds frames)
    (isEmpty : frame.parts = []) : (push frame expect frames).Holds holds := by
  rw [Build.push]
  split
  · exact ⟨by rw [isEmpty]; nofun, ‹_›, isHeld⟩
  · exact invariant.stop isHeld

/-- The property is kept when a token is taken for a value. -/
theorem value {token : Token} (isHeld : HoldsInside holds frames)
    (isProper : ∀ value, token = .number value → proper value) :
    (value frames token).Holds holds := by
  have inRange := isHeld.length_le
  cases token with
  | openArray => exact invariant.push isHeld rfl
  | openObject => exact invariant.push isHeld rfl
  | closeArray | closeObject | comma | colon | malformed => exact invariant.stop isHeld
  | null => exact invariant.place isHeld (invariant.null inRange)
  | boolean value => exact invariant.place isHeld (invariant.boolean inRange value)
  | number value => exact invariant.place isHeld (invariant.number inRange (isProper value rfl))
  | string value => exact invariant.place isHeld (invariant.string inRange value)

/-- The property is kept when a token is taken for a name. -/
theorem key (isHeld : HoldsInside holds frames) (token : Token) : (key frames token).Holds holds := by
  have stopped := invariant.stop isHeld
  rcases frames with _ | ⟨items | ⟨members, _ | name⟩, outer⟩ <;> cases token <;>
    first | exact stopped | exact isHeld

/-- The property is kept at the end of an array. -/
theorem endArray (isHeld : HoldsInside holds frames) : (endArray frames).Holds holds := by
  have stopped := invariant.stop isHeld
  rcases frames with _ | ⟨items | ⟨members, name⟩, outer⟩
  case cons.array =>
    obtain ⟨each, inRange, outside⟩ := isHeld
    exact invariant.place outside (invariant.of_array inRange each)
  all_goals exact stopped

/-- The property is kept at the end of an object. -/
theorem endObject (isHeld : HoldsInside holds frames) : (endObject frames).Holds holds := by
  have stopped := invariant.stop isHeld
  rcases frames with _ | ⟨items | ⟨members, _ | name⟩, outer⟩
  case cons.object.none =>
    obtain ⟨each, inRange, outside⟩ := isHeld
    exact invariant.place outside (invariant.of_object inRange each)
  all_goals exact stopped

/-- The property is kept by every token. -/
theorem step {build : Build} {token : Token} (isHeld : build.Holds holds)
    (isProper : ∀ value, token = .number value → proper value) : (step build token).Holds holds := by
  cases build with
  | done document => exact isHeld
  | inside frames expect =>
    have stopped := invariant.stop isHeld
    cases expect with
    | value => exact invariant.value isHeld isProper
    | key => exact invariant.key isHeld token
    | firstItem =>
      have taken := invariant.value isHeld isProper
      cases token <;> first | exact taken | exact invariant.endArray isHeld
    | firstKey =>
      have taken := invariant.key isHeld token
      cases token <;> first | exact taken | exact invariant.endObject isHeld
    | itemEnd =>
      cases token <;> first | exact stopped | exact invariant.endArray isHeld | exact isHeld
    | colon => cases token <;> first | exact stopped | exact isHeld
    | memberEnd =>
      cases token <;> first | exact stopped | exact invariant.endObject isHeld | exact isHeld

/-- The property holds of the document in the end. -/
theorem finish {build : Build} (isHeld : build.Holds holds) : holds 0 build.finish.root := by
  cases build with
  | done document => exact isHeld
  | inside frames expect =>
    have stopped := invariant.stop isHeld
    simp only [Build.finish]
    split
    · rename_i document isStopped
      rwa [isStopped] at stopped
    · exact invariant.malformed (Nat.zero_le _)

end IsInvariant

end Build

/-- A property that all that is put together has holds of the document of a text whose numbers are
proper. -/
theorem Document.holds_ofText {proper : Number → Prop} {holds : Nat → Node → Prop}
    (invariant : Build.IsInvariant proper holds) {text : String}
    (areProper : ∀ value, .number value ∈ Token.ofText text → proper value) :
    holds 0 (Document.ofText text).root := by
  have folded (tokens : List Token) (areProper : ∀ value, .number value ∈ tokens → proper value)
      {build : Build} (isHeld : build.Holds holds) : (tokens.foldl Build.step build).Holds holds := by
    induction tokens generalizing build with
    | nil => exact isHeld
    | cons token rest ih =>
      refine ih (fun value inRest => areProper value (List.mem_cons_of_mem _ inRest)) ?_
      refine invariant.step isHeld fun value same => areProper value ?_
      exact same ▸ List.mem_cons_self
  have start : (Build.inside [] .value).Holds holds := trivial
  exact invariant.finish (folded _ areProper start)

end PhysicsPrefab.Json
