import PhysicsPrefab.Json.Document
import PhysicsPrefab.Proofs.Json.Scanning

/-!
# Written values are built again

The tokens of a value are put together into the tree of the value (`foldl_tokens`), as long as it
does not open too many arrays and objects at once. So the document of a value that is written is
the tree of the value, with nothing after it (`ofText_text`, `ofText_pretty`).
-/

namespace PhysicsPrefab.Json

namespace Value

mutual

/-- The tree of a value, in which numbers are what is read of them. -/
def node : Value → Node
  | null => .null
  | boolean value => .boolean value
  | number value =>
    match value.token with
    | .number read => .number read
    | _ => .null
  | string value => .string value
  | array items => .array (itemNodes items) true
  | object members => .object (memberNodes members) true

/-- The trees of the items of an array. -/
def itemNodes : List Value → List Node
  | [] => []
  | item :: rest => node item :: itemNodes rest

/-- The trees of the members of an object. -/
def memberNodes : List (String × Value) → List (String × Node)
  | [] => []
  | (name, item) :: rest => (name, node item) :: memberNodes rest

end

mutual

/-- How many arrays and objects of a value are open at once. -/
def depth : Value → Nat
  | null | boolean _ | number _ | string _ => 0
  | array items => 1 + itemsDepth items
  | object members => 1 + membersDepth members

/-- How many arrays and objects of some items are open at once. -/
def itemsDepth : List Value → Nat
  | [] => 0
  | item :: rest => max (depth item) (itemsDepth rest)

/-- How many arrays and objects of some members are open at once. -/
def membersDepth : List (String × Value) → Nat
  | [] => 0
  | (_, item) :: rest => max (depth item) (membersDepth rest)

end

end Value

namespace Build

open Value

/-- Whether a value may come next. -/
def expectsValue (expect : Expect) : Prop := expect = .value ∨ expect = .firstItem

/-- An array or object is opened if not too many are open. -/
theorem push_of_lt {frame : Frame} {expect : Expect} {frames : List Frame}
    (inRange : frames.length < depthLimit) : push frame expect frames = .inside (frame :: frames) expect :=
  if_pos inRange

/-- A token that begins a value is taken as such. -/
theorem step_value {expect : Expect} (expects : expectsValue expect) (token : Token)
    (begins : token ≠ .closeArray) (frames : List Frame) :
    step (.inside frames expect) token = value frames token := by
  rcases expects with rfl | rfl
  · rfl
  · cases token <;> first | rfl | contradiction

mutual

/-- The tokens of a value put its tree where it belongs. -/
theorem foldl_tokens : ∀ (item : Value) {frames : List Frame} {expect : Expect},
    expectsValue expect → frames.length + item.depth ≤ depthLimit →
    item.tokens.foldl step (.inside frames expect) = place item.node frames
  | .null, frames, expect, expects, _ => step_value expects .null nofun frames
  | .boolean value, frames, expect, expects, _ => step_value expects (.boolean value) nofun frames
  | .number value, frames, expect, expects, _ => by
    rw [tokens, List.foldl_cons, List.foldl_nil, node]
    rcases value.token_cases with isNull | ⟨read, isNumber⟩
    · rw [isNull, step_value expects .null nofun]
      rfl
    · rw [isNumber, step_value expects (.number read) nofun]
      rfl
  | .string value, frames, expect, expects, _ => step_value expects (.string value) nofun frames
  | .array [], frames, expect, expects, shallow => by
    rw [tokens, List.foldl_cons, step_value expects .openArray nofun, Build.value,
      push_of_lt (by rw [depth] at shallow; omega)]
    rfl
  | .array (first :: items), frames, expect, expects, shallow => by
    rw [depth, itemsDepth] at shallow
    rw [tokens, List.foldl_cons, step_value expects .openArray nofun, Build.value, push_of_lt (by omega),
      List.foldl_append, foldl_tokens first (.inr rfl) (by rw [List.length_cons]; omega), place,
      foldl_itemTokens items [first.node] (by omega)]
    rfl
  | .object [], frames, expect, expects, shallow => by
    rw [tokens, List.foldl_cons, step_value expects .openObject nofun, Build.value,
      push_of_lt (by rw [depth] at shallow; omega)]
    rfl
  | .object ((name, first) :: members), frames, expect, expects, shallow => by
    rw [depth, membersDepth] at shallow
    rw [tokens, List.foldl_cons, step_value expects .openObject nofun, Build.value, push_of_lt (by omega),
      List.foldl_cons, List.foldl_cons]
    change List.foldl step (.inside (.object [] (some name) :: frames) .value) _ = _
    rw [List.foldl_append, foldl_tokens first (.inl rfl) (by rw [List.length_cons]; omega), place,
      foldl_memberTokens members [(name, first.node)] (by omega)]
    rfl

/-- The tokens of the items after the first put the array where it belongs. -/
theorem foldl_itemTokens : ∀ (items : List Value) (held : List Node) {frames : List Frame},
    frames.length + 1 + itemsDepth items ≤ depthLimit →
    (itemTokens items).foldl step (.inside (.array held :: frames) .itemEnd) =
      place (.array (held.reverse ++ itemNodes items) true) frames
  | [], held, frames, _ => by
    rw [itemNodes, List.append_nil]
    rfl
  | item :: items, held, frames, shallow => by
    rw [itemsDepth] at shallow
    rw [itemTokens, List.foldl_cons]
    change List.foldl step (.inside (.array held :: frames) .value) _ = _
    rw [List.foldl_append, foldl_tokens item (.inl rfl) (by rw [List.length_cons]; omega), place,
      foldl_itemTokens items (item.node :: held) (by omega), List.reverse_cons, List.append_assoc]
    rfl

/-- The tokens of the members after the first put the object where it belongs. -/
theorem foldl_memberTokens : ∀ (members : List (String × Value)) (held : List (String × Node))
    {frames : List Frame}, frames.length + 1 + membersDepth members ≤ depthLimit →
    (memberTokens members).foldl step (.inside (.object held none :: frames) .memberEnd) =
      place (.object (held.reverse ++ memberNodes members) true) frames
  | [], held, frames, _ => by
    rw [memberNodes, List.append_nil]
    rfl
  | (name, item) :: members, held, frames, shallow => by
    rw [membersDepth] at shallow
    rw [memberTokens, List.foldl_cons, List.foldl_cons, List.foldl_cons]
    change List.foldl step (.inside (.object held (some name) :: frames) .value) _ = _
    rw [List.foldl_append, foldl_tokens item (.inl rfl) (by rw [List.length_cons]; omega), place,
      foldl_memberTokens members ((name, item.node) :: held) (by omega), List.reverse_cons,
      List.append_assoc]
    rfl

end

end Build

namespace Document

variable {value : Value}

/-- The tokens of a value are those of its tree, if not too much of it is open at once. -/
theorem ofTokens_tokens (shallow : value.depth ≤ Build.depthLimit) :
    ofTokens value.tokens = ⟨value.node, false⟩ := by
  rw [ofTokens, Build.foldl_tokens value (.inl rfl) (by rwa [List.length_nil, Nat.zero_add])]
  rfl

/-- The document of a value that is written without blanks is its tree. -/
theorem ofText_text (shallow : value.depth ≤ Build.depthLimit) :
    ofText value.text = ⟨value.node, false⟩ := by
  rw [ofText, Value.ofText_text, ofTokens_tokens shallow]

/-- The document of a value that is laid out is its tree. -/
theorem ofText_pretty (shallow : value.depth ≤ Build.depthLimit) :
    ofText value.pretty = ⟨value.node, false⟩ := by
  rw [ofText, Value.ofText_pretty, ofTokens_tokens shallow]

end Document

end PhysicsPrefab.Json
