import PhysicsPrefab.Json.Reader

/-!
# Changing the texts of a file

A document is put together without a look at its texts. So changing every text of the tokens
changes every text of the document (`Document.ofTokens_map`), and of its value, as long as the names
of its members stay (`Node.value?_map`). What a file says at the end of a path is one of the texts of
its tokens (`exists_token_of_textAt?`).
-/

namespace PhysicsPrefab.Json

variable (change : String → String)

/-- A token with its text changed. -/
def Token.map : Token → Token
  | string value => string (change value)
  | other => other

mutual

/-- A tree with its texts and names changed. -/
def Node.map : Node → Node
  | .null => .null
  | .boolean value => .boolean value
  | .number value => .number value
  | .string value => .string (change value)
  | .array items closed => .array (Node.mapItems items) closed
  | .object members closed => .object (Node.mapMembers members) closed
  | .malformed => .malformed

/-- Trees with their texts and names changed. -/
def Node.mapItems : List Node → List Node
  | [] => []
  | item :: rest => item.map :: Node.mapItems rest

/-- Members with their texts and names changed. -/
def Node.mapMembers : List (String × Node) → List (String × Node)
  | [] => []
  | (name, item) :: rest => (change name, item.map) :: Node.mapMembers rest

end

mutual

/-- The names of all members in a tree. -/
def Node.names : Node → List String
  | .array items _ => Node.itemNames items
  | .object members _ => Node.memberNames members
  | _ => []

/-- The names of all members in some trees. -/
def Node.itemNames : List Node → List String
  | [] => []
  | item :: rest => item.names ++ Node.itemNames rest

/-- The names of some members and of all members in them. -/
def Node.memberNames : List (String × Node) → List String
  | [] => []
  | (name, item) :: rest => name :: (item.names ++ Node.memberNames rest)

end

/-- A document with its texts and names changed. -/
def Document.map (document : Document) : Document :=
  ⟨document.root.map change, document.trailing⟩

namespace Node

variable {change}

/-- Items are changed one by one. -/
theorem mapItems_eq (items : List Node) : mapItems change items = items.map (Node.map change) := by
  induction items with
  | nil => rfl
  | cons item rest ih => rw [mapItems, ih, List.map_cons]

/-- Members are changed one by one. -/
theorem mapMembers_eq (members : List (String × Node)) :
    mapMembers change members = members.map fun (name, item) => (change name, item.map change) := by
  induction members with
  | nil => rfl
  | cons member rest ih => rw [mapMembers, ih, List.map_cons]

end Node

namespace Build

/-- An open array or object with its texts and names changed. -/
def mapFrame : Frame → Frame
  | .array items => .array (items.map (Node.map change))
  | .object members key =>
    .object (members.map fun (name, item) => (change name, item.map change)) (key.map change)

/-- The machine with the texts and names of what it holds changed. -/
def map : Build → Build
  | inside frames expect => inside (frames.map (mapFrame change)) expect
  | done document => done (document.map change)

/-- What is cut short is changed as a whole. -/
theorem cutShort_map (frame : Frame) :
    cutShort (mapFrame change frame) = (cutShort frame).map change := by
  rcases frame with items | ⟨members, _ | key⟩ <;>
    simp [cutShort, mapFrame, Node.map, Node.mapItems_eq, Node.mapMembers_eq]

/-- What is closed is changed as a whole. -/
theorem closeAll_map (inner : Node) (frames : List Frame) :
    closeAll (inner.map change) (frames.map (mapFrame change)) = (closeAll inner frames).map change := by
  induction frames generalizing inner with
  | nil => rfl
  | cons frame outer ih =>
    rcases frame with items | ⟨members, _ | key⟩ <;>
      simp [closeAll, mapFrame, ← ih, Node.map, Node.mapItems_eq, Node.mapMembers_eq]

/-- Stopping changes nothing more. -/
theorem stop_map (frames : List Frame) :
    stop (frames.map (mapFrame change)) = (stop frames).map change := by
  cases frames with
  | nil => rfl
  | cons frame outer =>
    rw [List.map_cons, stop, stop, cutShort_map change, closeAll_map change]
    rfl

/-- A changed value is placed where the value is. -/
theorem place_map (item : Node) (frames : List Frame) :
    place (item.map change) (frames.map (mapFrame change)) = (place item frames).map change := by
  rcases frames with _ | ⟨items | ⟨members, _ | key⟩, outer⟩
  case nil => rfl
  case cons.array => rfl
  case cons.object.none => exact stop_map change (.object members none :: outer)
  case cons.object.some => rfl

/-- An array or object is opened under the same condition. -/
theorem push_map (frame : Frame) (expect : Expect) (frames : List Frame) :
    push (mapFrame change frame) expect (frames.map (mapFrame change)) =
      (push frame expect frames).map change := by
  rw [push, push, List.length_map, apply_ite (map change), stop_map change]
  rfl

/-- A changed token is taken for a value as the token is. -/
theorem value_map (frames : List Frame) (token : Token) :
    value (frames.map (mapFrame change)) (token.map change) = (value frames token).map change := by
  cases token with
  | openArray => exact push_map change (.array []) .firstItem frames
  | openObject => exact push_map change (.object [] none) .firstKey frames
  | closeArray | closeObject | comma | colon | malformed => exact stop_map change frames
  | null => exact place_map change .null frames
  | boolean value => exact place_map change (.boolean value) frames
  | number value => exact place_map change (.number value) frames
  | string value => exact place_map change (.string value) frames

/-- A changed token is taken for a name as the token is. -/
theorem key_map (frames : List Frame) (token : Token) :
    key (frames.map (mapFrame change)) (token.map change) = (key frames token).map change := by
  have stopped := stop_map change frames
  rcases frames with _ | ⟨items | ⟨members, _ | name⟩, outer⟩ <;> cases token <;>
    first | rfl | exact stopped

/-- An array ends as before. -/
theorem endArray_map (frames : List Frame) :
    endArray (frames.map (mapFrame change)) = (endArray frames).map change := by
  have stopped := stop_map change frames
  rcases frames with _ | ⟨items | ⟨members, name⟩, outer⟩
  case cons.array =>
    have placed := place_map change (.array items.reverse true) outer
    rwa [Node.map, Node.mapItems_eq, List.map_reverse] at placed
  all_goals exact stopped

/-- An object ends as before. -/
theorem endObject_map (frames : List Frame) :
    endObject (frames.map (mapFrame change)) = (endObject frames).map change := by
  have stopped := stop_map change frames
  rcases frames with _ | ⟨items | ⟨members, _ | name⟩, outer⟩
  case cons.object.none =>
    have placed := place_map change (.object members.reverse true) outer
    rwa [Node.map, Node.mapMembers_eq, List.map_reverse] at placed
  all_goals exact stopped

/-- The machine goes on with a changed token as with the token. -/
theorem step_map (build : Build) (token : Token) :
    step (build.map change) (token.map change) = (step build token).map change := by
  cases build with
  | done document => rfl
  | inside frames expect =>
    have stopped := stop_map change frames
    cases expect with
    | value => exact value_map change frames token
    | key => exact key_map change frames token
    | firstItem =>
      have taken := value_map change frames token
      cases token <;> first | exact taken | exact endArray_map change frames
    | firstKey =>
      have taken := key_map change frames token
      cases token <;> first | exact taken | exact endObject_map change frames
    | itemEnd => cases token <;> first | rfl | exact stopped | exact endArray_map change frames
    | colon => cases token <;> first | rfl | exact stopped
    | memberEnd => cases token <;> first | rfl | exact stopped | exact endObject_map change frames

end Build

namespace Document

/-- Changing the texts of tokens changes those of their document. -/
theorem ofTokens_map (tokens : List Token) :
    ofTokens (tokens.map (Token.map change)) = (ofTokens tokens).map change := by
  have steps : (tokens.map (Token.map change)).foldl Build.step (.inside [] .value) =
      (tokens.foldl Build.step (.inside [] .value)).map change := by
    rw [List.foldl_map]
    exact (List.foldl_hom (Build.map change) (Build.step_map change) : tokens.foldl
      (fun build token => build.step (token.map change)) ((Build.inside [] .value).map change) = _)
  rw [ofTokens, ofTokens, steps]
  cases tokens.foldl Build.step (.inside [] .value) with
  | done document => rfl
  | inside frames expect =>
    rw [Build.map, Build.finish, Build.finish, Build.stop_map change]
    cases Build.stop frames <;> rfl

end Document

mutual

/-- A value with its texts changed, but not the names of its members. -/
def Value.map : Value → Value
  | .string value => .string (change value)
  | .array items => .array (Value.mapItems items)
  | .object members => .object (Value.mapMembers members)
  | other => other

/-- Values with their texts changed. -/
def Value.mapItems : List Value → List Value
  | [] => []
  | item :: rest => item.map :: Value.mapItems rest

/-- Members with their texts changed, but not their names. -/
def Value.mapMembers : List (String × Value) → List (String × Value)
  | [] => []
  | (name, item) :: rest => (name, item.map) :: Value.mapMembers rest

end

/-- A step into a value. -/
inductive Place where
  /-- To the member of a name. -/
  | member (name : String)
  /-- To the item of an index. -/
  | item (index : Nat)

instance : Coe String Place := ⟨.member⟩

namespace Value

/-- The value at a place in a value. -/
def part? : Place → Value → Option Value
  | .member name, object members => (members.find? fun member => member.1 == name).map (·.2)
  | .item index, array items => items[index]?
  | _, _ => none

/-- The text at the end of a path. -/
def textAt? : List Place → Value → Option String
  | [], string value => some value
  | [], _ => none
  | place :: rest, value => (value.part? place).bind (textAt? rest)

variable {change}

/-- Items are changed one by one. -/
theorem mapItems_eq (items : List Value) : mapItems change items = items.map (Value.map change) := by
  induction items with
  | nil => rfl
  | cons item rest ih => rw [mapItems, ih, List.map_cons]

/-- Members are changed one by one. -/
theorem mapMembers_eq (members : List (String × Value)) :
    mapMembers change members = members.map fun (name, item) => (name, item.map change) := by
  induction members with
  | nil => rfl
  | cons member rest ih => rw [mapMembers, ih, List.map_cons]

/-- The parts of a changed value are those of the value, changed. -/
theorem part?_map (place : Place) (value : Value) :
    (value.map change).part? place = (value.part? place).map (Value.map change) := by
  cases place with
  | member name =>
    cases value with
    | object members =>
      rw [Value.map, part?, part?, mapMembers_eq, List.find?_map, Option.map_map, Option.map_map]
      rfl
    | _ => rfl
  | item index =>
    cases value with
    | array items => rw [Value.map, part?, part?, mapItems_eq, List.getElem?_map]
    | _ => rfl

/-- The texts of a changed value are those of the value, changed. -/
theorem textAt?_map (path : List Place) (value : Value) :
    (value.map change).textAt? path = (value.textAt? path).map change := by
  induction path generalizing value with
  | nil => cases value <;> rfl
  | cons place rest ih =>
    rw [textAt?, textAt?, part?_map]
    cases value.part? place with
    | none => rfl
    | some item => exact ih item

end Value

end PhysicsPrefab.Json

namespace PhysicsPrefab.NameMap

variable {α β : Type}

/-- A changed value is put where the value is. -/
theorem insertEntry_map (change : α → β) (name : String) (value : α) (entries : List (String × α)) :
    insertEntry name (change value) (entries.map fun entry => (entry.1, change entry.2)) =
      (insertEntry name value entries).map fun entry => (entry.1, change entry.2) := by
  induction entries with
  | nil => rfl
  | cons head rest ih =>
    rw [List.map_cons, insertEntry, insertEntry, ih]
    split
    · rfl
    · split <;> rfl

/-- A map of changed values has the values of the map, changed. -/
theorem entries_ofList_map (change : α → β) (entries : List (String × α)) :
    (ofList (entries.map fun entry => (entry.1, change entry.2))).entries =
      (ofList entries).entries.map fun entry => (entry.1, change entry.2) := by
  have folded (left : NameMap β) (right : NameMap α)
      (same : left.entries = right.entries.map fun entry => (entry.1, change entry.2)) :
      ((entries.map fun entry => (entry.1, change entry.2)).foldl
        (fun map entry => map.insert entry.1 entry.2) left).entries =
      (entries.foldl (fun map entry => map.insert entry.1 entry.2) right).entries.map
        fun entry => (entry.1, change entry.2) := by
    induction entries generalizing left right with
    | nil => exact same
    | cons entry rest ih =>
      refine ih _ _ ?_
      change insertEntry entry.1 (change entry.2) left.entries = _
      rw [same, insertEntry_map]
      rfl
  exact folded empty empty rfl

end PhysicsPrefab.NameMap

namespace PhysicsPrefab.Json

variable {change : String → String}

namespace Node

mutual

/-- The value of a changed tree is the value of the tree, changed, if all names stay. -/
theorem value?_map : ∀ {node : Node}, (∀ name ∈ node.names, change name = name) →
    (node.map change).value? = node.value?.map (Value.map change)
  | .null, _ => rfl
  | .boolean _, _ => rfl
  | .number _, _ => rfl
  | .string _, _ => rfl
  | .malformed, _ => rfl
  | .array items closed, fixed => by
    rw [map, value?, value?, values?_map fixed]
    cases closed with
    | false => rfl
    | true => cases values? items <;> rfl
  | .object members closed, fixed => by
    rw [map, value?, value?, entries?_map fixed]
    cases closed with
    | false => rfl
    | true =>
      cases entries? members with
      | none => rfl
      | some entries =>
        simp [Value.map, Value.mapMembers_eq, NameMap.entries_ofList_map]

/-- The values of changed trees are those of the trees, changed, if all names stay. -/
theorem values?_map : ∀ {items : List Node}, (∀ name ∈ itemNames items, change name = name) →
    values? (mapItems change items) = (values? items).map (Value.mapItems change)
  | [], _ => rfl
  | item :: rest, fixed => by
    rw [itemNames, List.forall_mem_append] at fixed
    rw [mapItems, values?, values?, value?_map fixed.1, values?_map fixed.2]
    cases item.value? with
    | none => rfl
    | some value => cases values? rest <;> rfl

/-- The values of changed members are those of the members, changed, if all names stay. -/
theorem entries?_map : ∀ {members : List (String × Node)},
    (∀ name ∈ memberNames members, change name = name) →
    entries? (mapMembers change members) = (entries? members).map (Value.mapMembers change)
  | [], _ => rfl
  | (name, item) :: rest, fixed => by
    rw [memberNames, List.forall_mem_cons, List.forall_mem_append] at fixed
    rw [mapMembers, entries?, entries?, value?_map fixed.2.1, entries?_map fixed.2.2, fixed.1]
    cases item.value? with
    | none => rfl
    | some value => cases entries? rest <;> rfl

end

mutual

/-- A tree that stays as it is keeps its names. -/
theorem names_fixed : ∀ {node : Node}, node.map change = node →
    ∀ name ∈ node.names, change name = name
  | .null, _ | .boolean _, _ | .number _, _ | .string _, _ | .malformed, _ => nofun
  | .array _ _, same => itemNames_fixed (Node.array.inj same).1
  | .object _ _, same => memberNames_fixed (Node.object.inj same).1

/-- Items that stay as they are keep their names. -/
theorem itemNames_fixed : ∀ {items : List Node}, mapItems change items = items →
    ∀ name ∈ itemNames items, change name = name
  | [], _ => nofun
  | item :: rest, same => by
    obtain ⟨first, others⟩ := List.cons.inj same
    rw [itemNames, List.forall_mem_append]
    exact ⟨names_fixed first, itemNames_fixed others⟩

/-- Members that stay as they are keep their names. -/
theorem memberNames_fixed : ∀ {members : List (String × Node)},
    mapMembers change members = members → ∀ name ∈ memberNames members, change name = name
  | [], _ => nofun
  | (name, item) :: rest, same => by
    obtain ⟨first, others⟩ := List.cons.inj same
    rw [memberNames, List.forall_mem_cons, List.forall_mem_append]
    exact ⟨congrArg Prod.fst first, names_fixed (congrArg Prod.snd first), memberNames_fixed others⟩

end

end Node

/-- The text at the end of a path in a file; there is none unless the file is well formed. -/
def textAt? (path : List Place) (text : String) : Option String :=
  (Reader.value.run text).toOption.bind (Value.textAt? path)

namespace Document

/-- The value of a document with nothing after it. -/
def value? (document : Document) : Option Value :=
  if document.trailing then none else document.root.value?

/-- The value of a changed document is its value, changed, if all names stay. -/
theorem value?_map {document : Document}
    (fixed : ∀ name ∈ document.root.names, change name = name) :
    (document.map change).value? = document.value?.map (Value.map change) := by
  rw [value?, value?, map, Node.value?_map fixed, apply_ite (Option.map (Value.map change))]
  rfl

end Document

/-- A file has the value of its document. -/
theorem Reader.toOption_run_value (text : String) :
    (value.run text).toOption = (Document.ofText text).value? := by
  rw [run, Document.value?]
  rcases Document.ofText text with ⟨root, trailing⟩
  simp only [value]
  cases root.value? <;> cases trailing <;> rfl

/-- What a file says is one of the texts of its tokens. -/
theorem exists_token_of_textAt? {path : List Place} {text said : String}
    (found : textAt? path text = some said) : .string said ∈ Token.ofText text := by
  refine Classical.byContradiction fun missing => ?_
  obtain ⟨change, isChange⟩ : ∃ change : String → String,
      change = fun other => if other = said then said ++ " " else other := ⟨_, rfl⟩
  have sameTokens : (Token.ofText text).map (Token.map change) = Token.ofText text := by
    refine (List.map_congr_left fun token member => ?_).trans (List.map_id _)
    cases token with
    | string other =>
      have differs : other ≠ said := fun same => missing (same ▸ member)
      simp [Token.map, isChange, differs]
    | _ => rfl
  have sameDocument := Document.ofTokens_map change (Token.ofText text)
  rw [sameTokens] at sameDocument
  have fixed := Node.names_fixed (congrArg Document.root sameDocument).symm
  have sameValue := Document.value?_map fixed
  rw [← sameDocument] at sameValue
  rw [textAt?, Reader.toOption_run_value, Document.ofText] at found
  obtain ⟨value, isValue, found⟩ := Option.bind_eq_some_iff.1 found
  rw [isValue] at sameValue
  have unchanged : (value.map change).textAt? path = _ := Value.textAt?_map path value
  rw [← Option.some.inj sameValue, found, Option.map_some, isChange] at unchanged
  simpa using congrArg String.length (Option.some.inj unchanged)

end PhysicsPrefab.Json
