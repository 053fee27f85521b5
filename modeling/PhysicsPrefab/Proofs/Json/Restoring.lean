import PhysicsPrefab.Proofs.Json.Proper
import PhysicsPrefab.Proofs.Json.Records

/-!
# Values that are read as they were written

A value that was read from a file and is written again is read as the same value, if its doubles are
(`Node.value?_node`). For whole numbers this is always so (`Number.IsProper.readsBack`). A reader
restores what is written if the written form of all it reads is read as the same data and is no
deeper than what was read (`Reader.Restores`); readers of lists restore what is written if those of
their items do (`Reader.Restores.list`).
-/

namespace PhysicsPrefab.Json

open Answer

/-- Whether the text of a number is read as the same number. -/
def Number.ReadsBack (number : Number) : Prop :=
  Token.ofText (String.ofList number.render) = [.number number]

instance : DecidablePred Number.ReadsBack := fun _ => inferInstanceAs (Decidable (_ = _))

/-- The text of a number is read as its token. -/
theorem Number.readsBack_iff {number : Number} : number.ReadsBack ↔ number.token = .number number := by
  have scanned := number.run_render (nofun : Number.Ends [])
  rw [List.append_nil] at scanned
  rw [ReadsBack, Token.ofText, String.toList_ofList, scanned]
  exact List.singleton_inj

/-- The token of a whole number. -/
theorem Number.token_whole {number : Number} {negative : Bool} {value : Nat}
    (given : number.parts? = some ⟨negative, Nat.toDigits 10 value, none, none⟩)
    (fits : value < 2 ^ 64) : number.token = .number (NumberText.wholeNumber negative value) := by
  have digits : Nat.ofDigitChars 10 (Nat.toDigits 10 value) 0 = value := Nat.ofDigitChars_ten_toDigits
  rw [token, given]
  simp only [Scan.numberToken, NumberText.isComplete_lastPart, ↓reduceIte]
  rw [NumberText.value?_whole negative (by rwa [digits]), digits]

/-- A proper number is read as it was written, if it is no double or the double is. -/
theorem Number.IsProper.readsBack {number : Number} (proper : number.IsProper)
    (double : ∀ value : Float, number = .double value → value.isFinite = true → number.ReadsBack) :
    number.ReadsBack := by
  cases number with
  | natural value =>
    have same : value.toNat.toUInt64 = value := UInt64.ofNat_toNat
    refine readsBack_iff.2 ((token_whole rfl value.toNat_lt).trans ?_)
    simp [NumberText.wholeNumber, same]
  | negative value =>
    have below : value.toInt < 0 := proper
    have least := value.le_toInt
    have smallest : Int64.minValue.toInt.natAbs = 2 ^ 63 := by decide
    have same : Int64.ofInt (-(value.toInt.natAbs : Int)) = value := by
      rw [show -(value.toInt.natAbs : Int) = value.toInt by omega, Int64.ofInt_toInt]
    refine readsBack_iff.2 ((token_whole rfl (by omega)).trans ?_)
    rw [NumberText.wholeNumber, smallest, if_neg (by decide), if_neg, same]
    simp only [Bool.or_eq_true, decide_eq_true_eq]
    omega
  | double value => exact double value rfl proper

/-- Whether all numbers of a value are read as they were written. -/
def Value.ReadsBack (value : Value) : Prop := ∀ number ∈ value.numbers, number.ReadsBack

namespace Value

/-- An array is read as it was written if its items are. -/
theorem readsBack_array {items : List Value} :
    (array items).ReadsBack ↔ ∀ item ∈ items, item.ReadsBack := by
  simp only [ReadsBack, mem_numbers_array]
  exact ⟨fun all item isItem number inside => all number ⟨item, isItem, inside⟩,
    fun all number ⟨item, isItem, inside⟩ => all item isItem number inside⟩

/-- An object is read as it was written if its members are. -/
theorem readsBack_object {members : List (String × Value)} :
    (object members).ReadsBack ↔ ∀ member ∈ members, member.2.ReadsBack := by
  simp only [ReadsBack, mem_numbers_object]
  exact ⟨fun all member isMember number inside => all number ⟨member, isMember, inside⟩,
    fun all number ⟨member, isMember, inside⟩ => all member isMember number inside⟩

/-- The tree of a number that is read as it was written. -/
theorem node_number {number : Number} (readsBack : number.ReadsBack) :
    (Value.number number).node = .number number := by
  rw [node, Number.readsBack_iff.1 readsBack]

/-- A double that is read as it was written is the number that is read. -/
theorem number_ofFloat {value : Float} (readsBack : (ofFloat value).ReadsBack) :
    Reader.number (ofFloat value).node = .ok value := by
  rw [ofFloat, node_number (readsBack _ (List.mem_singleton_self _))]
  rfl

end Value

namespace Node

/-- A value that was read is read as the same value when it is written again. -/
theorem value?_node {node : Node} {value : Value} (isValue : node.value? = some value) :
    value.ReadsBack → value.node.value? = some value := by
  refine value?_induction (fun _ => rfl) (fun _ _ => rfl) ?number (fun _ _ => rfl) ?array ?object
    isValue
  case number =>
    intro number readsBack
    rw [Value.node_number (readsBack number (List.mem_singleton_self number))]
    rfl
  case array =>
    intro items values each readsBack
    refine value?_array.2 ⟨rfl, values, ?_, rfl⟩
    rw [Value.itemNodes_eq, List.forall₂_map_left_iff, List.forall₂_same]
    intro item isItem
    obtain ⟨_, -, again⟩ := exists_of_mem_right each isItem
    exact again (Value.readsBack_array.1 readsBack item isItem)
  case object =>
    intro members entries each readsBack
    refine value?_object.2 ⟨rfl, (NameMap.ofList entries).entries, ?_, by simp⟩
    rw [Value.memberNodes_eq, List.forall₂_map_left_iff, List.forall₂_same]
    intro entry isEntry
    obtain ⟨_, -, -, again⟩ := exists_of_mem_right each (NameMap.mem_of_mem_ofList isEntry)
    exact ⟨rfl, again (Value.readsBack_object.1 readsBack entry isEntry)⟩

/-- What a value that is written of what was read keeps to. -/
structure Bounds (node : Node) (room : Nat) (value : Value) : Prop where
  /-- It is no deeper than what was read, or than what is written of nothing. -/
  depth : value.depth ≤ max node.depth room
  /-- Its numbers can be read if those that were read can. -/
  numbers : node.IsProper → ∀ number ∈ value.numbers, number.IsProper

/-- Whether a tree is inside of another. -/
structure Inside (part whole : Node) : Prop where
  /-- It is less deep. -/
  depth : part.depth < whole.depth
  /-- Its numbers can be read if those of the whole can. -/
  numbers : whole.IsProper → part.IsProper

/-- An item is inside of its array. -/
theorem inside_array {items : List Node} {closed : Bool} {item : Node} (member : item ∈ items) :
    item.Inside (array items closed) :=
  ⟨depth_lt_of_mem_array member, fun proper => isProper_array.1 proper item member⟩

/-- The value of a member is inside of its object. -/
theorem inside_object {members : List (String × Node)} {closed : Bool} {entry : String × Node}
    (member : entry ∈ members) : entry.2.Inside (object members closed) :=
  ⟨depth_lt_of_mem_object member, fun proper => isProper_object.1 proper entry member⟩

/-- What is written of nothing may stand inside of any object. -/
theorem null_inside_object {members : List (String × Node)} {closed : Bool} :
    null.Inside (object members closed) :=
  ⟨Nat.lt_add_right _ Nat.one_pos, fun _ => nofun⟩

/-- Whether a value that is written keeps to something inside of what was read. -/
def BoundsInside (node : Node) (room : Nat) (value : Value) : Prop :=
  ∃ part : Node, part.Inside node ∧ part.Bounds room value

/-- A value that was read keeps to what it was read from. -/
theorem bounds_value? {node : Node} {value : Value} (isValue : node.value? = some value)
    (room : Nat) : node.Bounds room value :=
  ⟨(depth_value? isValue).trans (le_max_left _ _),
    fun proper number inside => proper number (mem_numbers_of_value? isValue number inside)⟩

/-- A text keeps to whatever was read. -/
theorem bounds_string (node : Node) (room : Nat) (text : String) :
    node.Bounds room (.string text) :=
  ⟨Nat.zero_le _, fun _ => List.forall_mem_nil _⟩

/-- A value keeps to what was read if its parts keep to what is inside. -/
theorem bounds_of_parts {node : Node} {room : Nat} {value : Value} (parts : List Value)
    (depth : ∀ limit, (∀ part ∈ parts, part.depth ≤ limit) → value.depth ≤ limit + 1)
    (numbers : ∀ number ∈ value.numbers, ∃ part ∈ parts, number ∈ part.numbers)
    (each : ∀ part ∈ parts, node.BoundsInside room part) : node.Bounds (room + 1) value := by
  constructor
  · have bound := depth (max (node.depth - 1) room) fun part isPart => by
      obtain ⟨origin, inside, bounds⟩ := each part isPart
      have shallow := inside.depth
      have within := bounds.depth
      omega
    omega
  · intro proper number member
    obtain ⟨part, isPart, inPart⟩ := numbers number member
    obtain ⟨origin, inside, bounds⟩ := each part isPart
    exact bounds.numbers (inside.numbers proper) number inPart

/-- An array keeps to what was read if its items keep to what is inside. -/
theorem bounds_array {node : Node} {room : Nat} {values : List Value}
    (each : ∀ value ∈ values, node.BoundsInside room value) :
    node.Bounds (room + 1) (.array values) := by
  refine bounds_of_parts values (fun limit shallow => ?_) (fun _ => Value.mem_numbers_array.1) each
  rw [Value.depth, Nat.add_comm]
  exact Nat.succ_le_succ (Value.itemsDepth_le.2 shallow)

/-- An object keeps to what was read if its members keep to what is inside. -/
theorem bounds_object {node : Node} {room : Nat} {written : List (String × Value)}
    (each : ∀ member ∈ written, node.BoundsInside room member.2) :
    node.Bounds (room + 1) (.object written) := by
  refine bounds_of_parts (written.map (·.2)) (fun limit shallow => ?_) (fun number inside => ?_)
    (List.forall_mem_map.2 each)
  · rw [Value.depth, Nat.add_comm]
    exact Nat.succ_le_succ (Value.membersDepth_le.2 (List.forall_mem_map.1 shallow))
  · obtain ⟨member, isMember, inMember⟩ := Value.mem_numbers_object.1 inside
    exact ⟨member.2, List.mem_map_of_mem isMember, inMember⟩

end Node

namespace Reader

variable {α : Type} {reader : Reader α} {write : α → Value} {room : Nat}

/-- Whether a reader reads what is written as the data it was written of. -/
structure Restores (reader : Reader α) (write : α → Value) (room : Nat) : Prop where
  /-- What is written keeps to what the data was read from. -/
  bounds : ∀ {node data}, reader node = .ok data → node.Bounds room (write data)
  /-- What is written is read as the same data. -/
  again : ∀ {node data}, reader node = .ok data → (write data).ReadsBack →
    reader (write data).node = .ok data

/-- A text is restored. -/
theorem string_restores (room : Nat) : string.Restores .string room where
  bounds _ := Node.bounds_string _ _ _
  again _ _ := rfl

/-- A list is restored if its items are. -/
theorem Restores.list (restores : reader.Restores write room) :
    (list reader).Restores (fun data => .array (data.map write)) (room + 1) where
  bounds {node data} isRead := by
    obtain ⟨items, rfl, each⟩ := list_eq_ok.1 isRead
    refine Node.bounds_array fun value isValue => ?_
    obtain ⟨datum, isDatum, rfl⟩ := List.mem_map.1 isValue
    obtain ⟨item, isItem, itemRead⟩ := exists_of_mem_right each isDatum
    exact ⟨item, Node.inside_array isItem, restores.bounds itemRead⟩
  again {node data} isRead readsBack := by
    obtain ⟨items, rfl, each⟩ := list_eq_ok.1 isRead
    refine list_eq_ok.2 ⟨_, rfl, ?_⟩
    rw [Value.itemNodes_eq, List.map_map, List.forall₂_map_left_iff, List.forall₂_same]
    intro datum isDatum
    obtain ⟨item, isItem, itemRead⟩ := exists_of_mem_right each isDatum
    exact restores.again itemRead (Value.readsBack_array.1 readsBack _ (List.mem_map_of_mem isDatum))

end Reader

namespace Members

variable {α : Type} {reader : Reader α} {write : α → Value} {room : Nat}
  {entries : List (String × Node)} {name : String} {typed : List String}
  {fields : List (String × Value)} {extra : NameMap Value}

/-- The members of an object that is written, as they are read. -/
def nodes (members : List (String × Value)) : List (String × Node) :=
  members.map fun member => (member.1, member.2.node)

/-- The tree of an object that is written. -/
theorem node_object (members : List (String × Value)) :
    (Value.object members).node = .object (nodes members) true := by
  rw [Value.node, Value.memberNodes_eq, nodes]

/-- A name is given in one list of members or in the next. -/
@[simp] theorem held?_nodes_append (name : String) (before after : List (String × Value)) :
    held? name (nodes (before ++ after)) = (held? name (nodes before)).or (held? name (nodes after)) := by
  simp [held?, nodes, List.find?_append, Option.map_or]

/-- A name is given if the first member bears it. -/
@[simp] theorem held?_nodes_cons (other name : String) (value : Value)
    (members : List (String × Value)) : held? name (nodes ((other, value) :: members)) =
      if other = name then some value.node else held? name (nodes members) :=
  held?_cons other name value.node (nodes members)

/-- What is read of a name that is given. -/
theorem read?_of_held {missing : Option α} {node : Node} {data : α}
    (isHeld : held? name entries = some node) (isRead : reader node = .ok data) :
    read? reader missing name entries = some data := read?_eq_some.2 (.inr ⟨node, isHeld, isRead⟩)

/-- What is written of data that was read of a name keeps to what is inside of the object, if what is
written of missing data does. -/
theorem bounds_read? {missing : Option α} {data : α} (restores : reader.Restores write room)
    (isRead : read? reader missing name entries = some data)
    (default : ∀ value ∈ missing, Node.null.Bounds room (write value)) :
    (Node.object entries true).BoundsInside room (write data) := by
  rcases read?_eq_some.1 isRead with ⟨-, isMissing⟩ | ⟨part, isHeld, isRead⟩
  · exact ⟨.null, Node.null_inside_object, default data isMissing⟩
  · exact ⟨part, Node.inside_object (mem_of_held? isHeld), restores.bounds isRead⟩

/-- What is written of data that may be given keeps to what is inside of the object. -/
theorem bounds_given {given : Option α} (restores : reader.Restores write room)
    (isRead : read? (Reader.optional reader) (some none) name entries = some given) :
    ∀ data ∈ given, (Node.object entries true).BoundsInside room (write data) := by
  rintro data rfl
  rcases read?_eq_some.1 isRead with ⟨-, isMissing⟩ | ⟨part, isHeld, isRead⟩
  · cases isMissing
  · exact ⟨part, Node.inside_object (mem_of_held? isHeld), restores.bounds (Reader.of_optional isRead)⟩

/-- What is written of data that must be given is read as the same data. -/
theorem again_read? {data : α} (restores : reader.Restores write room)
    (isRead : read? reader none name entries = some data) (readsBack : (write data).ReadsBack) :
    reader (write data).node = .ok data := by
  rcases read?_eq_some.1 isRead with ⟨-, isMissing⟩ | ⟨part, -, isRead⟩
  · cases isMissing
  · exact restores.again isRead readsBack

/-- What is written of data that may be given is read as the same data. -/
theorem again_given {given : Option α} (restores : reader.Restores write room)
    (isRead : read? (Reader.optional reader) (some none) name entries = some given)
    (readsBack : ∀ data ∈ given, (write data).ReadsBack) :
    ∀ data ∈ given, reader (write data).node = .ok data := by
  rintro data rfl
  rcases read?_eq_some.1 isRead with ⟨-, isMissing⟩ | ⟨part, -, isRead⟩
  · cases isMissing
  · exact restores.again (Reader.of_optional isRead) (readsBack data rfl)

/-- What is kept keeps to what is inside of the object. -/
theorem bounds_kept (areKept : kept? typed entries = some extra) (room : Nat) :
    ∀ entry ∈ extra.entries, (Node.object entries true).BoundsInside room entry.2 := by
  intro entry isEntry
  obtain ⟨-, part, isMember, isValue⟩ := exists_of_kept? areKept isEntry
  exact ⟨part, Node.inside_object isMember, Node.bounds_value? isValue room⟩

/-- What is written of an object: its typed fields, and what it keeps. -/
structure AreWritten (typed : List String) (fields : List (String × Value)) (extra : NameMap Value) :
    Prop where
  /-- No typed name is repeated. -/
  distinct : typed.Nodup
  /-- The fields are written in the order of their names. -/
  names : (fields.map (·.1)).Sublist typed
  /-- What is kept has other names. -/
  apart : ∀ entry ∈ extra.entries, entry.1 ∉ typed
  /-- What is kept is read as it was written. -/
  again : ∀ entry ∈ extra.entries, entry.2.node.value? = some entry.2

/-- What an object keeps is written beside its fields. -/
theorem areWritten_of_kept (areKept : kept? typed entries = some extra) (distinct : typed.Nodup)
    (names : (fields.map (·.1)).Sublist typed)
    (readsBack : ∀ entry ∈ extra.entries, entry.2.ReadsBack) : AreWritten typed fields extra where
  distinct := distinct
  names := names
  apart entry isEntry := (exists_of_kept? areKept isEntry).1
  again entry isEntry := by
    obtain ⟨-, part, -, isValue⟩ := exists_of_kept? areKept isEntry
    exact Node.value?_node isValue (readsBack entry isEntry)

namespace AreWritten

/-- The names of what is written. -/
theorem names_nodes (members : List (String × Value)) :
    (nodes members).map (·.1) = members.map (·.1) := by
  rw [nodes, List.map_map]
  rfl

/-- No name is written twice. -/
theorem once (areWritten : AreWritten typed fields extra) (name : String) :
    count name (nodes (fields ++ extra.entries)) ≤ 1 := by
  refine count_le_one ?_
  rw [names_nodes, List.map_append, List.nodup_append']
  refine ⟨areWritten.names.nodup areWritten.distinct, extra.nodup_names, ?_⟩
  intro name isField isKept
  obtain ⟨entry, isEntry, rfl⟩ := List.mem_map.1 isKept
  exact areWritten.apart entry isEntry (areWritten.names.subset isField)

/-- What is written is read as an object of its members. -/
theorem node (_ : AreWritten typed fields extra) : (Value.object (fields ++ extra.entries)).node =
    .object (nodes (fields ++ extra.entries)) true := node_object _

/-- What is kept is kept again. -/
theorem kept (areWritten : AreWritten typed fields extra) :
    kept? typed (nodes (fields ++ extra.entries)) = some extra := by
  refine kept?_eq_some.2 ⟨extra.entries, ?_, by simp⟩
  have noFields : (nodes fields).filter (fun entry => !typed.contains entry.1) = [] := by
    refine List.filter_eq_nil_iff.2 fun entry isEntry => ?_
    have isName : entry.1 ∈ fields.map (·.1) := names_nodes fields ▸ List.mem_map_of_mem isEntry
    simpa using areWritten.names.subset isName
  have allKept : (nodes extra.entries).filter (fun entry => !typed.contains entry.1) =
      nodes extra.entries := by
    refine List.filter_eq_self.2 fun entry isEntry => ?_
    obtain ⟨member, isMember, rfl⟩ := List.mem_map.1 isEntry
    simpa using areWritten.apart member isMember
  rw [nodes, List.map_append, List.filter_append]
  change List.Forall₂ _ ((nodes fields).filter _ ++ (nodes extra.entries).filter _) _
  rw [noFields, allKept, List.nil_append, nodes, List.forall₂_map_left_iff, List.forall₂_same]
  exact fun entry isEntry => ⟨rfl, areWritten.again entry isEntry⟩

/-- A typed name is given if it is written as a field. -/
theorem held (areWritten : AreWritten typed fields extra) (isTyped : name ∈ typed) :
    held? name (nodes (fields ++ extra.entries)) = held? name (nodes fields) := by
  have absent : held? name (nodes extra.entries) = none := by
    rw [held?_eq_none, names_nodes]
    intro isKept
    obtain ⟨entry, isEntry, rfl⟩ := List.mem_map.1 isKept
    exact areWritten.apart entry isEntry isTyped
  rw [held?_nodes_append, absent, Option.or_none]

/-- A field is read from what is written of it. -/
theorem read?_field (areWritten : AreWritten typed fields extra) (isTyped : name ∈ typed)
    {missing : Option α} {node : Node} {data : α} (isHeld : held? name (nodes fields) = some node)
    (isRead : reader node = .ok data) :
    read? reader missing name (nodes (fields ++ extra.entries)) = some data :=
  read?_of_held ((areWritten.held isTyped).trans isHeld) isRead

/-- A field that may be given is read from what is written of it. -/
theorem read?_given (areWritten : AreWritten typed fields extra) (isTyped : name ∈ typed)
    {given : Option α}
    (isHeld : held? name (nodes fields) = given.map fun data => (write data).node)
    (again : ∀ data ∈ given, reader (write data).node = .ok data)
    (notNull : ∀ data, (write data).node ≠ .null) :
    read? (Reader.optional reader) (some none) name (nodes (fields ++ extra.entries)) = some given := by
  rw [← areWritten.held isTyped] at isHeld
  cases given with
  | none => exact read?_eq_some.2 (.inl ⟨isHeld, rfl⟩)
  | some data =>
    exact read?_of_held isHeld (Reader.optional_eq_ok.2 (.inr ⟨notNull data, data, again data rfl, rfl⟩))

end AreWritten

end Members

end PhysicsPrefab.Json
