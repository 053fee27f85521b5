import PhysicsPrefab.Json.Reader
import PhysicsPrefab.Proofs.Answers
import PhysicsPrefab.Proofs.Json.Building
import PhysicsPrefab.Proofs.Json.Members

/-!
# Lists and objects that are read

A list is read if and only if it is whole and each of its items is read (`Reader.list_eq_ok`); an
object is put together from what its members are read as (`Reader.record_eq_ok`). Members of
different names that can be read are never refused together (`Reader.fields_of_forall₂`). Whatever is
written is some value when it is read (`Value.exists_read_value`).
-/

namespace PhysicsPrefab.Json

open Answer

namespace Reader

variable {α φ : Type}

/-- A list is read item by item, up to its end. -/
theorem list_eq_ok {reader : Reader α} {node : Node} {values : List α} :
    list reader node = .ok values ↔ ∃ items, node = .array items true ∧
      List.Forall₂ (fun item value => reader item = .ok value) items values := by
  cases node with
  | array items closed =>
    change (items.mapM reader).bind (fun read => if closed then .ok read else .error .malformed) = _ ↔ _
    rw [bind_eq_ok]
    constructor
    · rintro ⟨read, isRead, ended⟩
      cases closed with
      | false => cases ended
      | true =>
        cases ended
        exact ⟨items, rfl, mapM_eq_ok_iff.1 isRead⟩
    · rintro ⟨_, same, each⟩
      cases same
      exact ⟨values, mapM_eq_ok_iff.2 each, rfl⟩
  | null | boolean _ | number _ | string _ | object _ _ | malformed =>
    exact iff_of_false nofun fun ⟨_, same, _⟩ => nomatch same

/-- An optional value is left out or read as such. -/
theorem optional_eq_ok {reader : Reader α} {node : Node} {given : Option α} :
    optional reader node = .ok given ↔ (node = .null ∧ given = none) ∨
      node ≠ .null ∧ ∃ value, reader node = .ok value ∧ given = some value := by
  cases node with
  | null => simp [optional, eq_comm]
  | boolean _ | number _ | string _ | array _ _ | object _ _ | malformed =>
    exact map_eq_ok.trans (by simp [eq_comm (a := given)])

/-- An optional value that is given is read as such. -/
theorem of_optional {reader : Reader α} {node : Node} {value : α}
    (isRead : optional reader node = .ok (some value)) : reader node = .ok value := by
  rcases optional_eq_ok.1 isRead with ⟨-, absent⟩ | ⟨-, _, isRead, same⟩
  · cases absent
  · cases same
    exact isRead

/-- A text is read as it is. -/
theorem string_eq_ok {node : Node} {value : String} : string node = .ok value ↔ node = .string value := by
  cases node <;> simp [string]

/-- A number is read as a double, whatever its form. -/
theorem number_eq_ok {node : Node} {value : Float} :
    number node = .ok value ↔ ∃ read, node = .number read ∧ read.toFloat = value := by
  cases node <;> simp [number]

/-- Three numbers are read from an array of exactly three. -/
theorem triple_eq_ok {node : Node} {x y z : Float} : triple node = .ok (x, y, z) ↔
    ∃ first second third, node = .array [first, second, third] true ∧
      number first = .ok x ∧ number second = .ok y ∧ number third = .ok z := by
  unfold triple
  split
  case h_1 first second third rest closed =>
    change (number first).bind (fun _ => (number second).bind fun _ => (number third).bind _) = _ ↔ _
    simp only [bind_eq_ok]
    constructor
    · rintro ⟨_, isFirst, _, isSecond, _, isThird, ended⟩
      split at ended
      · rename_i whole
        obtain ⟨rfl, isEmpty⟩ := Bool.and_eq_true_iff.1 whole
        obtain rfl := List.isEmpty_iff.1 isEmpty
        cases ended
        exact ⟨first, second, third, rfl, isFirst, isSecond, isThird⟩
      · cases ended
    · rintro ⟨_, _, _, same, isFirst, isSecond, isThird⟩
      cases same
      exact ⟨x, isFirst, y, isSecond, z, isThird, rfl⟩
  case h_2 items closed short =>
    refine iff_of_false (fun isRead => ?_) fun ⟨first, second, third, same, _⟩ =>
      short first second third [] (Node.array.inj same).1
    change (items.mapM number).bind _ = _ at isRead
    obtain ⟨_, -, ended⟩ := bind_eq_ok.1 isRead
    split at ended <;> cases ended
  case h_3 noArray =>
    exact iff_of_false nofun fun ⟨_, _, _, same, _⟩ => noArray _ _ same

/-- The members of a map are read one by one, up to its end. -/
theorem members_eq_ok {reader : Reader α} {node : Node} {values : List (String × α)} :
    members reader node = .ok values ↔ ∃ entries, node = .object entries true ∧
      List.Forall₂ (fun entry value => entry.1 = value.1 ∧ reader entry.2 = .ok value.2)
        entries values := by
  cases node with
  | object entries closed =>
    have each (entry : String × Node) (value : String × α) :
        (reader entry.2).bind (fun read => .ok (entry.1, read)) = .ok value ↔
          entry.1 = value.1 ∧ reader entry.2 = .ok value.2 := by
      rw [bind_eq_ok]
      constructor
      · rintro ⟨read, isRead, same⟩
        cases same
        exact ⟨rfl, isRead⟩
      · rintro ⟨same, isRead⟩
        exact ⟨value.2, isRead, by rw [same]⟩
    change (entries.mapM fun entry => (reader entry.2).bind (fun read => .ok (entry.1, read))).bind
      (fun values => if closed then .ok values else .error .malformed) = _ ↔ _
    simp only [bind_eq_ok, mapM_eq_ok_iff, each]
    constructor
    · rintro ⟨read, areRead, ended⟩
      cases closed with
      | false => cases ended
      | true =>
        cases ended
        exact ⟨entries, rfl, areRead⟩
    · rintro ⟨_, same, areRead⟩
      cases same
      exact ⟨values, areRead, rfl⟩
  | null | boolean _ | number _ | string _ | array _ _ | malformed =>
    exact iff_of_false nofun fun ⟨_, same, _⟩ => nomatch same

variable {typed : List String} {field : String → Reader φ}

/-- What members of different names are read as are the fields of an object. -/
theorem fields_of_forall₂ {entries : List (String × Node)} {read : List φ}
    (distinct : (entries.map (·.1)).Nodup)
    (each : List.Forall₂ (fun entry value => field entry.1 entry.2 = .ok value) entries read) :
    fields typed field [] entries = .ok read :=
  fields_eq_ok.2 ⟨nofun, fun _ _ => Members.count_le_one distinct, each⟩

/-- A field that must be given is there if it is given. -/
theorem required_eq_ok {name : String} {given : Option α} {value : α} :
    required name given = .ok value ↔ given = some value := by
  cases given <;> simp [required]

end Reader

namespace Value

/-- The trees of items are those of each. -/
theorem itemNodes_eq (items : List Value) : itemNodes items = items.map node := by
  induction items with
  | nil => rfl
  | cons item rest ih => rw [itemNodes, ih, List.map_cons]

/-- The trees of members are those of each. -/
theorem memberNodes_eq (members : List (String × Value)) :
    memberNodes members = members.map fun member => (member.1, member.2.node) := by
  induction members with
  | nil => rfl
  | cons member rest ih => rw [memberNodes, ih, List.map_cons]

mutual

/-- The tree of a value has a value. -/
theorem isSome_value?_node : ∀ value : Value, value.node.value?.isSome = true
  | .null | .boolean _ | .string _ => rfl
  | .number value => by
    rw [node]
    split <;> rfl
  | .array items => by
    rw [node, Node.value?, if_pos rfl, Option.isSome_map, isSome_values?_itemNodes items]
  | .object members => by
    rw [node, Node.value?, if_pos rfl, Option.isSome_map, isSome_entries?_memberNodes members]

/-- The trees of items have values. -/
theorem isSome_values?_itemNodes : ∀ items : List Value, (Node.values? (itemNodes items)).isSome = true
  | [] => rfl
  | item :: rest => by
    obtain ⟨value, isValue⟩ := Option.isSome_iff_exists.1 (isSome_value?_node item)
    obtain ⟨values, areValues⟩ := Option.isSome_iff_exists.1 (isSome_values?_itemNodes rest)
    rw [itemNodes, Node.values?, isValue, areValues]
    rfl

/-- The trees of members have values. -/
theorem isSome_entries?_memberNodes : ∀ members : List (String × Value),
    (Node.entries? (memberNodes members)).isSome = true
  | [] => rfl
  | (name, item) :: rest => by
    obtain ⟨value, isValue⟩ := Option.isSome_iff_exists.1 (isSome_value?_node item)
    obtain ⟨entries, areEntries⟩ := Option.isSome_iff_exists.1 (isSome_entries?_memberNodes rest)
    rw [memberNodes, Node.entries?, isValue, areEntries]
    rfl

end

/-- A value that was written is read as some value. -/
theorem exists_read_value (value : Value) : ∃ read, Reader.value value.node = .ok read := by
  obtain ⟨read, isRead⟩ := Option.isSome_iff_exists.1 value.isSome_value?_node
  exact ⟨read, by rw [Reader.value, isRead]⟩

/-- An object that was written with different names is put together from what its members are read
as. -/
theorem exists_read_members {α φ : Type} (kind : String) (typed : List String)
    {field : String → Reader φ} (build : List φ → Except Fault α) {members : List (String × Value)}
    (distinct : (members.map (·.1)).Nodup)
    (readable : ∀ member ∈ members, ∃ value, field member.1 member.2.node = .ok value) :
    ∃ read, List.Forall₂ (fun member value => field member.1 member.2.node = .ok value) members read ∧
      Reader.record kind typed field build (object members).node = build read := by
  obtain ⟨read, each⟩ := exists_forall₂ readable
  refine ⟨read, each, ?_⟩
  rw [node, memberNodes_eq, Reader.record, Reader.fields_of_forall₂ (by rwa [List.map_map])
    (List.forall₂_map_left_iff.2 each)]
  rfl

/-- A double that is finite is read as some number. -/
theorem exists_read_number {value : Float} (isFinite : value.isFinite = true) :
    ∃ read, Reader.number (ofFloat value).node = .ok read := by
  obtain ⟨read, isRead⟩ := Number.token_of_isFinite isFinite
  exact ⟨read.toFloat, by rw [ofFloat, node, isRead, Reader.number]⟩

end Value

end PhysicsPrefab.Json
