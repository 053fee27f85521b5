import PhysicsPrefab.Proofs.Json.Mapping
import PhysicsPrefab.Proofs.Json.Reordering

/-!
# One more member

What an object says when one more member is put into it or into a part of it. A new name changes
nothing but what is kept (`Members.read?_insert`, `Members.kept?_insert`); a part that has grown is
read in its place, and the rest as before (`Members.read?_changed`, `Members.kept?_changed`).
-/

namespace PhysicsPrefab.Json

open Answer

/-- One tree is another with one more member in the object at the end of a path. -/
inductive Node.Grows (entry : String × Node) : List Place → Node → Node → Prop
  /-- The member is put into this object. -/
  | here (before after : List (String × Node)) (closed : Bool) :
    Grows entry [] (.object (before ++ after) closed) (.object (before ++ entry :: after) closed)
  /-- The path goes through an item. -/
  | item {path : List Place} {inner outer : Node} (before after : List Node) (closed : Bool) :
    Grows entry path inner outer → Grows entry (.item before.length :: path)
      (.array (before ++ inner :: after) closed) (.array (before ++ outer :: after) closed)
  /-- The path goes through a member. -/
  | member {path : List Place} {inner outer : Node} (before : List (String × Node)) (name : String)
      (after : List (String × Node)) (closed : Bool) :
    Grows entry path inner outer → Grows entry (.member name :: path)
      (.object (before ++ (name, inner) :: after) closed)
      (.object (before ++ (name, outer) :: after) closed)

namespace Members

variable {before after : List (String × Node)} {name : String} {node : Node} {typed : List String}

/-- The value of a name is looked for in front first. -/
theorem held?_append (name : String) (before after : List (String × Node)) :
    held? name (before ++ after) = (held? name before).or (held? name after) := by
  rw [held?, List.find?_append, held?, held?]
  cases List.find? (fun entry => entry.1 == name) before <;> rfl

/-- Names are counted in front and after. -/
theorem count_append (name : String) (before after : List (String × Node)) :
    count name (before ++ after) = count name before + count name after := by
  simp [count]

/-- A new name leaves the number of the others as it is. -/
theorem count_insert {other : String} (differs : name ≠ other) :
    count other (before ++ (name, node) :: after) = count other (before ++ after) := by
  rw [count_append, count_cons, if_neg differs, Nat.add_zero, count_append]

/-- A new name leaves what is read of the others as it is. -/
theorem read?_insert {α : Type} {reader : Reader α} {missing : Option α} {other : String}
    (differs : name ≠ other) : read? reader missing other (before ++ (name, node) :: after) =
      read? reader missing other (before ++ after) := by
  rw [read?, held?_append, held?_cons, if_neg differs, ← held?_append, read?]

/-- A new name that is not typed is kept with its value. -/
theorem kept?_insert (distinct : ((before ++ after).map (·.1)).Nodup) {extra : NameMap Value}
    (areKept : kept? typed (before ++ after) = some extra) (untyped : name ∉ typed)
    (isNew : name ∉ extra.names) {value : Value} (isValue : node.value? = some value) :
    kept? typed (before ++ (name, node) :: after) = some (extra.insert name value) := by
  obtain ⟨values, each, rfl⟩ := kept?_eq_some.1 areKept
  have fewer : ((before ++ after).filter fun entry => !typed.contains entry.1).Sublist
    (before ++ after) := List.filter_sublist
  have valuesDistinct : (values.map (·.1)).Nodup :=
    names_of_forall₂ each And.left ▸ (fewer.map _).nodup distinct
  have valueNew : name ∉ values.map (·.1) := fun member =>
    isNew (((NameMap.perm_ofList valuesDistinct).map _).mem_iff.2 member)
  rw [List.filter_append] at each
  obtain ⟨first, second, rfl, firstEach, secondEach⟩ := forall₂_append each
  refine kept?_eq_some.2 ⟨first ++ (name, value) :: second, ?_, NameMap.ofList_middle ?_⟩
  · rw [List.filter_append, List.filter_cons_of_pos (by simpa using untyped)]
    exact List.rel_append firstEach (.cons ⟨rfl, isValue⟩ secondEach)
  · rw [(List.perm_middle.map _).nodup_iff]
    exact List.nodup_cons.2 ⟨valueNew, valuesDistinct⟩

/-- An object with one more member has a value if the member has one. -/
theorem isSome_value?_insert {closed : Bool} {value : Value}
    (isThere : (Node.object (before ++ after) closed).value?.isSome = true)
    (isValue : node.value? = some value) :
    (Node.object (before ++ (name, node) :: after) closed).value?.isSome = true := by
  obtain ⟨whole, isWhole⟩ := Option.isSome_iff_exists.1 isThere
  obtain ⟨isClosed, values, each, -⟩ := Node.value?_object.1 isWhole
  obtain ⟨first, second, rfl, firstEach, secondEach⟩ := forall₂_append each
  refine Option.isSome_iff_exists.2 ⟨_, Node.value?_object.2
    ⟨isClosed, first ++ (name, value) :: second, ?_, rfl⟩⟩
  exact List.rel_append firstEach (.cons ⟨rfl, isValue⟩ secondEach)

/-- Every name is given as often as before. -/
theorem count_changed (other : String) (inner outer : Node) :
    count other (before ++ (name, outer) :: after) = count other (before ++ (name, inner) :: after) := by
  rw [count_append, count_cons, count_append, count_cons]

/-- The other names are read as before. -/
theorem read?_changed {α : Type} {reader : Reader α} {missing : Option α} {other : String}
    (differs : name ≠ other) (inner outer : Node) :
    read? reader missing other (before ++ (name, outer) :: after) =
      read? reader missing other (before ++ (name, inner) :: after) := by
  rw [read?_insert differs, read?_insert differs]

/-- A name that is given once is read where it is. -/
theorem read?_here {α : Type} {reader : Reader α} {missing : Option α} {value : α}
    (once : count name (before ++ (name, node) :: after) ≤ 1) :
    read? reader missing name (before ++ (name, node) :: after) = some value ↔
      reader node = .ok value := by
  have isHeld := held?_of_mem once (List.mem_append_right before List.mem_cons_self)
  rw [read?_eq_some, isHeld]
  simp

/-- What is kept stays as it is if the name is typed. -/
theorem kept?_changed (isTyped : name ∈ typed) (inner outer : Node) :
    kept? typed (before ++ (name, outer) :: after) = kept? typed (before ++ (name, inner) :: after) := by
  simp [kept?, isTyped]

end Members

end PhysicsPrefab.Json
