import PhysicsPrefab.Proofs.Json.Records

/-!
# The order of members

Two trees that differ in the order of the members of one object have the same value, as long as no
object has two members of one name (`Node.Reorders.value?`). A field of an object is then read as
before (`Members.Reorders.read?`), and as much is kept (`Members.Reorders.kept?`).
-/

namespace PhysicsPrefab.Json

open Answer

namespace Node

mutual

/-- Whether no object of a tree has two members of one name. -/
def HasDistinctNames : Node → Prop
  | .array items _ => itemsHaveDistinctNames items
  | .object members _ => (members.map (·.1)).Nodup ∧ membersHaveDistinctNames members
  | _ => True

/-- Whether no object of some trees has two members of one name. -/
def itemsHaveDistinctNames : List Node → Prop
  | [] => True
  | item :: rest => item.HasDistinctNames ∧ itemsHaveDistinctNames rest

/-- Whether no object of some members has two members of one name. -/
def membersHaveDistinctNames : List (String × Node) → Prop
  | [] => True
  | (_, item) :: rest => item.HasDistinctNames ∧ membersHaveDistinctNames rest

end

/-- The names in an array are distinct if those in each item are. -/
theorem hasDistinctNames_array {items : List Node} {closed : Bool} :
    (array items closed).HasDistinctNames ↔ ∀ item ∈ items, item.HasDistinctNames := by
  rw [HasDistinctNames]
  induction items with
  | nil => simp [itemsHaveDistinctNames]
  | cons item rest ih => simp [itemsHaveDistinctNames, ih]

/-- The names in an object are distinct if its own are and those in each member. -/
theorem hasDistinctNames_object {members : List (String × Node)} {closed : Bool} :
    (object members closed).HasDistinctNames ↔ (members.map (·.1)).Nodup ∧
      ∀ name item, (name, item) ∈ members → item.HasDistinctNames := by
  rw [HasDistinctNames]
  refine and_congr_right fun distinct => ?_
  induction members with
  | nil => simp [membersHaveDistinctNames]
  | cons member rest ih =>
    obtain ⟨name, item⟩ := member
    rw [List.map_cons, List.nodup_cons] at distinct
    rw [membersHaveDistinctNames, ih distinct.2]
    constructor
    · rintro ⟨first, others⟩ other node isMember
      rcases List.mem_cons.1 isMember with same | later
      · exact (Prod.mk.inj same).2 ▸ first
      · exact others other node later
    · intro each
      exact ⟨each name item List.mem_cons_self,
        fun other node later => each other node (List.mem_cons_of_mem _ later)⟩

/-- The names in an item are distinct if those in the array are. -/
theorem HasDistinctNames.item {before after : List Node} {item : Node} {closed : Bool}
    (distinct : (array (before ++ item :: after) closed).HasDistinctNames) : item.HasDistinctNames :=
  hasDistinctNames_array.1 distinct item (List.mem_append_right _ List.mem_cons_self)

/-- The names in a member are distinct if those in the object are. -/
theorem HasDistinctNames.member {before after : List (String × Node)} {name : String} {item : Node}
    {closed : Bool} (distinct : (object (before ++ (name, item) :: after) closed).HasDistinctNames) :
    item.HasDistinctNames :=
  (hasDistinctNames_object.1 distinct).2 name item (List.mem_append_right _ List.mem_cons_self)

/-- One tree is another with the members of one of its objects in some other order. -/
inductive Reorders : Node → Node → Prop
  /-- The members of this object are in another order. -/
  | members {entries others : List (String × Node)} (closed : Bool) :
    entries.Perm others → Reorders (.object entries closed) (.object others closed)
  /-- The object is in an item. -/
  | item {inner outer : Node} (before after : List Node) (closed : Bool) :
    Reorders inner outer →
      Reorders (.array (before ++ inner :: after) closed) (.array (before ++ outer :: after) closed)
  /-- The object is in a member. -/
  | member {inner outer : Node} (before : List (String × Node)) (name : String)
      (after : List (String × Node)) (closed : Bool) :
    Reorders inner outer → Reorders (.object (before ++ (name, inner) :: after) closed)
      (.object (before ++ (name, outer) :: after) closed)

end Node

namespace Members

/-- One list of members is another in some other order, or with one value reordered. -/
inductive Reorders : List (String × Node) → List (String × Node) → Prop
  /-- The members are in another order. -/
  | members {entries others : List (String × Node)} : entries.Perm others → Reorders entries others
  /-- One value is reordered. -/
  | member {inner outer : Node} (before : List (String × Node)) (name : String)
      (after : List (String × Node)) :
    inner.Reorders outer →
      Reorders (before ++ (name, inner) :: after) (before ++ (name, outer) :: after)

variable {entries others : List (String × Node)}

/-- The names stay, in some order. -/
theorem Reorders.names (step : Reorders entries others) :
    (entries.map (·.1)).Perm (others.map (·.1)) := by
  cases step with
  | members perm => exact perm.map _
  | member before name after _ => simp

/-- Every name is given as often as before. -/
theorem Reorders.count_eq (step : Reorders entries others) (name : String) :
    count name others = count name entries := (step.names.count_eq name).symm

/-- Every member stays as it is or is reordered. -/
theorem Reorders.exists_mem (step : Reorders entries others) {name : String} {node : Node}
    (member : (name, node) ∈ entries) :
    ∃ other, (name, other) ∈ others ∧ (other = node ∨ node.Reorders other) := by
  cases step with
  | members perm => exact ⟨node, perm.mem_iff.1 member, .inl rfl⟩
  | @member inner outer before changed after step =>
    rw [List.mem_append, List.mem_cons] at member
    rcases member with earlier | here | later
    · exact ⟨node, by simp [earlier], .inl rfl⟩
    · cases here
      exact ⟨outer, by simp, .inr step⟩
    · exact ⟨node, by simp [later], .inl rfl⟩

/-- The value of a name stays as it is or is reordered. -/
theorem Reorders.exists_held? (step : Reorders entries others)
    (distinct : (entries.map (·.1)).Nodup) {name : String} {node : Node}
    (isHeld : held? name entries = some node) :
    ∃ other, held? name others = some other ∧ (other = node ∨ node.Reorders other) := by
  obtain ⟨other, member, same⟩ := step.exists_mem (mem_of_held? isHeld)
  have once : count name others ≤ 1 := count_le_one (step.names.nodup_iff.1 distinct)
  exact ⟨other, held?_of_mem once member, same⟩

/-- What is made of each of some members bears their names. -/
theorem names_of_forall₂ {α : Type} {related : String × Node → String × α → Prop}
    {values : List (String × α)} (each : List.Forall₂ related entries values)
    (named : ∀ {entry value}, related entry value → entry.1 = value.1) :
    entries.map (·.1) = values.map (·.1) := by
  induction each with
  | nil => rfl
  | cons first _ ih => rw [List.map_cons, List.map_cons, named first, ih]

/-- The map of what is made of members of different names stays as it is. -/
theorem Reorders.exists_ofList_eq {α : Type} (related : Node → α → Prop)
    (step : Reorders entries others) (distinct : (entries.map (·.1)).Nodup)
    (follows : ∀ {name node other value}, (name, node) ∈ entries → node.Reorders other →
      related node value → related other value) {values : List (String × α)}
    (each : List.Forall₂ (fun entry value => entry.1 = value.1 ∧ related entry.2 value.2)
      entries values) :
    ∃ permuted, List.Forall₂ (fun entry value => entry.1 = value.1 ∧ related entry.2 value.2)
        others permuted ∧ NameMap.ofList permuted = NameMap.ofList values := by
  cases step with
  | members perm =>
    obtain ⟨permuted, samePerm, othersEach⟩ := forall₂_of_perm each perm
    rw [names_of_forall₂ each And.left] at distinct
    exact ⟨permuted, othersEach, (NameMap.ofList_of_perm distinct samePerm).symm⟩
  | member before name after step =>
    refine ⟨values, forall₂_replace each fun value isMade => ?_, rfl⟩
    exact ⟨isMade.1, follows (List.mem_append_right _ List.mem_cons_self) step isMade.2⟩

/-- Leaving out the members of some names leaves a reordering or nothing of it. -/
theorem Reorders.filter (step : Reorders entries others) (keep : String → Bool) :
    Reorders (entries.filter fun entry => keep entry.1) (others.filter fun entry => keep entry.1) := by
  cases step with
  | members perm => exact .members (perm.filter _)
  | member before name after step =>
    rw [List.filter_append, List.filter_append, List.filter_cons, List.filter_cons]
    cases keep name with
    | true => exact .member _ name _ step
    | false => exact .members (.refl _)

end Members

namespace Node

variable {node other : Node}

/-- An object is reordered as its members are. -/
theorem Reorders.object {entries : List (String × Node)} {closed : Bool}
    (step : (Node.object entries closed).Reorders other) :
    ∃ others, other = .object others closed ∧ Members.Reorders entries others := by
  cases step with
  | members _ perm => exact ⟨_, rfl, .members perm⟩
  | member before name after _ step => exact ⟨_, rfl, .member before name after step⟩

/-- A reordering leaves the names distinct. -/
theorem Reorders.hasDistinctNames (step : node.Reorders other) (distinct : node.HasDistinctNames) :
    other.HasDistinctNames := by
  induction step with
  | members closed perm =>
    rw [hasDistinctNames_object] at distinct ⊢
    exact ⟨(perm.map _).nodup_iff.1 distinct.1,
      fun name item member => distinct.2 name item (perm.mem_iff.2 member)⟩
  | item before after closed step ih =>
    rw [hasDistinctNames_array] at distinct ⊢
    simp only [List.forall_mem_append, List.forall_mem_cons] at distinct ⊢
    exact ⟨distinct.1, ih distinct.2.1, distinct.2.2⟩
  | @member inner outer before name after closed step ih =>
    rw [hasDistinctNames_object] at distinct ⊢
    obtain ⟨names, inMembers⟩ := distinct
    refine ⟨by simpa using names, fun other node member => ?_⟩
    rw [List.mem_append, List.mem_cons] at member
    rcases member with earlier | here | later
    · exact inMembers other node (by simp [earlier])
    · cases here
      exact ih (inMembers name inner (by simp))
    · exact inMembers other node (by simp [later])

/-- A reordering leaves the value of a tree as it is. -/
theorem Reorders.value? (step : node.Reorders other) (distinct : node.HasDistinctNames) {value : Value}
    (isValue : node.value? = some value) : other.value? = some value := by
  induction step generalizing value with
  | members closed perm =>
    obtain ⟨names, -⟩ := hasDistinctNames_object.1 distinct
    obtain ⟨whole, values, each, rfl⟩ := value?_object.1 isValue
    obtain ⟨permuted, samePerm, othersEach⟩ := forall₂_of_perm each perm
    rw [Members.names_of_forall₂ each And.left] at names
    rw [NameMap.ofList_of_perm names samePerm]
    exact value?_object.2 ⟨whole, permuted, othersEach, rfl⟩
  | item before after closed step ih =>
    obtain ⟨whole, values, each, rfl⟩ := value?_array.1 isValue
    exact value?_array.2 ⟨whole, values, forall₂_replace each fun _ => ih distinct.item, rfl⟩
  | member before name after closed step ih =>
    obtain ⟨whole, values, each, rfl⟩ := value?_object.1 isValue
    exact value?_object.2 ⟨whole, values,
      forall₂_replace each fun _ isMade => ⟨isMade.1, ih distinct.member isMade.2⟩, rfl⟩

end Node

/-- Whether a reader reads the same of a tree whose members are in another order. -/
def Reader.IgnoresOrder {α : Type} (reader : Reader α) : Prop :=
  ∀ node other value, node.HasDistinctNames → node.Reorders other →
    reader node = .ok value → reader other = .ok value

namespace Members.Reorders

variable {α : Type} {reader : Reader α} {entries others : List (String × Node)}

/-- What is read of a name stays as it is. -/
theorem read? (step : Reorders entries others) (ignores : reader.IgnoresOrder)
    (distinct : (Node.object entries true).HasDistinctNames) {missing : Option α} {name : String}
    {value : α} (isRead : read? reader missing name entries = some value) :
    Members.read? reader missing name others = some value := by
  obtain ⟨names, inMembers⟩ := Node.hasDistinctNames_object.1 distinct
  rcases read?_eq_some.1 isRead with ⟨isMissing, isValue⟩ | ⟨node, isHeld, isRead⟩
  · refine read?_eq_some.2 (.inl ⟨?_, isValue⟩)
    rw [held?_eq_none, ← count_eq_zero] at isMissing ⊢
    rw [step.count_eq, isMissing]
  · obtain ⟨other, isThere, rfl | reordered⟩ := step.exists_held? names isHeld
    · exact read?_eq_some.2 (.inr ⟨other, isThere, isRead⟩)
    · have inMember := inMembers name node (mem_of_held? isHeld)
      exact read?_eq_some.2 (.inr ⟨other, isThere, ignores node other value inMember reordered isRead⟩)

/-- What is kept stays as it is. -/
theorem kept? (step : Reorders entries others)
    (distinct : (Node.object entries true).HasDistinctNames) {typed : List String}
    {extra : NameMap Value} (areKept : kept? typed entries = some extra) :
    Members.kept? typed others = some extra := by
  obtain ⟨names, inMembers⟩ := Node.hasDistinctNames_object.1 distinct
  obtain ⟨values, each, rfl⟩ := kept?_eq_some.1 areKept
  have fewer : (entries.filter fun entry => !typed.contains entry.1).Sublist entries :=
    List.filter_sublist
  obtain ⟨permuted, othersEach, same⟩ := (step.filter (!typed.contains ·)).exists_ofList_eq
    (fun node value => node.value? = some value) ((fewer.map _).nodup names) (fun member reordered isValue =>
      reordered.value? (inMembers _ _ (fewer.subset member)) isValue) each
  exact kept?_eq_some.2 ⟨permuted, othersEach, same⟩

end Members.Reorders

namespace Reader.IgnoresOrder

variable {α : Type} {reader : Reader α}

/-- The same is read after any number of reorderings. -/
theorem many (ignores : reader.IgnoresOrder) {node other : Node} (distinct : node.HasDistinctNames)
    (steps : Relation.ReflTransGen Node.Reorders node other) {value : α}
    (isRead : reader node = .ok value) : reader other = .ok value := by
  have kept : other.HasDistinctNames ∧ reader other = .ok value := by
    induction steps with
    | refl => exact ⟨distinct, isRead⟩
    | tail _ step ih => exact ⟨step.hasDistinctNames ih.1, ignores _ _ _ ih.1 step ih.2⟩
  exact kept.2

/-- A text has no members. -/
theorem string : Reader.string.IgnoresOrder := by
  intro node other value _ step isRead
  obtain rfl := string_eq_ok.1 isRead
  cases step

/-- What may be `null` is read as such, or as it is otherwise. -/
theorem optional (ignores : reader.IgnoresOrder) : (Reader.optional reader).IgnoresOrder := by
  intro node other given distinct step isRead
  rcases optional_eq_ok.1 isRead with ⟨rfl, -⟩ | ⟨-, value, isGiven, rfl⟩
  · cases step
  · refine optional_eq_ok.2 (.inr ⟨?_, value, ignores node other value distinct step isGiven, rfl⟩)
    rintro rfl
    cases step

/-- A list is read item by item. -/
theorem list (ignores : reader.IgnoresOrder) : (Reader.list reader).IgnoresOrder := by
  intro node other values distinct step areRead
  obtain ⟨items, rfl, each⟩ := list_eq_ok.1 areRead
  generalize isNode : Node.array items true = node at step
  cases step with
  | members | member => cases isNode
  | item before after closed step =>
    cases isNode
    exact list_eq_ok.2
      ⟨_, rfl, forall₂_replace each fun value => ignores _ _ value distinct.item step⟩

/-- An object is read as what its members say, if this stays as it is. -/
theorem of_members {said : List (String × Node) → α → Prop}
    (isReader : ∀ {node result}, reader node = .ok result ↔
      ∃ entries, node = .object entries true ∧ said entries result)
    (follows : ∀ {entries others result}, (Node.object entries true).HasDistinctNames →
      Members.Reorders entries others → said entries result → said others result) :
    reader.IgnoresOrder := by
  intro node other result distinct step isRead
  obtain ⟨entries, rfl, isSaid⟩ := isReader.1 isRead
  obtain ⟨others, rfl, inMembers⟩ := step.object
  exact isReader.2 ⟨others, rfl, follows distinct inMembers isSaid⟩

end Reader.IgnoresOrder

end PhysicsPrefab.Json
