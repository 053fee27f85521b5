import PhysicsPrefab.Json.Reader
import PhysicsPrefab.Proofs.Answers
import PhysicsPrefab.Proofs.NameMaps

/-!
# What the members of an object say

The fields of an object are read one after the other, and the object is put together from all of
them. The outcome can be told from the members alone: each typed name may be given once
(`Reader.fields_eq_ok`), its field is what the value of that name is read as or what stands for a
missing one (`Members.read?`), and the other members are kept (`Members.kept?`).
-/

namespace PhysicsPrefab.Json

open Answer

namespace Node

/-- Items have values if each has one. -/
theorem values?_eq_some {items : List Node} {values : List Value} : values? items = some values ↔
    List.Forall₂ (fun item value => item.value? = some value) items values := by
  induction items generalizing values with
  | nil => simp [values?, eq_comm]
  | cons item rest ih =>
    rw [values?, List.forall₂_cons_left_iff]
    simp only [bind, Option.bind_eq_some_iff, ih, Option.some.injEq]
    constructor
    · rintro ⟨value, isValue, others, each, rfl⟩
      exact ⟨value, others, isValue, each, rfl⟩
    · rintro ⟨value, others, isValue, each, rfl⟩
      exact ⟨value, isValue, others, each, rfl⟩

/-- Members have values if each has one, under its name. -/
theorem entries?_eq_some {members : List (String × Node)} {entries : List (String × Value)} :
    entries? members = some entries ↔ List.Forall₂
      (fun member entry => member.1 = entry.1 ∧ member.2.value? = some entry.2) members entries := by
  induction members generalizing entries with
  | nil => simp [entries?, eq_comm]
  | cons member rest ih =>
    rw [entries?, List.forall₂_cons_left_iff]
    simp only [bind, Option.bind_eq_some_iff, ih, Option.some.injEq]
    constructor
    · rintro ⟨value, isValue, others, each, rfl⟩
      exact ⟨_, others, ⟨rfl, isValue⟩, each, rfl⟩
    · rintro ⟨⟨name, value⟩, others, ⟨rfl, isValue⟩, each, rfl⟩
      exact ⟨value, isValue, others, each, rfl⟩

/-- A whole array whose items have values has them as its value. -/
theorem value?_array {items : List Node} {closed : Bool} {value : Value} :
    (array items closed).value? = some value ↔ closed = true ∧ ∃ values,
      List.Forall₂ (fun item value => item.value? = some value) items values ∧
        value = .array values := by
  rw [Node.value?]
  cases closed with
  | false => simp
  | true => simp [values?_eq_some, @eq_comm _ value]

/-- A whole object whose members have values has their map as its value. -/
theorem value?_object {members : List (String × Node)} {closed : Bool} {value : Value} :
    (object members closed).value? = some value ↔ closed = true ∧ ∃ entries,
      List.Forall₂ (fun member entry => member.1 = entry.1 ∧ member.2.value? = some entry.2)
        members entries ∧ value = .object (NameMap.ofList entries).entries := by
  rw [Node.value?]
  cases closed with
  | false => simp
  | true => simp [entries?_eq_some, @eq_comm _ value]

/-- What holds of scalars, of an array if it holds of its items, and of an object if it holds of its
members, holds of every tree and its value. -/
@[elab_as_elim] theorem value?_induction {motive : Node → Value → Prop} (null : motive .null .null)
    (boolean : ∀ value, motive (.boolean value) (.boolean value))
    (number : ∀ value, motive (.number value) (.number value))
    (string : ∀ value, motive (.string value) (.string value))
    (array : ∀ items values, List.Forall₂ motive items values →
      motive (.array items true) (.array values))
    (object : ∀ members entries,
      List.Forall₂ (fun member entry => member.1 = entry.1 ∧ motive member.2 entry.2) members entries →
      motive (.object members true) (.object (NameMap.ofList entries).entries)) :
    ∀ {node : Node} {value : Value}, node.value? = some value → motive node value
  | .null, _, isValue => by
    cases isValue
    exact null
  | .boolean value, _, isValue => by
    cases isValue
    exact boolean value
  | .number value, _, isValue => by
    cases isValue
    exact number value
  | .string value, _, isValue => by
    cases isValue
    exact string value
  | .malformed, _, isValue => nomatch isValue
  | .array items closed, _, isValue => by
    obtain ⟨rfl, values, each, rfl⟩ := value?_array.1 isValue
    have inside := (List.forall₂_and_left items values).2 ⟨fun _ isItem => isItem, each⟩
    refine array items values (inside.imp fun item value ⟨isItem, isRead⟩ => ?_)
    have smaller : sizeOf item < sizeOf items := List.sizeOf_lt_of_mem isItem
    exact value?_induction null boolean number string array object isRead
  | .object members closed, _, isValue => by
    obtain ⟨rfl, entries, each, rfl⟩ := value?_object.1 isValue
    have inside := (List.forall₂_and_left members entries).2 ⟨fun _ isMember => isMember, each⟩
    refine object members entries
      (inside.imp fun (_, item) entry ⟨isMember, sameName, isRead⟩ => ⟨sameName, ?_⟩)
    have smaller : sizeOf item < sizeOf members := by
      have whole := List.sizeOf_lt_of_mem isMember
      rw [Prod.mk.sizeOf_spec] at whole
      omega
    exact value?_induction null boolean number string array object isRead
termination_by node => sizeOf node
decreasing_by
  · rw [Node.array.sizeOf_spec]
    omega
  · rw [Node.object.sizeOf_spec]
    omega

end Node

namespace Members

variable {entries : List (String × Node)} {name : String} {node : Node}

/-- How often a name is given. -/
def count (name : String) (entries : List (String × Node)) : Nat := (entries.map (·.1)).count name

/-- The value of the first member of a name. -/
def held? (name : String) (entries : List (String × Node)) : Option Node :=
  (entries.find? fun entry => entry.1 == name).map (·.2)

/-- What the value of a name is read as, or what stands for it if the name is not given. -/
def read? {α : Type} (reader : Reader α) (missing : Option α) (name : String)
    (entries : List (String × Node)) : Option α :=
  match held? name entries with
  | some node => (reader node).toOption
  | none => missing

/-- What is kept of the members whose names are not typed. -/
def kept? (typed : List String) (entries : List (String × Node)) : Option (NameMap Value) :=
  (Node.entries? (entries.filter fun entry => !typed.contains entry.1)).map NameMap.ofList

/-- The value of a name is that of the first member if it bears the name. -/
theorem held?_cons (other name : String) (node : Node) (entries : List (String × Node)) :
    held? name ((other, node) :: entries) = if other = name then some node else held? name entries := by
  rw [held?, List.find?_cons]
  by_cases same : other = name
  · simp [same]
  · have apart : (other == name) = false := by simpa using same
    simp [apart, same, held?]

/-- A first member counts if it bears the name. -/
theorem count_cons (other name : String) (node : Node) (entries : List (String × Node)) :
    count name ((other, node) :: entries) = count name entries + if other = name then 1 else 0 := by
  simp [count, List.count_cons]

/-- A name that is given never is the name of no member. -/
theorem count_eq_zero : count name entries = 0 ↔ name ∉ entries.map (·.1) := List.count_eq_zero

/-- A name is given at most once if the names differ. -/
theorem count_le_one (distinct : (entries.map (·.1)).Nodup) : count name entries ≤ 1 :=
  List.nodup_iff_count_le_one.1 distinct name

/-- The value of a name is that of one of its members. -/
theorem mem_of_held? (isHeld : held? name entries = some node) : (name, node) ∈ entries := by
  obtain ⟨⟨other, value⟩, found, rfl⟩ := Option.map_eq_some_iff.1 isHeld
  have same : other = name := by simpa using List.find?_some found
  exact same ▸ List.mem_of_find?_eq_some found

/-- There is a value of a name if it is given. -/
theorem held?_eq_none : held? name entries = none ↔ name ∉ entries.map (·.1) := by
  rw [held?, Option.map_eq_none_iff, List.find?_eq_none, List.mem_map]
  constructor
  · rintro absent ⟨entry, member, rfl⟩
    exact absent entry member (beq_self_eq_true _)
  · intro absent entry member same
    exact absent ⟨entry, member, beq_iff_eq.1 same⟩

/-- A name that is given once at most has the value of each of its members. -/
theorem held?_of_mem (once : count name entries ≤ 1) (member : (name, node) ∈ entries) :
    held? name entries = some node := by
  induction entries with
  | nil => cases member
  | cons entry rest ih =>
    obtain ⟨other, value⟩ := entry
    rw [held?_cons]
    rw [count_cons] at once
    by_cases same : other = name
    · have none : name ∉ rest.map (·.1) := count_eq_zero.1 (by simpa [same] using once)
      rcases List.mem_cons.1 member with here | later
      · rw [if_pos same, (Prod.mk.inj here).2]
      · exact absurd (List.mem_map_of_mem later) none
    · rw [if_neg same]
      refine ih (by simpa [same] using once) ((List.mem_cons.1 member).resolve_left fun here => ?_)
      exact same (Prod.mk.inj here).1.symm

/-- What is read of a name is what its value is read as, or what stands for it. -/
theorem read?_eq_some {α : Type} {reader : Reader α} {missing : Option α} {value : α} :
    read? reader missing name entries = some value ↔
      (held? name entries = none ∧ missing = some value) ∨
        ∃ node, held? name entries = some node ∧ reader node = .ok value := by
  rw [read?]
  cases held? name entries with
  | none => simp
  | some node => cases isRead : reader node <;> simp [Except.toOption, isRead]

/-- What is kept are the values of the members of other names. -/
theorem kept?_eq_some {typed : List String} {extra : NameMap Value} :
    kept? typed entries = some extra ↔ ∃ others,
      List.Forall₂ (fun member entry => member.1 = entry.1 ∧ member.2.value? = some entry.2)
        (entries.filter fun entry => !typed.contains entry.1) others ∧
      NameMap.ofList others = extra := by
  rw [kept?, Option.map_eq_some_iff]
  exact exists_congr fun others => and_congr_left' Node.entries?_eq_some

/-- What is kept under a name is the value of a member of that name, which is not typed. -/
theorem exists_of_kept? {typed : List String} {extra : NameMap Value}
    (areKept : kept? typed entries = some extra) {entry : String × Value}
    (member : entry ∈ extra.entries) :
    entry.1 ∉ typed ∧ ∃ node, (entry.1, node) ∈ entries ∧ node.value? = some entry.2 := by
  obtain ⟨others, each, rfl⟩ := kept?_eq_some.1 areKept
  obtain ⟨⟨name, node⟩, isOther, rfl, isValue⟩ :=
    exists_of_mem_right each (NameMap.mem_of_mem_ofList member)
  obtain ⟨isMember, untyped⟩ := List.mem_filter.1 isOther
  exact ⟨by simpa using untyped, node, isMember, isValue⟩

end Members

namespace Reader

variable {α β φ : Type} {typed : List String} {field : String → Reader φ}
  {entries : List (String × Node)} {read : List φ}

open Members

/-- A member is new, and no typed name is given again after it, if no typed name is given twice. -/
theorem unseen_iff {seen : List String} {name : String} (node : Node) (isNew : name ∉ seen) :
    ((∀ other ∈ if typed.contains name then name :: seen else seen, other ∉ entries.map (·.1)) ∧
      ∀ other ∈ typed, count other entries ≤ 1) ↔
    (∀ other ∈ seen, other ∉ ((name, node) :: entries).map (·.1)) ∧
      ∀ other ∈ typed, count other ((name, node) :: entries) ≤ 1 := by
  have seenApart : (∀ other ∈ seen, other ∉ ((name, node) :: entries).map (·.1)) ↔
      ∀ other ∈ seen, other ∉ entries.map (·.1) := by
    refine forall₂_congr fun other isSeen => ?_
    have differs : other ≠ name := fun same => isNew (same ▸ isSeen)
    simp [differs]
  rw [seenApart]
  by_cases isTyped : name ∈ typed
  · rw [if_pos (List.contains_iff_mem.2 isTyped), List.forall_mem_cons, ← count_eq_zero]
    constructor
    · rintro ⟨⟨absent, others⟩, once⟩
      refine ⟨others, fun other member => ?_⟩
      rw [count_cons]
      split
      · rename_i same
        subst same
        omega
      · exact once other member
    · rintro ⟨others, once⟩
      have first := once name isTyped
      rw [count_cons, if_pos rfl] at first
      refine ⟨⟨by omega, others⟩, fun other member => ?_⟩
      have bound := once other member
      rw [count_cons] at bound
      omega
  · rw [if_neg (mt List.contains_iff_mem.1 isTyped)]
    refine and_congr_right fun _ => forall₂_congr fun other member => ?_
    have differs : name ≠ other := fun same => isTyped (same ▸ member)
    rw [count_cons, if_neg differs, Nat.add_zero]

/-- Fields are what the members are read as, if no typed name is given again. -/
theorem fields_eq_ok {seen : List String} : fields typed field seen entries = .ok read ↔
    (∀ name ∈ seen, name ∉ entries.map (·.1)) ∧ (∀ name ∈ typed, count name entries ≤ 1) ∧
      List.Forall₂ (fun entry value => field entry.1 entry.2 = .ok value) entries read := by
  induction entries generalizing seen read with
  | nil => simp [fields, count, eq_comm]
  | cons entry rest ih =>
    obtain ⟨name, node⟩ := entry
    rw [fields]
    by_cases isSeen : name ∈ seen
    · rw [if_pos (List.contains_iff_mem.2 isSeen)]
      exact iff_of_false nofun fun ⟨absent, _⟩ => absent name isSeen (by simp)
    · rw [if_neg (mt List.contains_iff_mem.1 isSeen)]
      change (field name node).bind (fun first => (fields typed field _ rest).bind _) = _ ↔ _
      rw [bind_eq_ok, ← and_assoc, ← unseen_iff node isSeen, List.forall₂_cons_left_iff]
      simp only [bind_eq_ok, ih]
      constructor
      · rintro ⟨first, isFirst, others, ⟨apart, once, each⟩, same⟩
        exact ⟨⟨apart, once⟩, first, others, isFirst, each, (Except.ok.inj same).symm⟩
      · rintro ⟨⟨apart, once⟩, first, others, isFirst, each, rfl⟩
        exact ⟨first, isFirst, others, ⟨apart, once, each⟩, rfl⟩

/-- How the field of a typed name is read and taken out again. -/
structure IsField (field : String → Reader φ) (name : String) (reader : Reader α) (wrap : α → φ)
    (get : φ → Option β) : Prop where
  /-- The value of the name is read by the reader of the field. -/
  here : ∀ node, field name node = (reader node).map wrap
  /-- What is read of another name is not the field. -/
  apart : ∀ {other node value}, field other node = .ok value → other ≠ name → get value = none

/-- A field is read of its name if every field tells the name under which it was given. -/
theorem IsField.of_key {keyOf : φ → String} {name : String} {reader : Reader α} {wrap : α → φ}
    {get : φ → Option β}
    (keyed : ∀ {other node made}, field other node = .ok made → keyOf made = other)
    (here : ∀ node, field name node = (reader node).map wrap)
    (only : ∀ made, (get made).isSome → keyOf made = name) : IsField field name reader wrap get where
  here := here
  apart {_ _ made} isRead differs := by
    refine Option.not_isSome_iff_eq_none.1 fun isThere => differs ?_
    rw [← keyed isRead, only made isThere]

/-- What is taken out of the fields is what was read of the name. -/
theorem IsField.findSome?_cases {name : String} {reader : Reader α} {wrap : α → φ}
    {get : φ → Option β} (isField : IsField field name reader wrap get)
    (once : count name entries ≤ 1)
    (each : List.Forall₂ (fun entry value => field entry.1 entry.2 = .ok value) entries read) :
    (held? name entries = none ∧ read.findSome? get = none) ∨
      ∃ node value, held? name entries = some node ∧ reader node = .ok value ∧
        read.findSome? get = get (wrap value) := by
  induction each with
  | nil => exact .inl ⟨rfl, rfl⟩
  | @cons entry value rest others isRead _ ih =>
    obtain ⟨other, node⟩ := entry
    rw [held?_cons, List.findSome?_cons]
    rw [count_cons] at once
    by_cases same : other = name
    · have absent : count name rest = 0 := by simpa [same] using once
      have noMore : held? name rest = none := held?_eq_none.2 (count_eq_zero.1 absent)
      rcases ih (by omega) with ⟨-, rest⟩ | ⟨_, _, isHeld, -, -⟩
      · obtain ⟨made, isMade, rfl⟩ := map_eq_ok.1 ((isField.here node).symm.trans (same ▸ isRead))
        refine .inr ⟨node, made, if_pos same, isMade, ?_⟩
        rw [rest]
        cases get (wrap made) <;> rfl
      · rw [noMore] at isHeld
        cases isHeld
    · rw [if_neg same, isField.apart isRead same]
      exact ih (by simpa [same] using once)

/-- A field that must be given is what its name is read as. -/
theorem IsField.read?_required {name : String} {reader : Reader α} {wrap : α → φ}
    {get : φ → Option α} (isField : IsField field name reader wrap get)
    (taken : ∀ value, get (wrap value) = some value) (once : count name entries ≤ 1)
    (each : List.Forall₂ (fun entry value => field entry.1 entry.2 = .ok value) entries read) :
    read? reader none name entries = read.findSome? get := by
  rcases isField.findSome?_cases once each with ⟨isHeld, found⟩ | ⟨node, value, isHeld, isRead, found⟩
  · rw [read?, isHeld, found]
  · rw [found, taken]
    exact read?_eq_some.2 (.inr ⟨node, isHeld, isRead⟩)

/-- A field that need not be given is what its name is read as, or what stands for it. -/
theorem IsField.read?_default {name : String} {reader : Reader α} {wrap : α → φ}
    {get : φ → Option α} (isField : IsField field name reader wrap get)
    (taken : ∀ value, get (wrap value) = some value) (default : α) (once : count name entries ≤ 1)
    (each : List.Forall₂ (fun entry value => field entry.1 entry.2 = .ok value) entries read) :
    read? reader (some default) name entries = some ((read.findSome? get).getD default) := by
  rcases isField.findSome?_cases once each with ⟨isHeld, found⟩ | ⟨node, value, isHeld, isRead, found⟩
  · rw [read?, isHeld, found]
    rfl
  · rw [found, taken]
    exact read?_eq_some.2 (.inr ⟨node, isHeld, isRead⟩)

/-- A field that may be empty is what its name is read as, and empty if it is not given. -/
theorem IsField.read?_optional {name : String} {reader : Reader (Option α)} {wrap : Option α → φ}
    {get : φ → Option α} (isField : IsField field name reader wrap get)
    (taken : ∀ value, get (wrap value) = value) (once : count name entries ≤ 1)
    (each : List.Forall₂ (fun entry value => field entry.1 entry.2 = .ok value) entries read) :
    read? reader (some none) name entries = some (read.findSome? get) := by
  rcases isField.findSome?_cases once each with ⟨isHeld, found⟩ | ⟨node, value, isHeld, isRead, found⟩
  · rw [read?, isHeld, found]
  · rw [found, taken]
    exact read?_eq_some.2 (.inr ⟨node, isHeld, isRead⟩)

/-- A member of a name that is read as it should is a field. -/
theorem IsField.exists_read {name : String} {reader : Reader α} {wrap : α → φ} {get : φ → Option β}
    (isField : IsField field name reader wrap get) {missing : Option α} {value : α}
    (isRead : read? reader missing name entries = some value) (once : count name entries ≤ 1)
    {node : Node} (member : (name, node) ∈ entries) : ∃ made, field name node = .ok made := by
  have isHeld := held?_of_mem once member
  rcases read?_eq_some.1 isRead with ⟨isMissing, -⟩ | ⟨_, isThere, isRead⟩
  · rw [isHeld] at isMissing
    cases isMissing
  · obtain rfl := Option.some.inj (isHeld.symm.trans isThere)
    exact ⟨wrap value, by rw [isField.here, isRead]; rfl⟩

/-- How the members whose names are not typed are kept. -/
structure KeepsOthers (field : String → Reader φ) (typed : List String)
    (wrap : String → Value → φ) (get : φ → Option (String × Value)) : Prop where
  /-- A name that is not typed is kept with its value. -/
  other : ∀ name ∉ typed, ∀ node, field name node = (value node).map (wrap name)
  /-- What is kept is found again. -/
  taken : ∀ name held, get (wrap name held) = some (name, held)
  /-- Nothing of a typed name is kept. -/
  apart : ∀ {name node made}, field name node = .ok made → name ∈ typed → get made = none

/-- Any value is read if there is one. -/
theorem value_eq_ok {node : Node} {held : Value} : value node = .ok held ↔ node.value? = some held := by
  rw [value]
  cases node.value? <;> simp

/-- What is kept is what the members of other names are. -/
theorem KeepsOthers.kept?_eq {wrap : String → Value → φ} {get : φ → Option (String × Value)}
    (keeps : KeepsOthers field typed wrap get)
    (each : List.Forall₂ (fun entry value => field entry.1 entry.2 = .ok value) entries read) :
    kept? typed entries = some (NameMap.ofList (read.filterMap get)) := by
  refine kept?_eq_some.2 ⟨_, ?_, rfl⟩
  induction each with
  | nil => exact .nil
  | @cons entry made rest more isRead _ ih =>
    by_cases isTyped : entry.1 ∈ typed
    · rw [List.filter_cons_of_neg (by simpa using isTyped), List.filterMap_cons_none
        (keeps.apart isRead isTyped)]
      exact ih
    · obtain ⟨held, isHeld, rfl⟩ := map_eq_ok.1 ((keeps.other _ isTyped _).symm.trans isRead)
      rw [List.filter_cons_of_pos (by simpa using isTyped), List.filterMap_cons_some
        (keeps.taken _ _)]
      exact .cons ⟨rfl, value_eq_ok.1 isHeld⟩ ih

/-- A member of another name that is kept is a field. -/
theorem KeepsOthers.exists_read {wrap : String → Value → φ} {get : φ → Option (String × Value)}
    (keeps : KeepsOthers field typed wrap get) {extra : NameMap Value}
    (areKept : kept? typed entries = some extra) {name : String} {node : Node}
    (untyped : name ∉ typed) (member : (name, node) ∈ entries) : ∃ made, field name node = .ok made := by
  obtain ⟨others, each, -⟩ := kept?_eq_some.1 areKept
  have isOther : (name, node) ∈ entries.filter fun entry => !typed.contains entry.1 :=
    List.mem_filter.2 ⟨member, by simpa using untyped⟩
  obtain ⟨entry, -, -, isValue⟩ := exists_of_mem_left each isOther
  exact ⟨wrap name entry.2, by rw [keeps.other _ untyped, value_eq_ok.2 isValue]; rfl⟩

/-- An object is put together from its fields when its end is reached. -/
theorem record_eq_ok {kind : String} {build : List φ → Except Fault α} {node : Node} {result : α} :
    record kind typed field build node = .ok result ↔ ∃ entries read, node = .object entries true ∧
      fields typed field [] entries = .ok read ∧ build read = .ok result := by
  cases node with
  | object entries closed =>
    change (fields typed field [] entries).bind
      (fun read => if closed then build read else .error .malformed) = _ ↔ _
    rw [bind_eq_ok]
    constructor
    · rintro ⟨read, areRead, built⟩
      cases closed with
      | false => cases built
      | true => exact ⟨entries, read, rfl, areRead, built⟩
    · rintro ⟨_, read, same, areRead, built⟩
      cases same
      exact ⟨read, areRead, built⟩
  | null | boolean _ | number _ | string _ | array _ _ | malformed =>
    exact iff_of_false nofun fun ⟨_, _, same, _⟩ => nomatch same

/-- An object is read as what its members say, if what they say can be read name by name and what is
put together is what they say. -/
theorem record_iff {kind : String} {build : List φ → Except Fault α} {wrap : String → Value → φ}
    {get : φ → Option (String × Value)} (said : List (String × Node) → α → Prop)
    (keeps : KeepsOthers field typed wrap get)
    (once : ∀ {entries result}, said entries result → ∀ name ∈ typed, count name entries ≤ 1)
    (others : ∀ {entries result}, said entries result → ∃ extra, kept? typed entries = some extra)
    (readable : ∀ {entries result}, said entries result → ∀ name ∈ typed, count name entries ≤ 1 →
      ∀ {node}, (name, node) ∈ entries → ∃ made, field name node = .ok made)
    (built : ∀ {entries read result}, (∀ name ∈ typed, count name entries ≤ 1) →
      List.Forall₂ (fun entry made => field entry.1 entry.2 = .ok made) entries read →
      (build read = .ok result ↔ said entries result)) {node : Node} {result : α} :
    record kind typed field build node = .ok result ↔
      ∃ entries, node = .object entries true ∧ said entries result := by
  rw [record_eq_ok]
  constructor
  · rintro ⟨entries, read, rfl, areRead, isBuilt⟩
    obtain ⟨-, once, each⟩ := fields_eq_ok.1 areRead
    exact ⟨entries, rfl, (built once each).1 isBuilt⟩
  · rintro ⟨entries, rfl, isSaid⟩
    have areReadable : ∀ entry ∈ entries, ∃ made, field entry.1 entry.2 = .ok made := by
      intro entry member
      by_cases isTyped : entry.1 ∈ typed
      · exact readable isSaid _ isTyped (once isSaid _ isTyped) member
      · obtain ⟨extra, areKept⟩ := others isSaid
        exact keeps.exists_read areKept isTyped member
    obtain ⟨read, each⟩ := exists_forall₂ areReadable
    refine ⟨entries, read, rfl, fields_eq_ok.2 ⟨nofun, once isSaid, each⟩, ?_⟩
    exact (built (once isSaid) each).2 isSaid

end Reader

end PhysicsPrefab.Json
