/-!
# Maps from names

A map from names to values, kept as the list of its entries in strictly increasing order of
their names. The order of names is that of their characters, which is also the order of their
encoded bytes.
-/

namespace PhysicsPrefab

/-- Entries in strictly increasing order of their names. -/
abbrev NameMap.Sorted {α : Type} (entries : List (String × α)) : Prop :=
  entries.Pairwise fun left right => left.1 < right.1

/-- A map from names to values of one type. -/
structure NameMap (α : Type) where
  /-- The entries in order. -/
  entries : List (String × α)
  /-- Names strictly increase, so each has one value. -/
  sorted : NameMap.Sorted entries

namespace NameMap

variable {α β : Type}

/-- Put an entry at its place in a sorted list, replacing the entry of that name. -/
def insertEntry (name : String) (value : α) : List (String × α) → List (String × α)
  | [] => [(name, value)]
  | (other, held) :: rest =>
    if name < other then (name, value) :: (other, held) :: rest
    else if name = other then (name, value) :: rest
    else (other, held) :: insertEntry name value rest

/-- Every entry after an insertion is the new one or was there before. -/
theorem mem_insertEntry {name : String} {value : α} {entries : List (String × α)}
    {entry : String × α} (member : entry ∈ insertEntry name value entries) :
    entry = (name, value) ∨ entry ∈ entries := by
  induction entries with
  | nil => simpa [insertEntry] using member
  | cons head rest ih =>
    obtain ⟨other, held⟩ := head
    simp only [insertEntry] at member
    split at member
    · simpa using member
    · split at member
      · rcases List.mem_cons.1 member with rfl | later
        · exact .inl rfl
        · exact .inr (List.mem_cons_of_mem _ later)
      · rcases List.mem_cons.1 member with rfl | later
        · exact .inr (List.mem_cons_self ..)
        · exact (ih later).imp_right (List.mem_cons_of_mem _)

/-- Insertion keeps the order. -/
theorem insertEntry_sorted {name : String} {value : α} {entries : List (String × α)}
    (sorted : Sorted entries) : Sorted (insertEntry name value entries) := by
  induction entries with
  | nil => simp [insertEntry, Sorted]
  | cons head rest ih =>
    obtain ⟨other, held⟩ := head
    obtain ⟨first, later⟩ := List.pairwise_cons.1 sorted
    simp only [insertEntry]
    split
    · rename_i before
      refine List.pairwise_cons.2 ⟨fun entry member => ?_, sorted⟩
      rcases List.mem_cons.1 member with rfl | inRest
      · exact before
      · exact String.lt_trans before (first entry inRest)
    · rename_i notBefore
      split
      · rename_i same
        subst same
        exact List.pairwise_cons.2 ⟨first, later⟩
      · rename_i different
        refine List.pairwise_cons.2 ⟨fun entry member => ?_, ih later⟩
        rcases mem_insertEntry member with rfl | inRest
        · exact Std.lt_of_le_of_ne (String.not_lt.1 notBefore) (Ne.symm different)
        · exact first entry inRest

/-- The map without entries. -/
def empty : NameMap α := ⟨[], List.Pairwise.nil⟩

instance : Inhabited (NameMap α) := ⟨empty⟩

/-- The map with one entry added; a former value of the name is replaced. -/
def insert (map : NameMap α) (name : String) (value : α) : NameMap α :=
  ⟨insertEntry name value map.entries, insertEntry_sorted map.sorted⟩

/-- The map of a list of entries, in which the last value of a repeated name stays. -/
def ofList (entries : List (String × α)) : NameMap α :=
  entries.foldl (fun map entry => map.insert entry.1 entry.2) empty

/-- The names in increasing order. -/
def names (map : NameMap α) : List String := map.entries.map (·.1)

/-- Whether there are no entries. -/
def isEmpty (map : NameMap α) : Bool := map.entries.isEmpty

/-- The value of a name. -/
def find? (map : NameMap α) (name : String) : Option α :=
  (map.entries.find? fun entry => entry.1 == name).map (·.2)

/-- The new entry is found after an insertion. -/
theorem find?_insertEntry_self (name : String) (value : α) (entries : List (String × α)) :
    (insertEntry name value entries).find? (fun entry => entry.1 == name) =
      some (name, value) := by
  induction entries with
  | nil => simp [insertEntry]
  | cons head rest ih =>
    simp only [insertEntry]
    split
    · simp
    · split
      · simp
      · rename_i different
        have apart : (head.1 == name) = false := by simpa using Ne.symm different
        simp [apart, ih]

/-- An insertion changes what is found for no other name. -/
theorem find?_insertEntry_of_ne {name other : String} (different : other ≠ name) (value : α)
    (entries : List (String × α)) :
    (insertEntry name value entries).find? (fun entry => entry.1 == other) =
      entries.find? (fun entry => entry.1 == other) := by
  have apart : (name == other) = false := by simpa using Ne.symm different
  induction entries with
  | nil => simp [insertEntry, apart]
  | cons head rest ih =>
    simp only [insertEntry]
    split
    · simp [apart]
    · split
      · rename_i same
        simp [← same, apart]
      · cases found : head.1 == other with
        | true => simp [found]
        | false => simp [found, ih]

/-- The map without entries holds no name. -/
@[simp] theorem find?_empty (name : String) : (empty : NameMap α).find? name = none := rfl

/-- A name has the value it was given last. -/
@[simp] theorem find?_insert_self (map : NameMap α) (name : String) (value : α) :
    (map.insert name value).find? name = some value := by
  simp [find?, insert, find?_insertEntry_self]

/-- Giving a value to one name leaves the others as they were. -/
theorem find?_insert_of_ne {name other : String} (different : other ≠ name) (map : NameMap α)
    (value : α) : (map.insert name value).find? other = map.find? other := by
  simp [find?, insert, find?_insertEntry_of_ne different]

/-- The map with every value changed. -/
def mapValues (map : NameMap α) (change : α → β) : NameMap β :=
  ⟨map.entries.map fun entry => (entry.1, change entry.2),
    List.pairwise_map.2 (map.sorted.imp fun ordered => ordered)⟩

end NameMap

end PhysicsPrefab
