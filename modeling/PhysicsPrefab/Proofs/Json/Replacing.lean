import PhysicsPrefab.Proofs.Json.Restoring

/-!
# Members that are replaced

Data can be read within a limit if a reader reads it from a tree that is not too deep and whose
numbers can be read (`Reader.Reads`). If a reader restores what is written, such data is read again
from what is written of it (`Reader.Restores.again_of_reads`). Where the value of one name of an object
is replaced (`Members.replace`), all other names say what they said. So data that was read can be
changed field by field, and parts of it can be exchanged for others that were read.
-/

namespace PhysicsPrefab.Json

open Answer

/-- A tree that is no deeper than a limit and whose numbers can be read. -/
structure Node.Fits (limit : Nat) (node : Node) : Prop where
  /-- It is not too deep. -/
  depth : node.depth ≤ limit
  /-- Its numbers can be read. -/
  proper : node.IsProper

namespace Node

variable {limit : Nat} {closed : Bool}

/-- An array fits if its items do. -/
theorem fits_array {items : List Node} :
    (array items closed).Fits (limit + 1) ↔ ∀ item ∈ items, item.Fits limit :=
  ⟨fun fits item isItem =>
      ⟨depth_array_le.1 fits.depth item isItem, isProper_array.1 fits.proper item isItem⟩,
    fun each => ⟨depth_array_le.2 fun item isItem => (each item isItem).depth,
      isProper_array.2 fun item isItem => (each item isItem).proper⟩⟩

/-- An object fits if its members do. -/
theorem fits_object {members : List (String × Node)} :
    (object members closed).Fits (limit + 1) ↔ ∀ member ∈ members, member.2.Fits limit :=
  ⟨fun fits member inside =>
      ⟨depth_object_le.1 fits.depth member inside, isProper_object.1 fits.proper member inside⟩,
    fun each => ⟨depth_object_le.2 fun member inside => (each member inside).depth,
      isProper_object.2 fun member inside => (each member inside).proper⟩⟩

end Node

namespace Members

variable {α : Type} {reader : Reader α} {missing : Option α} {entries : List (String × Node)}
  {name other : String} {node : Node} {typed : List String} {limit : Nat}

/-- The members of an object with one value for a name, in place of all that are given for it. -/
def replace (name : String) (node : Node) (entries : List (String × Node)) : List (String × Node) :=
  (name, node) :: entries.filter fun entry => entry.1 != name

/-- The value of another name is not replaced. -/
theorem held?_replace_of_ne (apart : other ≠ name) :
    held? other (replace name node entries) = held? other entries := by
  rw [replace, held?_cons, if_neg apart.symm, held?, List.find?_filter, held?]
  refine congrArg _ (List.find?_congr fun entry _ => ?_)
  by_cases same : entry.1 = other
  · simp [same, apart]
  · simp [same]

/-- What is read of the name is the new value. -/
theorem read?_replace_self {data : α} (isRead : reader node = .ok data) :
    read? reader missing name (replace name node entries) = some data :=
  read?_of_held ((held?_cons ..).trans (if_pos rfl)) isRead

/-- What is read of another name stays the same. -/
theorem read?_replace_of_ne (apart : other ≠ name) :
    read? reader missing other (replace name node entries) = read? reader missing other entries := by
  rw [read?, read?, held?_replace_of_ne apart]

/-- No name is given more often than before, and the name itself is given once. -/
theorem count_replace_le (once : count other entries ≤ 1) :
    count other (replace name node entries) ≤ 1 := by
  rw [replace, count_cons]
  split
  · rename_i same
    subst same
    have absent : count name (entries.filter fun entry => entry.1 != name) = 0 := by
      rw [count_eq_zero, List.mem_map]
      rintro ⟨entry, isEntry, same⟩
      simpa [same] using (List.mem_filter.1 isEntry).2
    exact Nat.add_le_add_right absent.le 1
  · exact ((List.filter_sublist.map _).count_le other).trans once

/-- What is kept stays the same if the name is typed. -/
theorem kept?_replace (isTyped : name ∈ typed) :
    kept? typed (replace name node entries) = kept? typed entries := by
  have untyped : (replace name node entries).filter (fun entry => !typed.contains entry.1) =
      entries.filter fun entry => !typed.contains entry.1 := by
    rw [replace, List.filter_cons_of_neg (by simpa using isTyped), List.filter_filter]
    refine List.filter_congr fun entry _ => ?_
    by_cases same : entry.1 = name
    · simp [same, isTyped]
    · simp [same]
  rw [kept?, untyped, kept?]

/-- An object with a replaced value fits if the object and the value did. -/
theorem fits_replace (name : String) (fits : (Node.object entries true).Fits (limit + 1))
    (inside : node.Fits limit) : (Node.object (replace name node entries) true).Fits (limit + 1) :=
  Node.fits_object.2 (List.forall_mem_cons.2 ⟨inside, fun entry isEntry =>
    Node.fits_object.1 fits entry (List.mem_filter.1 isEntry).1⟩)

end Members

namespace Reader

variable {α : Type} {reader : Reader α} {write : α → Value} {limit room : Nat} {data : α}

/-- Whether data can be read within a limit. -/
def Reads (reader : Reader α) (limit : Nat) (data : α) : Prop :=
  ∃ node : Node, node.Fits limit ∧ reader node = .ok data

/-- A text can be read within any limit. -/
theorem reads_string (text : String) : string.Reads limit text :=
  ⟨.string text, ⟨Nat.zero_le _, nofun⟩, rfl⟩

/-- A list can be read if its items can. -/
theorem reads_list {values : List α} :
    (list reader).Reads (limit + 1) values ↔ ∀ value ∈ values, reader.Reads limit value := by
  constructor
  · rintro ⟨node, fits, isRead⟩ value isValue
    obtain ⟨items, rfl, each⟩ := list_eq_ok.1 isRead
    obtain ⟨item, isItem, itemRead⟩ := exists_of_mem_right each isValue
    exact ⟨item, Node.fits_array.1 fits item isItem, itemRead⟩
  · intro readable
    obtain ⟨items, each⟩ := exists_forall₂ readable
    have areRead : List.Forall₂ (fun value item => reader item = .ok value) values items :=
      each.imp fun _ _ => And.right
    refine ⟨.array items true, Node.fits_array.2 fun item isItem => ?_,
      list_eq_ok.2 ⟨items, rfl, areRead.flip⟩⟩
    obtain ⟨value, -, itemFits, -⟩ := exists_of_mem_right each isItem
    exact itemFits

/-- A field that must be given can be read. -/
theorem Reads.of_required {entries : List (String × Node)} {name : String}
    (fits : (Node.object entries true).Fits (limit + 1))
    (isRead : Members.read? reader none name entries = some data) : reader.Reads limit data := by
  rcases Members.read?_eq_some.1 isRead with ⟨-, isMissing⟩ | ⟨part, isHeld, isRead⟩
  · cases isMissing
  · exact ⟨part, Node.fits_object.1 fits _ (Members.mem_of_held? isHeld), isRead⟩

/-- A field that is given can be read. -/
theorem Reads.of_given {entries : List (String × Node)} {name : String}
    (fits : (Node.object entries true).Fits (limit + 1))
    (isRead : Members.read? (optional reader) (some none) name entries = some (some data)) :
    reader.Reads limit data := by
  rcases Members.read?_eq_some.1 isRead with ⟨-, isMissing⟩ | ⟨part, isHeld, isRead⟩
  · cases isMissing
  · exact ⟨part, Node.fits_object.1 fits _ (Members.mem_of_held? isHeld), of_optional isRead⟩

/-- Data that can be read is read again from what is written of it, if its doubles are, and what is
written is not too deep. -/
theorem Restores.again_of_reads (restores : reader.Restores write room) (inRoom : room ≤ limit)
    (reads : reader.Reads limit data)
    (doubles : ∀ value : Float, .double value ∈ (write data).numbers → value.isFinite = true →
      (Number.double value).ReadsBack) :
    (write data).depth ≤ limit ∧ reader (write data).node = .ok data := by
  obtain ⟨node, fits, isRead⟩ := reads
  have bounds := restores.bounds isRead
  refine ⟨bounds.depth.trans (max_le fits.depth inRoom), restores.again isRead fun number inside => ?_⟩
  refine (bounds.numbers fits.proper number inside).readsBack fun value isDouble => ?_
  subst isDouble
  exact doubles value inside

end Reader

end PhysicsPrefab.Json
