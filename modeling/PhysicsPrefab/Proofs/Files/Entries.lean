import Mathlib.Logic.Function.Basic
import PhysicsPrefab.Proofs.Files.Growth
import PhysicsPrefab.Proofs.Files.Joins

/-!
# Entries of a tree

What is at each location of a tree, without the order in which directories list what they hold.
An operation that succeeds changes at most one entry: that of the directory that it makes
(`makeDirectory_spec`), of the file that it writes (`writeBytes_entryAt`) or of the file that it
removes (`removeFile_entryAt`). Making all directories of a path changes no file
(`contents?_makeDirectories`).
-/

namespace PhysicsPrefab

/-- What is at a location, without what is below it. -/
inductive Entry where
  /-- A file. -/
  | file (contents : ByteArray)
  /-- A directory. -/
  | directory

/-- What a file holds. -/
def Entry.contents? : Entry → Option ByteArray
  | file contents => some contents
  | directory => none

namespace FileTree

/-- What a tree is at its root. -/
def entry : FileTree → Entry
  | file contents => .file contents
  | directory _ => .directory

/-- What is at a location, if there is something. -/
def entryAt (tree : FileTree) (location : Location) : Option Entry :=
  (tree.get? location).map entry

/-- What the file at a location holds, if there is one. -/
def contents? (tree : FileTree) (location : Location) : Option ByteArray :=
  (tree.entryAt location).bind Entry.contents?

/-- A directory has its entry. -/
theorem entryAt_of_directory {tree : FileTree} {location : Location}
    {entries : List (String × FileTree)} (isThere : tree.get? location = some (directory entries)) :
    tree.entryAt location = some .directory := by
  rw [entryAt, isThere]
  rfl

/-- Contents are those of a file. -/
theorem contents?_eq_some {tree : FileTree} {location : Location} {contents : ByteArray} :
    tree.contents? location = some contents ↔ tree.get? location = some (file contents) := by
  rw [contents?, entryAt]
  cases tree.get? location with
  | none => simp
  | some found => cases found <;> simp [entry, Entry.contents?]

/-- There are contents where there is a file. -/
theorem isSome_contents? {tree : FileTree} {location : Location} :
    (tree.contents? location).isSome = true ↔ tree.kind? location = some false := by
  rw [contents?, entryAt, kind?]
  cases tree.get? location with
  | none => simp
  | some found => cases found <;> simp [entry, Entry.contents?, isDirectory]

/-- A directory is the entry of one. -/
theorem kind?_eq_true {tree : FileTree} {location : Location} :
    tree.kind? location = some true ↔ tree.entryAt location = some .directory := by
  rw [entryAt, kind?]
  cases tree.get? location with
  | none => simp
  | some found => cases found <;> simp [entry, isDirectory]

/-- A file is the entry of one. -/
theorem kind?_eq_false {tree : FileTree} {location : Location} :
    tree.kind? location = some false ↔ ∃ contents, tree.entryAt location = some (.file contents) := by
  rw [entryAt, kind?]
  cases tree.get? location with
  | none => simp
  | some found => cases found <;> simp [entry, isDirectory]

/-- There is a kind where there is an entry. -/
theorem isSome_kind? {tree : FileTree} {location : Location} :
    (tree.kind? location).isSome = (tree.entryAt location).isSome := by
  rw [kind?, entryAt, Option.isSome_map, Option.isSome_map]

/-- An entry is known from its kind and from what it holds. -/
theorem entryAt_congr {first second : FileTree} {location : Location}
    (kinds : first.kind? location = second.kind? location)
    (contents : first.contents? location = second.contents? location) :
    first.entryAt location = second.entryAt location := by
  rw [kind?, kind?] at kinds
  rw [contents?, contents?, entryAt, entryAt] at contents
  rw [entryAt, entryAt]
  generalize first.get? location = found at *
  generalize second.get? location = other at *
  rcases found with _ | _ | _ <;> rcases other with _ | _ | _ <;>
    simp_all [entry, Entry.contents?, isDirectory]

/-- The same entry is of the same kind. -/
theorem kind?_congr {first second : FileTree} {location : Location}
    (same : first.entryAt location = second.entryAt location) :
    first.kind? location = second.kind? location := by
  refine Option.ext fun kind => ?_
  cases kind with
  | true => rw [kind?_eq_true, kind?_eq_true, same]
  | false => rw [kind?_eq_false, kind?_eq_false, same]

/-- Putting something that holds nothing into a directory, where there is no other directory,
changes one entry. -/
theorem entryAt_put {tree new : FileTree} {outer : Location} {entries : List (String × FileTree)}
    {name : String} (isDirectory : tree.get? outer = some (directory entries))
    (bare : ∀ next rest, new.get? (next :: rest) = none)
    (free : tree.kind? (outer ++ [name]) ≠ some true) :
    (tree.put (outer ++ [name]) new).entryAt =
      Function.update tree.entryAt (outer ++ [name]) (some new.entry) := by
  funext other
  have isNew := get?_put_self isDirectory name new
  by_cases below : outer ++ [name] <+: other
  · obtain ⟨inner, rfl⟩ := below
    cases inner with
    | nil => rw [List.append_nil, Function.update_self, entryAt, isNew, Option.map_some]
    | cons next rest =>
      have nothing : tree.get? (outer ++ [name] ++ next :: rest) = none := by
        refine Option.eq_none_iff_forall_not_mem.2 fun found held => ?_
        obtain ⟨inside, isOuter⟩ := exists_of_get?_append held
        exact free (by rw [kind?, isOuter]; rfl)
      rw [Function.update_of_ne (by simp), entryAt, entryAt, nothing, get?_append, isNew,
        Option.bind_some, bare]
  · have different : other ≠ outer ++ [name] := fun same => below (same ▸ List.prefix_rfl)
    rw [Function.update_of_ne different]
    by_cases above : other <+: outer ++ [name]
    · obtain ⟨inside, changed, isOther, isChanged⟩ := exists_put_above isDirectory below above new
      rw [entryAt_of_directory isOther, entryAt_of_directory isChanged]
    · rw [entryAt, get?_put_of_aside new below above, entryAt]

/-- An entry that is left out is not found, and the others are. -/
theorem child?_filter (entries : List (String × FileTree)) (name other : String) :
    child? (entries.filter fun entry => entry.1 != name) other =
      if other = name then none else child? entries other := by
  rw [child?, child?, List.find?_filter]
  split
  · rename_i same
    simp [same]
  · rename_i different
    congr 2
    funext entry
    by_cases found : entry.1 = other <;> simp [found, different]

/-- What is below an entry of a directory. -/
theorem entryAt_cons (entries : List (String × FileTree)) (name : String) (inner : Location) :
    (directory entries).entryAt (name :: inner) =
      (child? entries name).bind fun found => found.entryAt inner := by
  rw [entryAt, get?]
  cases child? entries name <;> rfl

/-- Erasing a file changes one entry. -/
theorem entryAt_erase {tree : FileTree} {location : Location} {contents : ByteArray}
    (isFile : tree.get? location = some (file contents)) (proper : location ≠ []) :
    (tree.erase location).entryAt = Function.update tree.entryAt location none := by
  funext other
  induction location generalizing tree other with
  | nil => contradiction
  | cons name rest ih =>
    cases tree with
    | file held => simp [get?] at isFile
    | directory entries =>
      cases held : child? entries name with
      | none => simp [get?, held] at isFile
      | some sub =>
        simp only [get?, held] at isFile
        cases other with
        | nil => cases rest <;> simp [erase, held, entryAt, get?, entry]
        | cons first others =>
          cases rest with
          | nil =>
            obtain rfl := Option.some.inj isFile
            rw [erase, entryAt_cons, child?_filter]
            by_cases same : first = name
            · subst same
              cases others <;> simp [held, entryAt, get?]
            · simp [same, entryAt_cons]
          | cons next more =>
            rw [erase, held]
            by_cases same : first = name
            · subst same
              have below := ih isFile (List.cons_ne_nil next more) others
              simp_all [entryAt_cons, child?_putEntry_self, Function.update_apply]
            · simp [same, entryAt_cons, child?_putEntry_of_ne same]

/-- A directory that is made is the one new entry, at a free place. -/
theorem makeDirectory_spec {before after : FileTree} {current : Location} {path : Path}
    (made : before.makeDirectory current path = .ok after) :
    ∃ location, before.newPlace current path true = .ok location ∧
      before.entryAt location = none ∧
      after.entryAt = Function.update before.entryAt location (some .directory) := by
  obtain ⟨location, placed, free, rfl⟩ := makeDirectory_eq_ok.1 made
  obtain ⟨outer, last, directory, entries, place⟩ := newPlace_spec placed
  refine ⟨location, placed, by rw [entryAt, free]; rfl, ?_⟩
  obtain rfl := place.location_eq
  rw [entryAt_put place.isDirectory (fun _ _ => rfl) (by simp [kind?, free])]
  rfl

/-- A new directory is no file. -/
theorem contents?_makeDirectory {before after : FileTree} {current : Location} {path : Path}
    (made : before.makeDirectory current path = .ok after) :
    after.contents? = before.contents? := by
  obtain ⟨location, -, free, changed⟩ := makeDirectory_spec made
  funext other
  rw [contents?, contents?, changed, Function.update_apply]
  split
  · rename_i same
    rw [same, free]
    rfl
  · rfl

/-- Making directories changes no file, also when not all of them can be made. -/
theorem contents?_makeDirectories (current : Location) (steps : Nat) (tree : FileTree)
    (path : Path) :
    (makeDirectories current steps tree path).1.contents? = tree.contents? := by
  have : IsPreorder FileTree fun before after => after.contents? = before.contents? :=
    { refl := fun _ => rfl, trans := fun _ _ _ earlier later => later.trans earlier }
  exact makeDirectories_keeps (fun before after => after.contents? = before.contents?)
    contents?_makeDirectory steps tree path

/-- A file that is written is the one changed entry, and it is found under its path. -/
theorem writeBytes_entryAt {before after : FileTree} {current : Location} {path : Path}
    {contents : ByteArray} (written : before.writeBytes current path contents = .ok after) :
    ∃ location, before.newPlace current path false = .ok location ∧
      after.lookup current path = .ok (location, file contents) ∧
      after.entryAt = Function.update before.entryAt location (some (.file contents)) := by
  obtain ⟨location, placed, noDirectory, rfl⟩ := writeBytes_eq_ok.1 written
  obtain ⟨outer, last, directory, entries, place⟩ := newPlace_spec placed
  refine ⟨location, placed, place.lookup_put fun kind isThere => ⟨?_, rfl⟩, ?_⟩
  · cases kind with
    | true => contradiction
    | false => rfl
  · obtain rfl := place.location_eq
    rw [entryAt_put place.isDirectory (fun _ _ => rfl) noDirectory]
    rfl

/-- A path has parts that are followed. -/
theorem startOf_ne_nil (current : Location) (path : Path) : (startOf current path).2 ≠ [] := by
  rw [startOf]
  cases absolute : path.isAbsolute with
  | false => exact Path.pieces_ne_nil _
  | true =>
    obtain ⟨second, others, parts⟩ := Path.isAbsolute_iff.1 absolute
    simp [parts]

/-- A file that a path leads to is in a directory. -/
theorem ne_nil_of_lookup {tree : FileTree} {current location : Location} {path : Path}
    {contents : ByteArray} (isThere : tree.lookup current path = .ok (location, file contents)) :
    location ≠ [] := by
  rintro rfl
  obtain ⟨-, leads, held⟩ := lookup_eq_ok.1 isThere
  obtain rfl := Option.some.inj held
  obtain ⟨piece, rest, parts⟩ := List.exists_cons_of_ne_nil (startOf_ne_nil current path)
  rw [parts, follow] at leads
  cases start : (startOf current path).1 <;> simp [start, get?] at leads

/-- A file is removed where the path leads to one that is not locked. -/
theorem removeFile_eq_ok {before after : FileTree} {locked : List Location} {current : Location}
    {path : Path} :
    before.removeFile locked current path = .ok after ↔ ∃ location contents,
      before.lookup current path = .ok (location, file contents) ∧ location ∉ locked ∧
        before.erase location = after := by
  constructor
  · intro removed
    obtain ⟨⟨location, found⟩, isThere, removed⟩ := Answer.bind_eq_ok.1 removed
    cases found with
    | directory entries => contradiction
    | file contents =>
      by_cases isLocked : location ∈ locked
      · simp only [if_pos isLocked] at removed
        contradiction
      · simp only [if_neg isLocked] at removed
        exact ⟨location, contents, isThere, isLocked, Except.ok.inj removed⟩
  · rintro ⟨location, contents, isThere, isFree, rfl⟩
    refine Answer.bind_eq_ok.2 ⟨_, isThere, ?_⟩
    simp only [if_neg isFree]
    rfl

/-- A file that is removed is the one changed entry. -/
theorem removeFile_entryAt {before : FileTree} {locked : List Location}
    {current location : Location} {path : Path} {contents : ByteArray}
    (isThere : before.lookup current path = .ok (location, file contents))
    (isFree : location ∉ locked) :
    ∃ after, before.removeFile locked current path = .ok after ∧
      after.entryAt = Function.update before.entryAt location none := by
  exact ⟨before.erase location, removeFile_eq_ok.2 ⟨location, contents, isThere, isFree, rfl⟩,
    entryAt_erase (lookup_eq_ok.1 isThere).2.2 (ne_nil_of_lookup isThere)⟩

/-- A locked file is not removed. -/
theorem removeFile_denied {before : FileTree} {locked : List Location}
    {current location : Location} {path : Path} {contents : ByteArray}
    (isThere : before.lookup current path = .ok (location, file contents))
    (isLocked : location ∈ locked) :
    before.removeFile locked current path = .error .denied := by
  simp only [removeFile, isThere, bind, Except.bind, if_pos isLocked]
  rfl

end FileTree

end PhysicsPrefab
