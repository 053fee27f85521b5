import Mathlib.Data.List.Lex
import Mathlib.Data.List.Nodup
import Mathlib.Data.Prod.Lex
import Mathlib.Data.String.Basic
import PhysicsPrefab.Proofs.Files.Sameness
import PhysicsPrefab.Project.Sources

/-!
# Listings

In a well-formed tree all names are plain and no directory has two entries of one name. Its files
are then listed once each (`files_nodup`), under paths that lead to them (`walk_pathBelow`). The
order of paths is one of keys (`Path.before_iff`), so sources are found in the same order however
directories list their entries (`ofFiles_same`).
-/

namespace PhysicsPrefab

/-- What decides the order of a component. -/
def PathComponent.key : PathComponent → ℕ ×ₗ String
  | root => toLex (0, "")
  | current => toLex (1, "")
  | parent => toLex (2, "")
  | name text => toLex (3, text)

/-- Different components have different keys. -/
theorem PathComponent.key_injective : Function.Injective PathComponent.key := by
  intro first second same
  cases first <;> cases second <;> simp_all [key]

/-- The order of components is that of their keys. -/
theorem PathComponent.before_iff {left right : PathComponent} :
    left.before right = true ↔ left.key < right.key := by
  cases left <;> cases right <;> simp [before, key, Prod.Lex.toLex_lt_toLex]

namespace Path

/-- What decides the order of a path. -/
def key (path : Path) : List (ℕ ×ₗ String) := path.components.map PathComponent.key

/-- The order of component lists is that of their keys. -/
theorem componentsBefore_iff {left right : List PathComponent} :
    componentsBefore left right = true ↔
      left.map PathComponent.key < right.map PathComponent.key := by
  induction left generalizing right with
  | nil => cases right <;> simp [componentsBefore]
  | cons first rest ih =>
    cases right with
    | nil => simp [componentsBefore]
    | cons second others =>
      rw [componentsBefore, List.map_cons, List.map_cons, List.cons_lt_cons_iff,
        PathComponent.key_injective.eq_iff]
      by_cases same : first = second
      · simp [same, ih]
      · simp [same, PathComponent.before_iff]

/-- The order of paths is that of their keys. -/
theorem before_iff {left right : Path} : left.before right = true ↔ left.key < right.key :=
  componentsBefore_iff

/-- Paths are in order if the keys are. -/
theorem not_before {left right : Path} : (!right.before left) = true ↔ left.key ≤ right.key := by
  rw [Bool.not_eq_true', ← Bool.not_eq_true, before_iff, not_lt]

end Path

namespace Sources

/-- Sources are in order. -/
theorem ofFiles_pairwise (files : List Path) :
    (ofFiles files).Pairwise fun left right => left.key ≤ right.key := by
  refine (List.pairwise_mergeSort ?_ ?_ _).imp fun ordered => Path.not_before.1 ordered
  · intro first second third
    rw [Path.not_before, Path.not_before, Path.not_before]
    exact le_trans
  · intro left right
    rw [Bool.or_eq_true, Path.not_before, Path.not_before]
    exact le_total _ _

/-- Sources that have different keys are strictly in order. -/
theorem ofFiles_pairwise_before {files : List Path} (distinct : (files.map Path.key).Nodup) :
    (ofFiles files).Pairwise fun left right => left.before right = true := by
  have keys : ((ofFiles files).map Path.key).Nodup :=
    ((List.mergeSort_perm _ _).map _).nodup_iff.2 (distinct.sublist (List.filter_sublist.map _))
  refine ((ofFiles_pairwise files).and (List.pairwise_map.1 keys)).imp fun ordered => ?_
  exact Path.before_iff.2 (lt_of_le_of_ne ordered.1 ordered.2)

/-- The sources among some files do not depend on the order in which the files are listed, if
their keys tell them apart. -/
theorem ofFiles_eq_of_perm {files others : List Path} (perm : files.Perm others)
    (distinct : (files.map Path.key).Nodup) : ofFiles files = ofFiles others := by
  have sorted : (ofFiles files).Perm (ofFiles others) :=
    (List.mergeSort_perm _ _).trans ((perm.filter _).trans (List.mergeSort_perm _ _).symm)
  have known : ∀ {path : Path}, path ∈ ofFiles files → path ∈ files := fun member =>
    List.mem_of_mem_filter (List.mem_mergeSort.1 member)
  refine sorted.eq_of_pairwise ?_ (ofFiles_pairwise files) (ofFiles_pairwise others)
  intro left right isLeft isRight forth back
  exact List.inj_on_of_nodup_map distinct (known isLeft) (known (sorted.mem_iff.2 isRight))
    (le_antisymm forth back)

end Sources

namespace FileTree

/-- A tree in which all names are plain and no directory has two entries of one name. -/
inductive WellFormed : FileTree → Prop where
  /-- A file is one. -/
  | file (contents : ByteArray) : WellFormed (file contents)
  /-- A directory is one if its entries are. -/
  | directory {entries : List (String × FileTree)} (distinct : (entries.map (·.1)).Nodup)
      (plain : ∀ entry ∈ entries, IsPlainName entry.1)
      (each : ∀ entry ∈ entries, WellFormed entry.2) : WellFormed (directory entries)

/-- A well-formed directory stays one when its entries are listed in another order. -/
theorem WellFormed.perm {entries others : List (String × FileTree)}
    (formed : WellFormed (FileTree.directory entries)) (perm : entries.Perm others) :
    WellFormed (FileTree.directory others) := by
  cases formed with
  | directory distinct plain each =>
    have otherDistinct : (others.map (·.1)).Nodup := (perm.map (·.1)).nodup_iff.1 distinct
    exact .directory otherDistinct (fun entry member => plain entry (perm.mem_iff.2 member))
      fun entry member => each entry (perm.mem_iff.2 member)

/-- In a directory without two entries of one name every entry is found by its name. -/
theorem child?_eq_some {entries : List (String × FileTree)} (distinct : (entries.map (·.1)).Nodup)
    {name : String} {found : FileTree} :
    child? entries name = some found ↔ (name, found) ∈ entries := by
  induction entries with
  | nil => simp [child?]
  | cons first rest ih =>
    obtain ⟨isNew, restDistinct⟩ := List.nodup_cons.1 distinct
    by_cases same : first.1 = name
    · subst same
      have absent : (first.1, found) ∉ rest := fun member =>
        isNew (List.mem_map_of_mem (f := (·.1)) member)
      simp [child?, absent, Prod.ext_iff, eq_comm]
    · have skipped : child? (first :: rest) name = child? rest name := by simp [child?, same]
      have apart : (name, found) ≠ first := fun isFirst => same (isFirst ▸ rfl)
      rw [skipped, ih restDistinct, List.mem_cons, or_iff_right apart]

/-- The files of some entries are those of each. -/
theorem filesOf_eq (entries : List (String × FileTree)) :
    filesOf entries = entries.flatMap fun entry => (files entry.2).map (entry.1 :: ·) := by
  induction entries with
  | nil => rfl
  | cons entry rest ih => rw [filesOf, ih, List.flatMap_cons]

/-- What is below an entry of a directory. -/
theorem get?_cons (entries : List (String × FileTree)) (name : String) (inner : Location) :
    (directory entries).get? (name :: inner) =
      (child? entries name).bind fun found => found.get? inner := by
  rw [get?]
  cases child? entries name <;> rfl

namespace WellFormed

variable {tree : FileTree} (wellFormed : WellFormed tree)

include wellFormed

/-- What is at a location of a well-formed tree is one. -/
theorem of_get? {location : Location} {found : FileTree}
    (isThere : tree.get? location = some found) : WellFormed found := by
  induction location generalizing tree with
  | nil => exact Option.some.inj isThere ▸ wellFormed
  | cons name rest ih =>
    cases wellFormed with
    | file contents => simp [get?] at isThere
    | directory distinct plain each =>
      rw [get?_cons, Option.bind_eq_some_iff] at isThere
      obtain ⟨sub, isSub, isThere⟩ := isThere
      exact ih (each _ ((child?_eq_some distinct).1 isSub)) isThere

/-- Where something is in a well-formed tree, all names are plain. -/
theorem plain {location : Location} (isThere : (tree.kind? location).isSome = true) :
    ∀ name ∈ location, IsPlainName name := by
  rw [kind?, Option.isSome_map, Option.isSome_iff_exists] at isThere
  obtain ⟨found, isThere⟩ := isThere
  induction location generalizing tree with
  | nil => exact List.forall_mem_nil _
  | cons name rest ih =>
    cases wellFormed with
    | file contents => simp [get?] at isThere
    | directory distinct plain each =>
      rw [get?_cons, Option.bind_eq_some_iff] at isThere
      obtain ⟨sub, isSub, isThere⟩ := isThere
      have isEntry := (child?_eq_some distinct).1 isSub
      exact List.forall_mem_cons.2 ⟨plain _ isEntry, ih (each _ isEntry) isThere⟩

/-- The files of a well-formed tree are where it has contents. -/
theorem mem_files {location : Location} :
    location ∈ tree.files ↔ (tree.contents? location).isSome = true := by
  induction wellFormed generalizing location with
  | file contents => cases location <;> simp [files, contents?, entryAt, get?, entry, Entry.contents?]
  | @directory entries distinct plain each ih =>
    rw [files, filesOf_eq, List.mem_flatMap]
    cases location with
    | nil => simp [contents?, entryAt, get?, entry, Entry.contents?]
    | cons name rest =>
      have below : (FileTree.directory entries).contents? (name :: rest) =
          (child? entries name).bind fun found => found.contents? rest := by
        rw [contents?, entryAt_cons]
        cases child? entries name <;> rfl
      rw [below]
      constructor
      · rintro ⟨entry, isEntry, isFile⟩
        obtain ⟨inner, isInner, same⟩ := List.mem_map.1 isFile
        obtain ⟨rfl, rfl⟩ := List.cons.inj same
        rw [(child?_eq_some distinct).2 isEntry]
        exact (ih entry isEntry).1 isInner
      · intro isThere
        cases isSub : child? entries name with
        | none => simp [isSub] at isThere
        | some sub =>
          rw [isSub] at isThere
          have isEntry := (child?_eq_some distinct).1 isSub
          exact ⟨(name, sub), isEntry, List.mem_map_of_mem ((ih _ isEntry).2 isThere)⟩

/-- Every file of a well-formed tree is listed once. -/
theorem files_nodup : tree.files.Nodup := by
  induction wellFormed with
  | file contents => exact List.nodup_singleton _
  | directory distinct plain each ih =>
    rw [files, filesOf_eq]
    refine List.nodup_flatMap.2 ⟨fun entry member => ?_, ?_⟩
    · exact (ih entry member).map (List.cons_injective)
    · refine (List.pairwise_map.1 distinct).imp ?_
      intro first second different location isFirst isSecond
      obtain ⟨_, -, rfl⟩ := List.mem_map.1 isFirst
      obtain ⟨_, -, same⟩ := List.mem_map.1 isSecond
      exact different (List.cons.inj same).1.symm

end WellFormed

/-- A path below a directory leads below the location of the directory. -/
theorem walk_pathBelow {tree : FileTree} {current base location : Location} {directory : Path}
    {names : Location} (leads : tree.LeadsTo current directory base)
    (plain : ∀ name ∈ names, IsPlainName name)
    (walks : tree.walk current (pathBelow directory names) = .ok location) :
    location = base ++ names := by
  induction names using List.reverseRecOn generalizing location with
  | nil =>
    rw [List.append_nil]
    exact Except.ok.inj (walks.symm.trans leads.walk)
  | append_singleton rest name ih =>
    obtain ⟨restPlain, namePlain⟩ := List.forall_mem_append.1 plain
    rw [pathBelow_concat, walk_join_eq_ok (namePlain name (List.mem_singleton_self _))] at walks
    obtain ⟨outer, above, -, rfl, -⟩ := walks
    rw [ih restPlain above.walk, List.append_assoc]

/-- Plain names below a directory are known from the key of their path. -/
theorem key_pathBelow_injOn {directory : Path} {first second : Location}
    (firstPlain : ∀ name ∈ first, IsPlainName name)
    (secondPlain : ∀ name ∈ second, IsPlainName name)
    (same : (pathBelow directory first).key = (pathBelow directory second).key) :
    first = second := by
  have components := List.map_injective_iff.2 PathComponent.key_injective same
  rw [components_pathBelow directory firstPlain, components_pathBelow directory secondPlain]
    at components
  exact List.map_injective_iff.2 (fun _ _ => PathComponent.name.inj)
    (List.append_cancel_left components)

/-- Where the sources are that were found in a directory. -/
structure FoundAt (tree : FileTree) (current : Location) (directory : Path) (base : Location)
    (locations : List Location) (sources : List Path) : Prop where
  /-- The directory is there. -/
  leads : tree.LeadsTo current directory base
  /-- The sources are below it. -/
  sources_eq : sources = locations.map (pathBelow directory)
  /-- They are at different locations. -/
  distinct : locations.Nodup
  /-- They have plain names. -/
  plain : ∀ location ∈ locations, ∀ name ∈ location, IsPlainName name
  /-- They are files. -/
  isFile : ∀ location ∈ locations, (tree.contents? (base ++ location)).isSome = true

/-- What is below a location is what is in the tree there. -/
theorem contents?_of_get? {tree found : FileTree} {outer : Location}
    (isThere : tree.get? outer = some found) (inner : Location) :
    found.contents? inner = tree.contents? (outer ++ inner) := by
  rw [contents?, contents?, entryAt, entryAt, get?_append, isThere]
  rfl

/-- What is below a location is known from the tree. -/
theorem Same.of_get? {first second firstFound secondFound : FileTree} (same : Same first second)
    {location : Location} (isFirst : first.get? location = some firstFound)
    (isSecond : second.get? location = some secondFound) : Same firstFound secondFound := by
  funext inner
  have below := congrFun same (location ++ inner)
  rwa [entryAt, entryAt, get?_append, get?_append, isFirst, isSecond] at below

/-- All files below a directory of a well-formed tree have different paths. -/
theorem WellFormed.key_nodup {tree : FileTree} (wellFormed : WellFormed tree) (directory : Path) :
    ((tree.files.map (pathBelow directory)).map Path.key).Nodup := by
  have plain : ∀ location ∈ tree.files, ∀ name ∈ location, IsPlainName name := by
    intro location member
    refine wellFormed.plain ?_
    rw [isSome_contents?.1 (wellFormed.mem_files.1 member)]
    rfl
  rw [List.map_map]
  exact wellFormed.files_nodup.map_on fun first isFirst second isSecond =>
    key_pathBelow_injOn (plain first isFirst) (plain second isSecond)

/-- A directory is the same when its entries are listed in another order. -/
theorem same_of_perm {entries others : List (String × FileTree)}
    (distinct : (entries.map (·.1)).Nodup) (perm : entries.Perm others) :
    Same (directory entries) (directory others) := by
  have otherDistinct : (others.map (·.1)).Nodup := (perm.map (·.1)).nodup_iff.1 distinct
  have children : ∀ name, child? entries name = child? others name := by
    intro name
    apply Option.ext
    intro found
    rw [child?_eq_some distinct, child?_eq_some otherDistinct, perm.mem_iff]
  funext location
  cases location with
  | nil => rfl
  | cons name rest => rw [entryAt, entryAt, get?_cons, get?_cons, children]

/-- A directory is the same when an entry is replaced by one that is the same. -/
theorem same_of_entry {first second : FileTree} (same : Same first second) (name : String)
    (rest : List (String × FileTree)) :
    Same (directory ((name, first) :: rest)) (directory ((name, second) :: rest)) := by
  funext location
  cases location with
  | nil => rfl
  | cons other inner =>
    rw [entryAt, entryAt, get?_cons, get?_cons, child?, child?, List.find?_cons, List.find?_cons]
    by_cases isFirst : name = other
    · have isHere : (name == other) = true := beq_iff_eq.2 isFirst
      simp only [isHere, Option.map_some, Option.bind_some]
      exact congrFun same inner
    · have elsewhere : (name == other) = false := beq_eq_false_iff_ne.2 isFirst
      simp only [elsewhere]

/-- Well-formed trees that are the same hold the same files. -/
theorem Same.files_perm {first second : FileTree} (same : Same first second)
    (firstFormed : WellFormed first) (secondFormed : WellFormed second) :
    first.files.Perm second.files := by
  rw [List.perm_ext_iff_of_nodup firstFormed.files_nodup secondFormed.files_nodup]
  intro location
  rw [firstFormed.mem_files, secondFormed.mem_files, same.contents?]

end FileTree

namespace Sources

open FileTree

variable {tree : FileTree} (wellFormed : WellFormed tree) {current : Location} {directory : Path}

/-- The sources in a directory do not depend on the order of listings. -/
theorem ofFiles_same {other : FileTree} (same : Same tree other) (wellFormed : WellFormed tree)
    (otherFormed : WellFormed other) (current : Location) (directory : Path) :
    (tree.filesBelow current directory).map ofFiles =
      (other.filesBelow current directory).map ofFiles := by
  rw [filesBelow, filesBelow]
  rcases same.lookup current directory with ⟨_, isFirst, isSecond⟩ | ⟨_, _, isFirst, isSecond⟩ |
    ⟨location, entries, others, isFirst, isSecond⟩
  · rw [isFirst, isSecond]
  · rw [isFirst, isSecond]
  · rw [isFirst, isSecond]
    have isThere := (lookup_eq_ok.1 isFirst).2.2
    have isOther := (lookup_eq_ok.1 isSecond).2.2
    have formed := wellFormed.of_get? isThere
    have perm := (same.of_get? isThere isOther).files_perm formed (otherFormed.of_get? isOther)
    exact congrArg Except.ok
      (ofFiles_eq_of_perm (perm.map (pathBelow directory)) (formed.key_nodup directory))

/-- If sources were found, their directory is there, and they are among the files below it. -/
theorem exists_of_filesBelow {sources : List Path}
    (found : (tree.filesBelow current directory).map ofFiles = .ok sources) :
    ∃ base entries, tree.lookup current directory = .ok (base, .directory entries) ∧
      sources = ofFiles ((FileTree.directory entries).files.map (pathBelow directory)) := by
  rw [filesBelow] at found
  cases isThere : tree.lookup current directory with
  | error fault =>
    rw [isThere] at found
    contradiction
  | ok entry =>
    obtain ⟨base, held⟩ := entry
    rw [isThere] at found
    cases held with
    | file contents => contradiction
    | directory entries => exact ⟨base, entries, rfl, (Except.ok.inj found).symm⟩

/-- What was found among the files below a directory are sources. -/
theorem isSource_of_mem {sources : List Path}
    (found : (tree.filesBelow current directory).map ofFiles = .ok sources) {source : Path}
    (member : source ∈ sources) : isSource source = true := by
  obtain ⟨base, entries, -, rfl⟩ := exists_of_filesBelow found
  exact (List.mem_filter.1 (List.mem_mergeSort.1 member)).2

include wellFormed

/-- Sources that were found are in order, and no two have the same place in it. -/
theorem pairwise_before {sources : List Path}
    (found : (tree.filesBelow current directory).map ofFiles = .ok sources) :
    sources.Pairwise fun left right => left.before right = true := by
  obtain ⟨base, entries, isThere, rfl⟩ := exists_of_filesBelow found
  exact ofFiles_pairwise_before
    ((wellFormed.of_get? (lookup_eq_ok.1 isThere).2.2).key_nodup directory)

/-- Sources that were found are different files below the directory. -/
theorem exists_foundAt {sources : List Path}
    (found : (tree.filesBelow current directory).map ofFiles = .ok sources) :
    ∃ base locations, tree.FoundAt current directory base locations sources := by
  obtain ⟨base, entries, isThere, rfl⟩ := exists_of_filesBelow found
  obtain ⟨-, leads, held⟩ := lookup_eq_ok.1 isThere
  have formed := wellFormed.of_get? held
  let isChosen := fun location => isSource (pathBelow directory location)
  let inOrder := fun left right => !(pathBelow directory right).before (pathBelow directory left)
  let files := (FileTree.directory entries).files
  have chosen : ∀ location ∈ (files.filter isChosen).mergeSort inOrder, location ∈ files :=
    fun location member => List.mem_of_mem_filter (List.mem_mergeSort.1 member)
  have isFile : ∀ location ∈ files,
      (tree.contents? (base ++ location)).isSome = true := by
    intro location member
    rw [← contents?_of_get? held]
    exact formed.mem_files.1 member
  refine ⟨base, (files.filter isChosen).mergeSort inOrder, ?_⟩
  constructor
  case leads => exact ⟨leads, by rw [kind?, held]; rfl⟩
  case sources_eq =>
    rw [ofFiles, List.filter_map]
    exact (List.map_mergeSort (f := pathBelow directory) fun _ _ _ _ => rfl).symm
  case distinct =>
    exact (List.mergeSort_perm _ _).nodup_iff.2 (formed.files_nodup.filter _)
  case plain =>
    intro location member name isName
    have isThere := isSome_contents?.1 (isFile location (chosen location member))
    exact wellFormed.plain (by rw [isThere]; rfl) name (List.mem_append_right base isName)
  case isFile => exact fun location member => isFile location (chosen location member)

end Sources

end PhysicsPrefab
