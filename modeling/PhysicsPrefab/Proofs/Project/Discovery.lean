import Mathlib.Algebra.BigOperators.Group.List.Basic
import Mathlib.Algebra.GroupWithZero.Nat
import PhysicsPrefab.Files.Disk
import PhysicsPrefab.Proofs.Files.Below
import PhysicsPrefab.Proofs.Project.Programs

/-!
# Finding sources

The search for sources takes directories from a stack: it lists the next one, in whatever order its
entries come, puts the directories among them on the stack and keeps the files that are sources.
What has been found and what is still below the stack are together always the same sources
(`Round.ahead`), so the search stops after as many rounds as there are directories, with every
source found once. Sorted, these are the sources that are discovered (`discover_exact`): the files
whose names end in `.json` with something before it.
-/

namespace PhysicsPrefab

namespace FileTree

mutual

/-- How many directories a tree has. -/
def directoryCount : FileTree → Nat
  | file _ => 0
  | directory entries => directoryCountOf entries + 1

/-- How many directories some entries have. -/
def directoryCountOf : List (String × FileTree) → Nat
  | [] => 0
  | (_, tree) :: rest => directoryCount tree + directoryCountOf rest

end

/-- The directories of some entries are those of each. -/
theorem directoryCountOf_eq (entries : List (String × FileTree)) :
    directoryCountOf entries = (entries.map (·.2.directoryCount)).sum := by
  induction entries with
  | nil => rfl
  | cons entry rest ih => rw [directoryCountOf, ih, List.map_cons, List.sum_cons]

/-- An entry of a directory is found by its name. -/
theorem WellFormed.get?_entry {tree : FileTree} (wellFormed : WellFormed tree) {names : Location}
    {entries : List (String × FileTree)} (isThere : tree.get? names = some (.directory entries))
    {entry : String × FileTree} (member : entry ∈ entries) :
    tree.get? (names ++ [entry.1]) = some entry.2 := by
  cases wellFormed.of_get? isThere with
  | directory distinct plain each =>
    rw [get?_append, isThere, Option.bind_some, get?_cons, (child?_eq_some distinct).2 member]
    rfl

end FileTree

namespace Sources

open FileTree Program
open scoped List

/-- A search on its way. -/
structure Search where
  /-- The directories that are still to be listed, the next one first. -/
  pending : List Path
  /-- The sources found so far. -/
  found : List Path

/-- The search after an entry of a directory has been looked at. -/
def Search.look (directory : Path) (search : Search) (entry : String × FileTree) : Search :=
  let path := directory.join ⟨entry.1⟩
  if entry.2.isDirectory then { search with pending := path :: search.pending }
  else if isSource path then { search with found := search.found ++ [path] }
  else search

/-- A directory is put on the stack, whatever its name. -/
theorem Search.look_directory (directory : Path) (search : Search) (name : String)
    (entries : List (String × FileTree)) :
    search.look directory (name, .directory entries) =
      { search with pending := directory.join ⟨name⟩ :: search.pending } := rfl

/-- A file is kept if it is a source. -/
theorem Search.look_file (directory : Path) (search : Search) (name : String)
    (contents : ByteArray) :
    search.look directory (name, .file contents) =
      { search with found := search.found ++ [directory.join ⟨name⟩].filter isSource } := by
  cases chosen : isSource (directory.join ⟨name⟩) <;> simp [look, isDirectory, chosen]

/-- A round of the search below a path that leads to a tree: the next directory is taken from the
stack, and its entries are looked at in any order. -/
inductive Round (start : Path) (top : FileTree) : Search → Search → Prop where
  /-- A directory is listed. -/
  | list {names : Location} {entries listed : List (String × FileTree)} {pending found : List Path}
      (isThere : top.get? names = some (directory entries)) (order : listed.Perm entries) :
      Round start top ⟨pathBelow start names :: pending, found⟩
        (listed.foldl (Search.look (pathBelow start names)) ⟨pending, found⟩)

/-- Rounds one after the other, with their number. -/
inductive Rounds (start : Path) (top : FileTree) : Nat → Search → Search → Prop where
  /-- No round. -/
  | nil (search : Search) : Rounds start top 0 search search
  /-- A round and further ones. -/
  | cons {search next last : Search} {count : Nat} (round : Round start top search next)
      (rest : Rounds start top count next last) : Rounds start top (count + 1) search last

/-- The sources in a tree that some names below a path lead to. -/
def sourcesIn (start : Path) (place : Location × FileTree) : List Path :=
  (place.2.files.map fun inner => pathBelow start (place.1 ++ inner)).filter isSource

/-- The sources in a directory are those in each of its entries. -/
theorem sourcesIn_directory (start : Path) (names : Location)
    (entries : List (String × FileTree)) :
    sourcesIn start (names, .directory entries) =
      entries.flatMap fun entry => sourcesIn start (names ++ [entry.1], entry.2) := by
  simp only [sourcesIn, files, filesOf_eq, List.map_flatMap, List.filter_flatMap, List.map_map,
    Function.comp_def, List.append_assoc, List.singleton_append]

/-- What is ahead of a search: the directories on its stack, each with the tree that is there, the
sources that will have been found in the end, and how many rounds are to come. -/
structure Ahead (start : Path) (top : FileTree) (search : Search)
    (places : List (Location × FileTree)) (all : List Path) (rounds : Nat) : Prop where
  /-- The stack leads to the places. -/
  pending_eq : search.pending = places.map fun place => pathBelow start place.1
  /-- There are directories. -/
  isThere : ∀ place ∈ places, top.get? place.1 = some place.2 ∧ place.2.isDirectory = true
  /-- All sources have been found or are below the stack. -/
  all_perm : (search.found ++ places.flatMap (sourcesIn start)).Perm all
  /-- Every directory takes a round. -/
  rounds_eq : (places.map (·.2.directoryCount)).sum = rounds

namespace Ahead

variable {start : Path} {top : FileTree} {search : Search} {places : List (Location × FileTree)}
  {all : List Path} {rounds : Nat} {names : Location}

/-- Looking at an entry adds what is in it. -/
theorem look (ahead : Ahead start top search places all rounds) {entry : String × FileTree}
    (isEntry : top.get? (names ++ [entry.1]) = some entry.2) :
    ∃ more, Ahead start top (search.look (pathBelow start names) entry) more
      (all ++ sourcesIn start (names ++ [entry.1], entry.2))
      (rounds + entry.2.directoryCount) := by
  obtain ⟨name, tree⟩ := entry
  have moved (sources : List Path) :
      (search.found ++ (sources ++ places.flatMap (sourcesIn start))).Perm (all ++ sources) := by
    refine (List.perm_append_comm.append_left _).trans ?_
    rw [← List.append_assoc]
    exact ahead.all_perm.append_right sources
  cases tree with
  | directory entries =>
    rw [Search.look_directory, ← pathBelow_concat]
    refine ⟨(names ++ [name], .directory entries) :: places, ?_⟩
    constructor
    case pending_eq => exact congrArg (pathBelow start (names ++ [name]) :: ·) ahead.pending_eq
    case isThere => exact List.forall_mem_cons.2 ⟨⟨isEntry, rfl⟩, ahead.isThere⟩
    case all_perm => exact moved _
    case rounds_eq => rw [List.map_cons, List.sum_cons, ahead.rounds_eq, Nat.add_comm]
  | file contents =>
    have own : sourcesIn start (names ++ [name], .file contents) =
        [pathBelow start (names ++ [name])].filter isSource := by simp [sourcesIn, files]
    rw [Search.look_file, ← pathBelow_concat, own]
    refine ⟨places, ahead.pending_eq, ahead.isThere, ?_, ahead.rounds_eq⟩
    rw [List.append_assoc]
    exact moved _

/-- Looking at all entries adds what is in them. -/
theorem look_all (ahead : Ahead start top search places all rounds)
    {listed : List (String × FileTree)}
    (areEntries : ∀ entry ∈ listed, top.get? (names ++ [entry.1]) = some entry.2) :
    ∃ more, Ahead start top (listed.foldl (Search.look (pathBelow start names)) search) more
      (all ++ listed.flatMap fun entry => sourcesIn start (names ++ [entry.1], entry.2))
      (rounds + (listed.map (·.2.directoryCount)).sum) := by
  induction listed generalizing search places all rounds with
  | nil => exact ⟨places, by simpa using ahead⟩
  | cons entry rest ih =>
    obtain ⟨isEntry, others⟩ := List.forall_mem_cons.1 areEntries
    obtain ⟨middle, next⟩ := ahead.look isEntry
    obtain ⟨more, last⟩ := ih next others
    rw [List.append_assoc, Nat.add_assoc] at last
    exact ⟨more, last⟩

end Ahead

section WellFormed

variable {start : Path} {top : FileTree} (wellFormed : WellFormed top) {search next : Search}
  {places : List (Location × FileTree)} {all : List Path} {rounds : Nat}

include wellFormed

/-- In a round nothing is lost and nothing is found twice: what has been found and what is below the
stack stays the same, and there is one round less to come. -/
theorem Round.ahead (round : Round start top search next)
    (before : Ahead start top search places all rounds) :
    ∃ more left, rounds = left + 1 ∧ Ahead start top next more all left := by
  cases round with
  | @list names entries listed pending found isThere order =>
    obtain ⟨pending_eq, arePlaces, all_perm, rounds_eq⟩ := before
    cases places with
    | nil => contradiction
    | cons place others =>
      obtain ⟨reached, tree⟩ := place
      obtain ⟨⟨isTree, isDirectory⟩, others_there⟩ := List.forall_mem_cons.1 arePlaces
      obtain ⟨samePath, others_eq⟩ := List.cons.inj pending_eq
      have plainAt {place : Location} {found : FileTree} (held : top.get? place = some found) :
          ∀ name ∈ place, IsPlainName name := wellFormed.plain (by rw [kind?, held]; rfl)
      obtain rfl : names = reached :=
        key_pathBelow_injOn (plainAt isThere) (plainAt isTree) (congrArg Path.key samePath)
      obtain rfl : tree = .directory entries := Option.some.inj (isTree.symm.trans isThere)
      have areEntries : ∀ entry ∈ listed, top.get? (names ++ [entry.1]) = some entry.2 :=
        fun entry member => wellFormed.get?_entry isThere (order.subset member)
      have rest : Ahead start top ⟨pending, found⟩ others
          (found ++ others.flatMap (sourcesIn start)) (others.map (·.2.directoryCount)).sum :=
        ⟨others_eq, others_there, .rfl, rfl⟩
      obtain ⟨more, after⟩ := rest.look_all areEntries
      refine ⟨more, _, ?_, after.pending_eq, after.isThere, after.all_perm.trans ?_,
        after.rounds_eq⟩
      · rw [← rounds_eq, (order.map _).sum_eq, ← directoryCountOf_eq, List.map_cons, List.sum_cons,
          directoryCount]
        omega
      · calc found ++ others.flatMap (sourcesIn start) ++
              listed.flatMap (fun entry => sourcesIn start (names ++ [entry.1], entry.2))
          _ ~ found ++ others.flatMap (sourcesIn start) ++
              sourcesIn start (names, .directory entries) := by
            rw [sourcesIn_directory]
            exact (order.flatMap_right _).append_left _
          _ ~ found ++ (sourcesIn start (names, .directory entries) ++
              others.flatMap (sourcesIn start)) := by
            rw [List.append_assoc]
            exact List.perm_append_comm.append_left _
          _ ~ all := all_perm

/-- Rounds go on with what is ahead. -/
theorem Rounds.ahead {count : Nat} (run : Rounds start top count search next)
    (before : Ahead start top search places all rounds) :
    ∃ more left, rounds = left + count ∧ Ahead start top next more all left := by
  induction run generalizing places rounds with
  | nil search => exact ⟨places, rounds, rfl, before⟩
  | cons round rest ih =>
    obtain ⟨middle, later, rfl, next⟩ := round.ahead wellFormed before
    obtain ⟨more, left, rfl, last⟩ := ih next
    exact ⟨more, left, rfl, last⟩

end WellFormed

/-- As long as directories are on the stack, the search can go on. -/
theorem Ahead.exists_round {start : Path} {top : FileTree} {search : Search}
    {places : List (Location × FileTree)} {all : List Path} {rounds : Nat}
    (ahead : Ahead start top search places all rounds) (proper : search.pending ≠ []) :
    ∃ next, Round start top search next := by
  obtain ⟨pending, found⟩ := search
  obtain ⟨pending_eq, isThere, -, -⟩ := ahead
  cases places with
  | nil => exact absurd pending_eq proper
  | cons place others =>
    obtain ⟨names, tree⟩ := place
    obtain ⟨isTree, isDirectory⟩ := isThere _ List.mem_cons_self
    cases tree with
    | file contents => contradiction
    | directory entries =>
      obtain rfl : pending = _ := pending_eq
      exact ⟨_, .list isTree .rfl⟩

/-- The place of a source, seen from the directory that is searched: there is a file, and its name
ends in `.json` with something before it. -/
def IsSourcePlace (tree : FileTree) (base location : Location) : Prop :=
  (tree.contents? (base ++ location)).isSome = true ∧
    ∃ outer stem, stem ≠ "" ∧ location = outer ++ [stem ++ ".json"]

/-- The places of all sources below a directory, in the order of their paths. -/
def placesOf (directory : Path) (tree : FileTree) : List Location :=
  (tree.files.filter fun location => isSource (pathBelow directory location)).mergeSort
    fun left right => !(pathBelow directory right).before (pathBelow directory left)

/-- The sources among the files below a directory are at those places. -/
theorem ofFiles_eq (directory : Path) (tree : FileTree) :
    ofFiles (tree.files.map (pathBelow directory)) =
      (placesOf directory tree).map (pathBelow directory) := by
  rw [ofFiles, List.filter_map]
  exact (List.map_mergeSort (f := pathBelow directory) fun _ _ _ _ => rfl).symm

/-- Once all sources in a tree have been found, in whatever order, they are sorted. -/
theorem sort_eq_of_perm {directory : Path} {top : FileTree} (wellFormed : WellFormed top)
    {found : List Path} (perm : found.Perm (sourcesIn directory ([], top))) :
    found.mergeSort (fun left right => !right.before left) =
      (placesOf directory top).map (pathBelow directory) := by
  have perm : found.Perm ((top.files.map (pathBelow directory)).filter isSource) := perm
  have areSources : ∀ path ∈ found, isSource path = true := fun path member =>
    (List.mem_filter.1 (perm.subset member)).2
  have distinct : (found.map Path.key).Nodup :=
    (perm.map Path.key).nodup_iff.2
      ((wellFormed.key_nodup directory).sublist (List.filter_sublist.map Path.key))
  calc found.mergeSort (fun left right => !right.before left)
    _ = ofFiles found := by rw [ofFiles, List.filter_eq_self.2 areSources]
    _ = ofFiles ((top.files.map (pathBelow directory)).filter isSource) :=
      ofFiles_eq_of_perm perm distinct
    _ = ofFiles (top.files.map (pathBelow directory)) := by
      rw [ofFiles, ofFiles, List.filter_filter]
      simp only [Bool.and_self]
    _ = (placesOf directory top).map (pathBelow directory) := ofFiles_eq directory top

section Found

variable {tree : FileTree} (wellFormed : WellFormed tree) {current base : Location}
  {directory : Path} {entries : List (String × FileTree)}

include wellFormed

/-- The places are those of the files with the names of sources. -/
theorem mem_placesOf (held : tree.get? base = some (.directory entries)) {location : Location} :
    location ∈ placesOf directory (.directory entries) ↔ IsSourcePlace tree base location := by
  rw [placesOf, List.mem_mergeSort, List.mem_filter, (wellFormed.of_get? held).mem_files,
    contents?_of_get? held, IsSourcePlace]
  refine and_congr_right fun isFile => ?_
  have plain : ∀ name ∈ location, IsPlainName name := by
    intro name isName
    have isThere := isSome_contents?.1 isFile
    exact wellFormed.plain (by rw [isThere]; rfl) name (List.mem_append_right base isName)
  induction location using List.reverseRecOn with
  | nil =>
    rw [List.append_nil, contents?, entryAt, held] at isFile
    contradiction
  | append_singleton outer name _ =>
    rw [isSource_iff directory plain]
    constructor
    · rintro ⟨stem, proper, rfl⟩
      exact ⟨outer, stem, proper, rfl⟩
    · rintro ⟨_, stem, proper, same⟩
      exact ⟨stem, proper, List.singleton_inj.1 (List.append_inj_right' same rfl)⟩

/-- What is discovered in a directory of a well-formed tree, however its directories list their
entries: each file below it whose name ends in `.json` with something before it, once, strictly in
the order of the components of the paths. The search for it stops after at most as many rounds as
there are directories, whatever the order in which it sees the entries of each; it can go on as long
as a directory is to be listed, and then it has found just these files. -/
theorem discover_exact
    (isThere : tree.lookup current directory = .ok (base, .directory entries)) :
    ∃ locations : List Location, locations.Nodup ∧
      (∀ location, location ∈ locations ↔ IsSourcePlace tree base location) ∧
      (locations.map (pathBelow directory)).Pairwise
        (fun left right => left.before right = true) ∧
      (∀ disk : Disk, disk.tree = tree → disk.current = current →
        value (discover directory : OnDisk _) disk = .ok (locations.map (pathBelow directory))) ∧
      ∀ count search,
        Rounds directory (.directory entries) count ⟨[directory], []⟩ search →
        count ≤ (FileTree.directory entries).directoryCount ∧
          (search.pending ≠ [] → ∃ next, Round directory (.directory entries) search next) ∧
          (search.pending = [] → search.found.mergeSort (fun left right => !right.before left) =
            locations.map (pathBelow directory)) := by
  obtain ⟨-, -, held⟩ := lookup_eq_ok.1 isThere
  have formed := wellFormed.of_get? held
  have listed : (tree.filesBelow current directory).map ofFiles =
      .ok ((placesOf directory (.directory entries)).map (pathBelow directory)) := by
    rw [filesBelow, isThere, ← ofFiles_eq]
    rfl
  refine ⟨placesOf directory (.directory entries), ?_, ?_, ?_, ?_, ?_⟩
  · exact (List.mergeSort_perm _ _).nodup_iff.2 (formed.files_nodup.filter _)
  · exact fun location => mem_placesOf wellFormed held
  · exact pairwise_before wellFormed listed
  · rintro disk rfl rfl
    exact listed
  · intro count search run
    have start : Ahead directory (.directory entries) ⟨[directory], []⟩
        [([], .directory entries)] (sourcesIn directory ([], .directory entries))
        (FileTree.directory entries).directoryCount := by
      constructor <;> simp [pathBelow, get?, isDirectory]
    obtain ⟨places, left, counted, ahead⟩ := run.ahead formed start
    refine ⟨by omega, ahead.exists_round, fun isDone => ?_⟩
    have none : places = [] := List.map_eq_nil_iff.1 (ahead.pending_eq.symm.trans isDone)
    have perm := ahead.all_perm
    rw [none, List.flatMap_nil, List.append_nil] at perm
    exact sort_eq_of_perm formed perm

end Found

/-- A directory whose entries are not listed in order: one below it is named like a source, and a
file has nothing before the ending. -/
def drawer : List (String × FileTree) :=
  [("c.json", .directory [("b.json", .file .empty)]), (".json", .file .empty),
    ("b-c", .directory [("a.json", .file .empty)]), ("b", .directory [("a.json", .file .empty)])]

/-- A tree that holds the directory. -/
def drawerTree : FileTree := .directory [("src", .directory drawer)]

/-- The tree is well-formed. -/
theorem drawer_wellFormed : WellFormed drawerTree := by
  have single {name : String} {tree : FileTree} (plain : IsPlainName name)
      (formed : WellFormed tree) : WellFormed (.directory [(name, tree)]) :=
    .directory (List.nodup_singleton _) (List.forall_mem_singleton.2 plain)
      (List.forall_mem_singleton.2 formed)
  refine single (by decide) (.directory (by decide) (by decide) ?_)
  simp only [drawer, List.forall_mem_cons]
  exact ⟨single (by decide) (.file _), .file _, single (by decide) (.file _),
    single (by decide) (.file _), List.forall_mem_nil _⟩

/-- What is discovered in the directory: the order is not that of the texts of the paths. -/
theorem discover_exact_drawer : ∃ locations : List Location,
    value (discover ⟨"src"⟩ : OnDisk _) (.ofTree drawerTree []) =
      .ok (locations.map (pathBelow ⟨"src"⟩)) ∧
    locations.map (pathBelow ⟨"src"⟩) =
      [⟨"src/b/a.json"⟩, ⟨"src/b-c/a.json"⟩, ⟨"src/c.json/b.json"⟩] ∧ locations.Nodup ∧
    (∀ location, location ∈ locations ↔ IsSourcePlace drawerTree ["src"] location) ∧
    ∀ count search,
      Rounds ⟨"src"⟩ (.directory drawer) count ⟨[⟨"src"⟩], []⟩ search → count ≤ 4 := by
  have isThere : drawerTree.lookup [] ⟨"src"⟩ = .ok (["src"], .directory drawer) := rfl
  obtain ⟨locations, distinct, isPlace, -, found, search⟩ :=
    discover_exact drawer_wellFormed isThere
  have discovered : value (discover ⟨"src"⟩ : OnDisk _) (.ofTree drawerTree []) =
      .ok (locations.map (pathBelow ⟨"src"⟩)) := found _ rfl rfl
  refine ⟨locations, discovered, ?_, distinct, isPlace,
    fun count last run => (search count last run).1⟩
  calc locations.map (pathBelow ⟨"src"⟩)
    _ = ofFiles ((FileTree.directory drawer).files.map (pathBelow ⟨"src"⟩)) :=
      (Except.ok.inj discovered).symm
    _ = ofFiles [⟨"src/b/a.json"⟩, ⟨"src/b-c/a.json"⟩, ⟨"src/c.json/b.json"⟩, ⟨"src/.json"⟩] :=
      ofFiles_eq_of_perm (by decide +kernel) (by decide +kernel)
    _ = [⟨"src/b/a.json"⟩, ⟨"src/b-c/a.json"⟩, ⟨"src/c.json/b.json"⟩] :=
      List.mergeSort_of_pairwise (by decide +kernel)

end Sources

end PhysicsPrefab
