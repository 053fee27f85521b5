import PhysicsPrefab.Proofs.Answers
import PhysicsPrefab.Proofs.Files.Entries

/-!
# Routes

Where the paths lead that are made by joining names to a directory. A plain name leads to the
entry of that name in the directory (`walk_join`). If the directory is there, making the
directories above such a path does nothing (`makeDirectories_of_leadsTo`) or makes one
(`makeDirectory_join`), and the file is written into the directory (`writeBytes_join`).
-/

namespace PhysicsPrefab.FileTree

open Answer
open PhysicsPrefab.Path (HasParts)

/-- Where the parts of a path lead. -/
def walk (tree : FileTree) (current : Location) (path : Path) : Except StorageFault Location :=
  tree.follow (startOf current path).1 (startOf current path).2

/-- A path leads to a directory. -/
structure LeadsTo (tree : FileTree) (current : Location) (path : Path) (location : Location) :
    Prop where
  /-- Its parts lead there. -/
  walk : tree.walk current path = .ok location
  /-- There is a directory. -/
  isDirectory : tree.kind? location = some true

/-- A directory is what has the kind of one. -/
theorem exists_directory {tree : FileTree} {location : Location}
    (isDirectory : tree.kind? location = some true) :
    ∃ entries, tree.get? location = some (directory entries) := by
  obtain ⟨found, held, kind⟩ := Option.map_eq_some_iff.1 isDirectory
  cases found with
  | file contents => contradiction
  | directory entries => exact ⟨entries, held⟩

/-- A part is followed only at a directory, and leads to something. -/
theorem step_spec {tree : FileTree} {location next : Location} {piece : List Char}
    (leads : tree.step location piece = .ok next) : tree.kind? location = some true := by
  unfold step at leads
  rw [kind?]
  cases found : tree.get? location with
  | none => simp [found] at leads
  | some held =>
    cases held with
    | file contents => simp [found] at leads
    | directory entries => rfl

/-- A plain name leads to the entry of that name. -/
theorem step_plain {tree : FileTree} {location next : Location} {name : String}
    (plain : IsPlainName name) :
    tree.step location name.toList = .ok next ↔
      tree.kind? location = some true ∧ isName name.toList = true ∧
        next = location ++ [name] ∧ (tree.kind? next).isSome = true := by
  rw [step, kind?]
  cases found : tree.get? location with
  | none => simp
  | some held =>
    cases held with
    | file contents => simp [isDirectory]
    | directory entries =>
      dsimp only
      split
      · exact absurd ‹_› plain.nonempty
      · exact absurd ‹_› plain.noDot
      · exact absurd ‹_› plain.noDots
      · rw [String.ofList_toList, child?_eq found]
        cases isName name.toList with
        | false => simp
        | true =>
          cases there : tree.get? (location ++ [name]) with
          | none =>
            simp only [Bool.not_true, Bool.false_eq_true, ↓reduceIte, reduceCtorEq, false_iff]
            rintro ⟨-, -, rfl, isThere⟩
            simp [kind?, there] at isThere
          | some sub =>
            simp only [Bool.not_true, Bool.false_eq_true, ↓reduceIte, Except.ok.injEq,
              Option.map_some, isDirectory, true_and]
            constructor
            · rintro rfl
              exact ⟨rfl, by simp [kind?, there]⟩
            · exact fun same => same.1.symm

/-- An empty part before another one changes nothing. -/
theorem follow_empty (tree : FileTree) (location : Location) (piece : List Char)
    (rest : List (List Char)) :
    tree.follow location ([] :: piece :: rest) = tree.follow location (piece :: rest) := by
  rw [follow_cons, step]
  cases found : tree.get? location with
  | none => rw [follow_cons, step, found]; rfl
  | some held =>
    cases held with
    | file contents => rw [follow_cons, step, found]; rfl
    | directory entries => rfl

/-- At a directory parts that mean nothing lead nowhere else. -/
theorem follow_fillers {tree : FileTree} {location : Location} {fillers : List (List Char)}
    (isDirectory : tree.kind? location = some true)
    (fill : ∀ piece ∈ fillers, Path.isFiller piece = true) :
    tree.follow location fillers = .ok location := by
  obtain ⟨entries, held⟩ := exists_directory isDirectory
  induction fillers with
  | nil => rfl
  | cons piece rest ih =>
    obtain ⟨filler, others⟩ := List.forall_mem_cons.1 fill
    simp only [Path.isFiller, Bool.or_eq_true, List.isEmpty_iff, decide_eq_true_eq] at filler
    rw [follow_cons, step, held]
    rcases filler with rfl | rfl <;> exact ih others

/-- Parts that mean nothing lead nowhere else. -/
theorem eq_of_follow_fillers {tree : FileTree} {location next : Location}
    {fillers : List (List Char)} (fill : ∀ piece ∈ fillers, Path.isFiller piece = true)
    (leads : tree.follow location fillers = .ok next) : next = location := by
  induction fillers with
  | nil => exact (Except.ok.inj leads).symm
  | cons piece rest ih =>
    obtain ⟨filler, others⟩ := List.forall_mem_cons.1 fill
    rw [follow_cons, bind_eq_ok] at leads
    obtain ⟨middle, step, leads⟩ := leads
    have stays := follow_fillers (step_spec step) (List.forall_mem_singleton.2 filler)
    rw [follow_cons, step] at stays
    obtain rfl : middle = location := Except.ok.inj stays
    exact ih others leads

/-- Where parts are followed from, and which of them: the first part of a path that starts at the
root stands for the root. -/
def startFrom (current : Location) (absolute : Bool) (parts : List (List Char)) :
    Location × List (List Char) :=
  if absolute then ([], parts.tail) else (current, parts)

/-- The start of a path is known from its parts. -/
theorem startOf_eq (current : Location) (path : Path) :
    startOf current path = startFrom current path.isAbsolute (Path.pieces path.text.toList) := rfl

/-- The parts of a path that starts at the root are not none. -/
theorem ne_nil_of_isAbsolute {path : Path} {parts : List (List Char)} (has : path.HasParts parts)
    (absolute : path.isAbsolute = true) : parts ≠ [] := by
  rintro rfl
  obtain ⟨second, others, split⟩ := Path.isAbsolute_iff.1 absolute
  rcases has with same | same <;> simp [split] at same

/-- More parts are followed from where the first ones start. -/
theorem startFrom_append {current : Location} {absolute : Bool} {parts : List (List Char)}
    (proper : absolute = true → parts ≠ []) (more : List (List Char)) :
    startFrom current absolute (parts ++ more) =
      ((startFrom current absolute parts).1, (startFrom current absolute parts).2 ++ more) := by
  cases absolute with
  | false => rfl
  | true => simp [startFrom, List.tail_append_of_ne_nil (proper rfl)]

/-- A path leads to a directory if its parts do. -/
theorem leadsTo_iff {tree : FileTree} {current location : Location} {path : Path}
    {parts : List (List Char)} (has : path.HasParts parts) :
    tree.LeadsTo current path location ↔
      tree.follow (startFrom current path.isAbsolute parts).1
          (startFrom current path.isAbsolute parts).2 = .ok location ∧
        tree.kind? location = some true := by
  have proper := ne_nil_of_isAbsolute has
  have leads : tree.LeadsTo current path location ↔
      tree.walk current path = .ok location ∧ tree.kind? location = some true :=
    ⟨fun ⟨walk, isDirectory⟩ => ⟨walk, isDirectory⟩, fun ⟨walk, isDirectory⟩ => ⟨walk, isDirectory⟩⟩
  rw [leads, walk, startOf_eq]
  rcases has with whole | whole
  · rw [whole]
  · rw [whole, startFrom_append proper, follow_append]
    refine and_congr_left fun isDirectory => bind_eq_ok.trans ⟨?_, fun first => ?_⟩
    · rintro ⟨middle, first, leads⟩
      rw [eq_of_follow_fillers (by simp [Path.isFiller]) leads]
      exact first
    · exact ⟨location, first, follow_fillers isDirectory (by simp [Path.isFiller])⟩

/-- A plain name that is joined to a path is followed from where the path leads. -/
theorem walk_join (tree : FileTree) (current : Location) (directory : Path) {name : String}
    (plain : IsPlainName name) :
    tree.walk current (directory.join ⟨name⟩) =
      (tree.walk current directory).bind fun location => tree.follow location [name.toList] := by
  obtain ⟨base, joined, has⟩ := Path.exists_pieces_join directory plain
  have proper := ne_nil_of_isAbsolute has
  rw [walk, walk, startOf_eq, startOf_eq, joined, Path.isAbsolute_join directory plain,
    startFrom_append proper, follow_append]
  rcases has with whole | whole
  · rw [whole]
  · rw [whole, startFrom_append proper, follow_append]
    cases tree.follow (startFrom current directory.isAbsolute base).1
        (startFrom current directory.isAbsolute base).2 with
    | error fault => rfl
    | ok middle =>
      change tree.follow middle [name.toList] =
        (tree.follow middle [[]]).bind fun location => tree.follow location [name.toList]
      rw [← follow_append, List.singleton_append, follow_empty]

/-- A path with a plain name at its end leads to the entry of that name in the directory that the
rest of the path leads to. -/
theorem walk_join_eq_ok {tree : FileTree} {current location : Location} {directory : Path}
    {name : String} (plain : IsPlainName name) :
    tree.walk current (directory.join ⟨name⟩) = .ok location ↔
      ∃ outer, tree.LeadsTo current directory outer ∧ isName name.toList = true ∧
        location = outer ++ [name] ∧ (tree.kind? location).isSome = true := by
  rw [walk_join tree current directory plain, bind_eq_ok]
  constructor
  · rintro ⟨outer, first, leads⟩
    rw [follow_cons, bind_eq_ok] at leads
    obtain ⟨next, step, same⟩ := leads
    obtain rfl := Except.ok.inj same
    obtain ⟨isDirectory, fits, same, isThere⟩ := (step_plain plain).1 step
    exact ⟨outer, ⟨first, isDirectory⟩, fits, same, isThere⟩
  · rintro ⟨outer, ⟨first, isDirectory⟩, fits, same, isThere⟩
    refine ⟨outer, first, ?_⟩
    rw [follow_cons, (step_plain plain).2 ⟨isDirectory, fits, same, isThere⟩]
    rfl

/-- What starts a good path is a good one, unless it is empty. -/
theorem checkPath_of_prefix {outer path : Path} (starts : outer.text.toList <+: path.text.toList)
    (nonempty : outer.text.isEmpty = false) (good : checkPath path = .ok ()) :
    checkPath outer = .ok () := by
  obtain ⟨rest, split⟩ := starts
  have text : path.text = outer.text ++ String.ofList rest := by
    apply String.toList_inj.1
    rw [String.toList_append, String.toList_ofList, split]
  unfold checkPath at good ⊢
  rw [text, String.utf8ByteSize_append, String.toList_append] at good
  split at good
  · contradiction
  · split at good
    · contradiction
    · rename_i small
      rw [nonempty, if_neg Bool.false_ne_true, if_neg]
      simp only [Bool.or_eq_true, List.contains_append, decide_eq_true_eq, not_or] at small ⊢
      exact ⟨small.1.1, by omega⟩

/-- A folder has a good path if a file in it has. -/
theorem checkPath_of_join {directory : Path} {folder name : String} (folderPlain : IsPlainName folder)
    (plain : IsPlainName name) (good : checkPath ((directory.join ⟨folder⟩).join ⟨name⟩) = .ok ()) :
    checkPath (directory.join ⟨folder⟩) = .ok () := by
  refine checkPath_of_prefix (Path.prefix_join _ plain) ?_ good
  rw [← Bool.not_eq_true, String.isEmpty_iff, ← Path.components_eq_nil,
    Path.components_join directory folderPlain]
  simp

/-- The path above a name that is joined to a directory leads to the directory. -/
theorem exists_leadsTo_parent {tree : FileTree} {current location : Location} {directory : Path}
    {name : String} (plain : IsPlainName name) (leads : tree.LeadsTo current directory location)
    (good : checkPath (directory.join ⟨name⟩) = .ok ()) :
    ∃ outer, (directory.join ⟨name⟩).parent? = some outer ∧
      tree.LeadsTo current outer location ∧
      (outer.text.isEmpty = false → checkPath outer = .ok ()) := by
  obtain ⟨base, joined, has⟩ := Path.exists_pieces_join directory plain
  obtain ⟨outer, kept, fillers, parent, absolute, rfl, outerHas, fill⟩ :=
    Path.exists_parent?_join plain joined
  refine ⟨outer, parent, (leadsTo_iff outerHas).2 ?_, fun nonempty => ?_⟩
  · obtain ⟨follow, isDirectory⟩ := (leadsTo_iff has).1 leads
    rw [← absolute, startFrom_append (ne_nil_of_isAbsolute outerHas), follow_append,
      bind_eq_ok] at follow
    obtain ⟨middle, first, rest⟩ := follow
    obtain rfl := eq_of_follow_fillers fill rest
    exact ⟨first, isDirectory⟩
  · rw [List.append_assoc] at joined
    exact checkPath_of_prefix (Path.text_prefix_of_hasParts outerHas joined (by simp)) nonempty good

/-- The last part of a path that is not empty comes before empty ones. -/
theorem exists_empties {pieces outer : List (List Char)} {last : List Char}
    (split : pieces.reverse.dropWhile List.isEmpty = last :: outer) :
    last ≠ [] ∧ ∃ empties, pieces = outer.reverse ++ last :: empties ∧
      ∀ piece ∈ empties, Path.isFiller piece = true := by
  have whole := List.takeWhile_append_dropWhile (p := List.isEmpty) (l := pieces.reverse)
  rw [split] at whole
  refine ⟨?_, (pieces.reverse.takeWhile List.isEmpty).reverse, ?_, fun piece member => ?_⟩
  · rintro rfl
    have head := List.head?_dropWhile_not List.isEmpty pieces.reverse
    simp [split] at head
  · have reversed := congrArg List.reverse whole
    rw [List.reverse_reverse] at reversed
    exact reversed.symm.trans (by simp)
  · have isEmpty := List.all_eq_true.1 List.all_takeWhile piece (List.mem_reverse.1 member)
    simp [Path.isFiller, isEmpty]

/-- A part of a path that is neither empty nor dots is a plain name. -/
theorem isPlainName_of_mem {current : Location} {path : Path} {piece : List Char}
    (member : piece ∈ (startOf current path).2) (nonempty : piece ≠ []) (noDot : piece ≠ ['.'])
    (noDots : piece ≠ ['.', '.']) : IsPlainName (String.ofList piece) := by
  have isPiece : piece ∈ Path.pieces path.text.toList := by
    rw [startOf_eq, startFrom] at member
    split at member
    · exact List.mem_of_mem_tail member
    · exact member
  constructor <;> rw [String.toList_ofList]
  · exact nonempty
  · exact noDot
  · exact noDots
  · exact Path.slash_not_mem_of_mem_pieces isPiece

/-- There is a directory where a good path leads to one. -/
theorem isDirectoryAt_iff {tree : FileTree} {current : Location} {path : Path} :
    tree.isDirectoryAt current path = true ↔
      checkPath path = .ok () ∧ ∃ location, tree.LeadsTo current path location := by
  rw [isDirectoryAt]
  constructor
  · intro isDirectory
    cases isThere : tree.lookup current path with
    | error fault => simp [isThere] at isDirectory
    | ok entry =>
      obtain ⟨good, walk, held⟩ := lookup_eq_ok.1 isThere
      rw [isThere] at isDirectory
      exact ⟨good, entry.1, walk, by rw [kind?, held]; exact congrArg some isDirectory⟩
  · rintro ⟨good, location, walk, isDirectory⟩
    obtain ⟨found, held, kind⟩ := Option.map_eq_some_iff.1 isDirectory
    rw [lookup_eq_ok.2 ⟨good, walk, held⟩]
    exact kind

/-- There is a file where a good path leads to one. -/
theorem isFileAt_iff {tree : FileTree} {current : Location} {path : Path} :
    tree.isFileAt current path = true ↔ checkPath path = .ok () ∧
      ∃ location, tree.walk current path = .ok location ∧ tree.kind? location = some false := by
  rw [isFileAt]
  constructor
  · intro isFile
    cases isThere : tree.lookup current path with
    | error fault => simp [isThere] at isFile
    | ok entry =>
      obtain ⟨good, walk, held⟩ := lookup_eq_ok.1 isThere
      rw [isThere, Bool.not_eq_true'] at isFile
      exact ⟨good, entry.1, walk, by rw [kind?, held]; exact congrArg some isFile⟩
  · rintro ⟨good, location, walk, isFile⟩
    obtain ⟨found, held, kind⟩ := Option.map_eq_some_iff.1 isFile
    rw [lookup_eq_ok.2 ⟨good, walk, held⟩]
    change (!found.isDirectory) = true
    rw [kind]
    rfl

/-- A directory that is there cannot be made. -/
theorem makeDirectory_of_leadsTo {tree : FileTree} {current location : Location} {path : Path}
    (leads : tree.LeadsTo current path location) (good : checkPath path = .ok ()) :
    tree.makeDirectory current path = .error .occupied := by
  have walk : tree.follow (startOf current path).1 (startOf current path).2 = .ok location :=
    leads.walk
  simp only [makeDirectory, newPlace, good, bind, Except.bind]
  cases split : (startOf current path).2.reverse.dropWhile List.isEmpty with
  | nil => rfl
  | cons last outer =>
    obtain ⟨nonempty, empties, whole, fill⟩ := exists_empties split
    rw [whole, follow_append, bind_eq_ok] at walk
    obtain ⟨directory, first, rest⟩ := walk
    rw [follow_cons, bind_eq_ok] at rest
    obtain ⟨next, step, rest⟩ := rest
    obtain ⟨entries, held⟩ := exists_directory (step_spec step)
    dsimp only
    rw [first]
    simp only [held]
    by_cases dots : last = ['.'] ∨ last = ['.', '.']
    · simp [dots]
      rfl
    · rw [not_or] at dots
      have plain := isPlainName_of_mem (whole.symm ▸ List.mem_append_right _ List.mem_cons_self)
        nonempty dots.1 dots.2
      rw [← String.toList_ofList (l := last), step_plain plain, String.toList_ofList] at step
      obtain ⟨-, fits, rfl, isThere⟩ := step
      obtain ⟨sub, isSub⟩ := Option.isSome_iff_exists.1 (Option.isSome_map.symm.trans isThere)
      simp [dots, fits, pure, Except.pure, isSub]
      rfl

/-- A directory that is there need not be made. -/
theorem makeDirectories_of_leadsTo {tree : FileTree} {current location : Location} {path : Path}
    (leads : tree.LeadsTo current path location)
    (good : path.text.isEmpty = false → checkPath path = .ok ()) (steps : Nat) :
    makeDirectories current (steps + 1) tree path = (tree, .ok ()) := by
  unfold makeDirectories
  cases text : path.text.isEmpty with
  | true =>
    rw [String.isEmpty_iff] at text
    rw [if_pos (List.isEmpty_iff.2 (Path.components_eq_nil.2 text))]
  | false =>
    split
    · rfl
    · rw [makeDirectory_of_leadsTo leads (good text)]
      dsimp only
      rw [if_pos (isDirectoryAt_iff.2 ⟨good text, location, leads⟩)]

/-- A directory that was made is there. -/
theorem leadsTo_of_makeDirectory {before after : FileTree} {current : Location} {path : Path}
    (made : before.makeDirectory current path = .ok after) :
    ∃ location, after.LeadsTo current path location := by
  obtain ⟨location, placed, -, changed⟩ := makeDirectory_spec made
  obtain ⟨outer, last, directory, entries, place⟩ := newPlace_spec placed
  obtain ⟨nonempty, empties, whole, fill⟩ := exists_empties place.split
  have isNew : after.kind? location = some true :=
    kind?_eq_true.2 (by rw [changed, Function.update_self])
  have stays := makeDirectory_grows made directory true (by rw [kind?, place.isDirectory]; rfl)
  have plain := isPlainName_of_mem (whole.symm ▸ List.mem_append_right _ List.mem_cons_self)
    nonempty place.noDot place.noDots
  have step : after.step directory last = .ok location := by
    rw [← String.toList_ofList (l := last), step_plain plain, String.toList_ofList]
    exact ⟨stays, place.fits, place.location_eq, by rw [isNew]; rfl⟩
  refine ⟨location, ?_, isNew⟩
  rw [walk, whole, follow_append, follow_grows (makeDirectory_grows made) place.leads]
  change after.follow directory (last :: empties) = .ok location
  rw [follow_cons, step]
  exact follow_fillers isNew fill

/-- A directory that could not be made was there if there was no error. -/
theorem isDirectoryAt_of_not_made {tree after : FileTree} {current : Location} {path : Path}
    {fault : StorageFault}
    (made : (if tree.isDirectoryAt current path then (tree, .ok ()) else (tree, .error fault)) =
      (after, (.ok () : Except StorageFault Unit))) :
    after.isDirectoryAt current path = true := by
  split at made
  · rename_i isDirectory
    obtain ⟨rfl, -⟩ := Prod.mk.inj made
    exact isDirectory
  · simp at made

/-- If directories could be made, there was nothing to do, or the last of them was made, or it was
there. -/
theorem makeDirectories_cases {before after : FileTree} {current : Location} {steps : Nat}
    {path : Path} (made : makeDirectories current steps before path = (after, .ok ())) :
    (path.text = "" ∧ after = before) ∨
      (∃ earlier : FileTree, earlier.makeDirectory current path = .ok after) ∨
      after.isDirectoryAt current path = true := by
  cases steps with
  | zero => simp [makeDirectories] at made
  | succ steps =>
    unfold makeDirectories at made
    split at made
    · rename_i isEmpty
      obtain ⟨rfl, -⟩ := Prod.mk.inj made
      exact .inl ⟨Path.components_eq_nil.1 (List.isEmpty_iff.1 isEmpty), rfl⟩
    · split at made
      · rename_i last isMade
        obtain ⟨rfl, -⟩ := Prod.mk.inj made
        exact .inr (.inl ⟨before, isMade⟩)
      · split at made
        · simp at made
        · rename_i outer _
          cases above : makeDirectories current steps before outer with
          | mk grown result =>
            cases result with
            | error fault => simp [above] at made
            | ok _ =>
              simp only [above] at made
              split at made
              · rename_i last isMade
                obtain ⟨rfl, -⟩ := Prod.mk.inj made
                exact .inr (.inl ⟨grown, isMade⟩)
              · exact .inr (.inr (isDirectoryAt_of_not_made made))
      · exact .inr (.inr (isDirectoryAt_of_not_made made))

/-- Directories that were made are there. -/
theorem leadsTo_of_makeDirectories {before after : FileTree} {current : Location} {steps : Nat}
    {path : Path} (here : before.kind? current = some true)
    (made : makeDirectories current steps before path = (after, .ok ())) :
    ∃ location, after.LeadsTo current path location := by
  rcases makeDirectories_cases made with ⟨text, rfl⟩ | ⟨earlier, isMade⟩ | isThere
  · have has : path.HasParts [] := .inr (by rw [text]; rfl)
    refine ⟨current, (leadsTo_iff has).2 ⟨?_, here⟩⟩
    rw [Path.isAbsolute, text]
    rfl
  · exact leadsTo_of_makeDirectory isMade
  · exact (isDirectoryAt_iff.1 isThere).2

/-- The path of directories that were made is a good one, unless it is empty. -/
theorem checkPath_of_makeDirectories {before after : FileTree} {current : Location} {steps : Nat}
    {path : Path} (made : makeDirectories current steps before path = (after, .ok ()))
    (nonempty : path.text.isEmpty = false) : checkPath path = .ok () := by
  rcases makeDirectories_cases made with ⟨text, -⟩ | ⟨earlier, isMade⟩ | isThere
  · rw [text] at nonempty
    contradiction
  · obtain ⟨_, placed, -⟩ := makeDirectory_spec isMade
    obtain ⟨_, _, _, _, place⟩ := newPlace_spec placed
    exact place.good
  · exact (isDirectoryAt_iff.1 isThere).1

/-- Something new with a plain name goes into the directory that the path leads to. -/
theorem newPlace_join {tree : FileTree} {current location : Location} {directory : Path}
    {name : String} (plain : IsPlainName name) (leads : tree.LeadsTo current directory location)
    (good : checkPath (directory.join ⟨name⟩) = .ok ()) (fits : isName name.toList = true)
    (slash : Bool) :
    tree.newPlace current (directory.join ⟨name⟩) slash = .ok (location ++ [name]) := by
  obtain ⟨base, joined, has⟩ := Path.exists_pieces_join directory plain
  obtain ⟨follow, isDirectory⟩ := (leadsTo_iff has).1 leads
  have start : startFrom current directory.isAbsolute (base ++ [name.toList]) = _ :=
    startFrom_append (ne_nil_of_isAbsolute has) [name.toList]
  rw [← joined, ← Path.isAbsolute_join directory plain, ← startOf_eq,
    Path.isAbsolute_join directory plain] at start
  obtain ⟨entries, held⟩ := exists_directory isDirectory
  simp [newPlace, good, start, bind, Except.bind, plain.nonempty, follow, held, plain.noDot,
    plain.noDots, fits, pure, Except.pure]

/-- The directory of a plain name is made in the directory that the path leads to. -/
theorem makeDirectory_join {tree : FileTree} {current location : Location} {directory : Path}
    {name : String} (plain : IsPlainName name) (leads : tree.LeadsTo current directory location)
    (good : checkPath (directory.join ⟨name⟩) = .ok ()) (fits : isName name.toList = true)
    (free : tree.kind? (location ++ [name]) = none) :
    ∃ made, tree.makeDirectory current (directory.join ⟨name⟩) = .ok made ∧
      made.entryAt = Function.update tree.entryAt (location ++ [name]) (some .directory) := by
  obtain ⟨entries, isThere⟩ := exists_directory leads.isDirectory
  exact ⟨tree.put (location ++ [name]) (.directory []),
    makeDirectory_eq_ok.2 ⟨_, newPlace_join plain leads good fits true,
      Option.map_eq_none_iff.1 free, rfl⟩,
    entryAt_put isThere (fun _ _ => rfl) (by simp [free])⟩

/-- A path that leads to a directory leads there still when the tree grows. -/
theorem LeadsTo.grows {before after : FileTree} {current location : Location} {path : Path}
    (leads : before.LeadsTo current path location) (grows : Grows before after) :
    after.LeadsTo current path location :=
  ⟨follow_grows grows leads.walk, grows _ _ leads.isDirectory⟩

/-- A path leads to one directory at most. -/
theorem LeadsTo.unique {tree : FileTree} {current location other : Location} {path : Path}
    (leads : tree.LeadsTo current path location) (leadsToo : tree.LeadsTo current path other) :
    location = other :=
  Except.ok.inj (leads.walk.symm.trans leadsToo.walk)

/-- The folder of a plain name is there or is made in the directory that the path leads to, unless
there is a file of that name. -/
theorem makeDirectories_join {tree : FileTree} {current location : Location} {directory : Path}
    {name : String} (plain : IsPlainName name) (leads : tree.LeadsTo current directory location)
    (good : checkPath (directory.join ⟨name⟩) = .ok ()) (fits : isName name.toList = true)
    (free : tree.kind? (location ++ [name]) ≠ some false) (steps : Nat) :
    ∃ made, makeDirectories current (steps + 1) tree (directory.join ⟨name⟩) = (made, .ok ()) ∧
      Grows tree made ∧ made.LeadsTo current (directory.join ⟨name⟩) (location ++ [name]) ∧
      made.entryAt = Function.update tree.entryAt (location ++ [name]) (some .directory) := by
  have leadsToFolder : ∀ {made : FileTree}, made.LeadsTo current directory location →
      made.kind? (location ++ [name]) = some true →
      made.LeadsTo current (directory.join ⟨name⟩) (location ++ [name]) := fun leads isFolder =>
    ⟨(walk_join_eq_ok plain).2 ⟨location, leads, fits, rfl, by rw [isFolder]; rfl⟩, isFolder⟩
  cases kind : tree.kind? (location ++ [name]) with
  | some isFolder =>
    obtain rfl : isFolder = true := by
      cases isFolder with
      | true => rfl
      | false => exact absurd kind free
    have folder := leadsToFolder leads kind
    refine ⟨tree, makeDirectories_of_leadsTo folder (fun _ => good) steps, refl_of _ tree, folder, ?_⟩
    rw [← kind?_eq_true.1 kind, Function.update_eq_self]
  | none =>
    obtain ⟨made, isMade, changed⟩ := makeDirectory_join plain leads good fits kind
    have grows := makeDirectory_grows isMade
    have isFolder : made.kind? (location ++ [name]) = some true :=
      kind?_eq_true.2 (by rw [changed, Function.update_self])
    refine ⟨made, ?_, grows, leadsToFolder (leads.grows grows) isFolder, changed⟩
    have proper : (directory.join ⟨name⟩).components.isEmpty = false := by
      simp [Path.components_join directory plain]
    rw [makeDirectories, proper, if_neg Bool.false_ne_true, isMade]

/-- A file of a plain name is written into the directory that the path leads to. -/
theorem writeBytes_join {tree : FileTree} {current location : Location} {directory : Path}
    {name : String} (plain : IsPlainName name) (leads : tree.LeadsTo current directory location)
    (good : checkPath (directory.join ⟨name⟩) = .ok ()) (fits : isName name.toList = true)
    (free : tree.kind? (location ++ [name]) ≠ some true) (contents : ByteArray) :
    ∃ written, tree.writeBytes current (directory.join ⟨name⟩) contents = .ok written ∧
      written.entryAt =
        Function.update tree.entryAt (location ++ [name]) (some (.file contents)) := by
  obtain ⟨entries, isThere⟩ := exists_directory leads.isDirectory
  exact ⟨tree.put (location ++ [name]) (file contents),
    writeBytes_eq_ok.2 ⟨_, newPlace_join plain leads good fits false, free, rfl⟩,
    entryAt_put isThere (fun _ _ => rfl) free⟩

end PhysicsPrefab.FileTree
