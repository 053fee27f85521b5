import PhysicsPrefab.Proofs.Files.Listing
import PhysicsPrefab.Proofs.Files.Places

/-!
# What lies below a directory

A path of plain names below a directory leads below the location of the directory and nowhere else
(`leadsTo_pathBelow`). The sources in a directory are all files below it with the right ending
(`Sources.mem_iff`). A file is read by what its place holds (`readText_congr`).
-/

namespace PhysicsPrefab

namespace FileTree

open Answer

variable {tree first second : FileTree} {current location : Location} {directory path : Path}

/-- A path below a directory leads below it. -/
theorem leadsTo_pathBelow {names : Location} (plain : ∀ name ∈ names, IsPlainName name)
    (proper : names ≠ []) (leads : tree.LeadsTo current (pathBelow directory names) location) :
    ∃ base, tree.LeadsTo current directory base ∧ location = base ++ names := by
  induction names using List.reverseRecOn generalizing location with
  | nil => contradiction
  | append_singleton rest name ih =>
    obtain ⟨restPlain, namePlain⟩ := List.forall_mem_append.1 plain
    have walks := leads.walk
    rw [pathBelow_concat, walk_join_eq_ok (namePlain name (List.mem_singleton_self _))] at walks
    obtain ⟨outer, above, -, rfl, -⟩ := walks
    cases rest with
    | nil => exact ⟨outer, above, rfl⟩
    | cons head tail =>
      obtain ⟨base, leadsBase, rfl⟩ := ih restPlain (List.cons_ne_nil _ _) above
      exact ⟨base, leadsBase, List.append_assoc ..⟩

/-- The first of some names below a directory can be joined last. -/
theorem pathBelow_cons (root : Path) {name : String} {names : Location}
    (plain : ∀ inner ∈ names, IsPlainName inner) :
    pathBelow root (name :: names) = root.join (pathBelow ⟨name⟩ names) :=
  pathBelow_join root ⟨name⟩ plain

/-- A file is read alike where its place holds the same. -/
theorem readText_congr (isFirst : first.place? current path = some location)
    (isSecond : second.place? current path = some location)
    (same : first.contents? location = second.contents? location)
    (isFile : (first.contents? location).isSome = true) :
    first.readText current path = second.readText current path := by
  obtain ⟨contents, holds⟩ := Option.isSome_iff_exists.1 isFile
  have firstThere := lookup_eq_ok_iff.2 ⟨isFirst, contents?_eq_some.1 holds⟩
  have secondThere := lookup_eq_ok_iff.2 ⟨isSecond, contents?_eq_some.1 (same ▸ holds)⟩
  rw [readText, readText, firstThere, secondThere]

end FileTree

namespace Sources

open FileTree

/-- A path of plain names below a directory is a source if the last of them ends as one. -/
theorem isSource_iff (directory : Path) {outer : Location} {name : String}
    (plain : ∀ inner ∈ outer ++ [name], IsPlainName inner) :
    isSource (pathBelow directory (outer ++ [name])) = true ↔
      ∃ stem, stem ≠ "" ∧ name = stem ++ ".json" := by
  have isName : (pathBelow directory (outer ++ [name])).fileName? = some name := by
    rw [Path.fileName?, components_pathBelow directory plain, List.map_append, ← List.append_assoc,
      List.map_singleton, List.getLast?_concat]
  rw [isSource, Path.extension?, isName, beq_iff_eq, Option.bind_eq_bind, Option.bind_some]
  dsimp only
  constructor
  · intro accepted
    split at accepted
    · rename_i first more rest
      have ending : name.toList.reverse.takeWhile (· ≠ '.') = "json".toList.reverse := by
        rw [← Option.some.inj accepted, String.toList_ofList, List.reverse_reverse]
      have parts := List.takeWhile_append_dropWhile (p := (· ≠ '.')) (l := name.toList.reverse)
      rw [ending, rest] at parts
      refine ⟨String.ofList (first :: more).reverse, fun none => ?_, String.toList_inj.1 ?_⟩
      · simpa using congrArg String.toList none
      · simpa using (congrArg List.reverse parts).symm
    · contradiction
  · rintro ⟨stem, proper, rfl⟩
    have reversed : (stem ++ ".json").toList.reverse =
        "nosj".toList ++ '.' :: stem.toList.reverse := by
      rw [String.toList_append, List.reverse_append]
      rfl
    have nonempty : stem.toList.reverse ≠ [] := by
      rw [Ne, List.reverse_eq_nil_iff]
      exact fun same => proper (String.toList_inj.1 same)
    obtain ⟨last, others, isLast⟩ := List.exists_cons_of_ne_nil nonempty
    rw [reversed, isLast]
    rfl

variable {tree : FileTree} {current base : Location} {directory : Path}

/-- The sources in a directory can be listed. -/
theorem exists_of_isDirectoryAt (isThere : tree.isDirectoryAt current directory = true) :
    ∃ sources, (tree.filesBelow current directory).map ofFiles = .ok sources := by
  rw [isDirectoryAt] at isThere
  rw [filesBelow]
  split at isThere
  · rename_i location found isFound
    rw [isFound]
    cases found with
    | file contents => cases isThere
    | directory entries => exact ⟨_, rfl⟩
  · cases isThere

/-- The sources in a directory are the files below it that end as such. -/
theorem mem_iff (wellFormed : tree.WellFormed) (leads : tree.LeadsTo current directory base)
    {sources : List Path} (found : (tree.filesBelow current directory).map ofFiles = .ok sources)
    {source : Path} :
    source ∈ sources ↔ ∃ names, source = pathBelow directory names ∧ isSource source = true ∧
      (tree.contents? (base ++ names)).isSome = true := by
  obtain ⟨other, entries, isThere, rfl⟩ := exists_of_filesBelow found
  obtain ⟨-, otherLeads, held⟩ := lookup_eq_ok.1 isThere
  obtain rfl : base = other := leads.unique ⟨otherLeads, by rw [kind?, held]; rfl⟩
  rw [ofFiles, List.mem_mergeSort, List.mem_filter, List.mem_map]
  constructor
  · rintro ⟨⟨names, isFile, rfl⟩, accepted⟩
    rw [(wellFormed.of_get? held).mem_files, contents?_of_get? held] at isFile
    exact ⟨names, rfl, accepted, isFile⟩
  · rintro ⟨names, rfl, accepted, isFile⟩
    refine ⟨⟨names, ?_, rfl⟩, accepted⟩
    rwa [(wellFormed.of_get? held).mem_files, contents?_of_get? held]

end Sources

end PhysicsPrefab
