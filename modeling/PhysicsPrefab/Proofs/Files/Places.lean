import PhysicsPrefab.Proofs.Files.Listing

/-!
# Places

The place of a path is the location that it leads to, after dots are resolved. Places stay when a
tree grows (`place?_grows`), and when a file is removed that they are not the place of
(`place?_of_directories`). Absolute paths tell places apart (`absolutePath_injOn`), as all names
that lead to a place are plain (`plain_of_place?`).
-/

namespace PhysicsPrefab.FileTree

open Answer

/-- The location that a path leads to, if there is something. -/
def place? (tree : FileTree) (current : Location) (path : Path) : Option Location :=
  (tree.resolve current path).toOption

variable {tree before after : FileTree} {current location : Location} {path : Path}

/-- A path has a place if it is a good one and its parts lead to the place. -/
theorem place?_eq_some :
    tree.place? current path = some location ↔
      checkPath path = .ok () ∧ tree.walk current path = .ok location := by
  have resolved : tree.resolve current path =
      (checkPath path).bind fun _ => tree.walk current path := rfl
  rw [place?, resolved]
  cases checkPath path with
  | error fault => simp [Except.bind, Except.toOption]
  | ok _ => cases tree.walk current path <;> simp [Except.bind, Except.toOption]

/-- What a path leads to is in its place. -/
theorem lookup_eq_ok_iff {found : FileTree} :
    tree.lookup current path = .ok (location, found) ↔
      tree.place? current path = some location ∧ tree.get? location = some found := by
  rw [lookup_eq_ok, place?_eq_some, and_assoc]
  rfl

/-- A path leads to a file if there is one in its place. -/
theorem isFileAt_iff_place? :
    tree.isFileAt current path = true ↔
      ∃ location, tree.place? current path = some location ∧
        (tree.contents? location).isSome = true := by
  simp only [isFileAt_iff, place?_eq_some, isSome_contents?, and_assoc, exists_and_left]

/-- Places are the same in trees that are. -/
theorem Same.place? (same : Same before after) (current : Location) (path : Path) :
    before.place? current path = after.place? current path := by
  rw [FileTree.place?, FileTree.place?, same.resolve]

/-- A place stays when the tree grows. -/
theorem place?_grows (grows : Grows before after)
    (leads : before.place? current path = some location) :
    after.place? current path = some location := by
  rw [place?_eq_some] at leads ⊢
  exact ⟨leads.1, follow_grows grows leads.2⟩

/-- A part leads to the same location if there still is a directory and something there. -/
theorem step_of_directory {start next : Location} {piece : List Char}
    (isDirectory : after.kind? start = some true) (isThere : (after.kind? next).isSome = true)
    (leads : before.step start piece = .ok next) : after.step start piece = .ok next := by
  obtain ⟨former, wasThere⟩ := exists_directory (step_spec leads)
  obtain ⟨entries, held⟩ := exists_directory isDirectory
  rw [step, wasThere] at leads
  rw [step, held]
  dsimp only at leads ⊢
  split at leads
  · exact leads
  · exact leads
  · exact leads
  · split at leads
    · contradiction
    · rename_i fits
      rw [if_neg fits, child?_eq held]
      split at leads
      · contradiction
      · obtain rfl := Except.ok.inj leads
        obtain ⟨sub, isSub⟩ := Option.isSome_iff_exists.1 (Option.isSome_map.symm.trans isThere)
        rw [isSub]

/-- Parts lead to the same location if all directories stay and there still is something there. -/
theorem follow_of_directories {pieces : List (List Char)} {start : Location}
    (stay : ∀ location, before.kind? location = some true → after.kind? location = some true)
    (isThere : (after.kind? location).isSome = true)
    (leads : before.follow start pieces = .ok location) :
    after.follow start pieces = .ok location := by
  induction pieces generalizing start with
  | nil => exact leads
  | cons piece rest ih =>
    rw [follow_cons, bind_eq_ok] at leads
    obtain ⟨next, step, leads⟩ := leads
    have nextThere : (after.kind? next).isSome = true := by
      cases rest with
      | nil => exact Except.ok.inj leads ▸ isThere
      | cons second more =>
        rw [follow_cons, bind_eq_ok] at leads
        obtain ⟨_, further, -⟩ := leads
        rw [stay next (step_spec further)]
        rfl
    rw [follow_cons, step_of_directory (stay _ (step_spec step)) nextThere step]
    exact ih leads

/-- A place stays if all directories do and there still is something there. -/
theorem place?_of_directories
    (stay : ∀ location, before.kind? location = some true → after.kind? location = some true)
    (isThere : (after.kind? location).isSome = true)
    (leads : before.place? current path = some location) :
    after.place? current path = some location := by
  rw [place?_eq_some] at leads ⊢
  exact ⟨leads.1, follow_of_directories stay isThere leads.2⟩

/-- Parts lead to a location with plain names if they start at one. -/
theorem plain_of_follow {pieces : List (List Char)} {start : Location}
    (noSlash : ∀ piece ∈ pieces, '/' ∉ piece) (plain : ∀ name ∈ start, IsPlainName name)
    (leads : tree.follow start pieces = .ok location) : ∀ name ∈ location, IsPlainName name := by
  induction pieces generalizing start with
  | nil => exact Except.ok.inj leads ▸ plain
  | cons piece rest ih =>
    obtain ⟨pieceNoSlash, restNoSlash⟩ := List.forall_mem_cons.1 noSlash
    rw [follow_cons, bind_eq_ok] at leads
    obtain ⟨next, step, leads⟩ := leads
    refine ih restNoSlash ?_ leads
    obtain ⟨entries, held⟩ := exists_directory (step_spec step)
    rw [FileTree.step, held] at step
    dsimp only at step
    split at step
    · exact Except.ok.inj step ▸ plain
    · exact Except.ok.inj step ▸ plain
    · exact Except.ok.inj step ▸ fun name member => plain name (List.dropLast_subset _ member)
    · rename_i nonempty noDot noDots
      split at step
      · contradiction
      · split at step
        · contradiction
        · obtain rfl := Except.ok.inj step
          refine List.forall_mem_append.2 ⟨plain, List.forall_mem_singleton.2 ?_⟩
          constructor <;> rw [String.toList_ofList] <;> assumption

/-- All names that lead to a place are plain. -/
theorem plain_of_place? (plain : ∀ name ∈ current, IsPlainName name)
    (leads : tree.place? current path = some location) : ∀ name ∈ location, IsPlainName name := by
  have noSlash : ∀ piece ∈ (startOf current path).2, '/' ∉ piece := by
    intro piece member
    rw [startOf_eq, startFrom] at member
    split at member
    · exact Path.slash_not_mem_of_mem_pieces (List.mem_of_mem_tail member)
    · exact Path.slash_not_mem_of_mem_pieces member
  refine plain_of_follow noSlash ?_ (place?_eq_some.1 leads).2
  rw [startOf_eq, startFrom]
  split
  · exact List.forall_mem_nil _
  · exact plain

/-- The names of a location can be read off its absolute path. -/
theorem splitOn_absolutePath (plain : ∀ name ∈ location, IsPlainName name)
    (proper : location ≠ []) :
    (absolutePath location).text.toList.splitOn '/' = [] :: location.map String.toList := by
  have text : (absolutePath location).text.toList =
      ['/'].intercalate ([] :: location.map String.toList) := by
    rw [List.intercalate_cons_of_ne_nil (by simpa using proper), absolutePath, String.toList_append,
      String.toList_intercalate]
    rfl
  rw [text, List.splitOn_intercalate]
  · refine List.forall_mem_cons.2 ⟨List.not_mem_nil, fun piece member => ?_⟩
    obtain ⟨name, isName, rfl⟩ := List.mem_map.1 member
    exact (plain name isName).noSlash
  · simp

/-- Different locations have different absolute paths. -/
theorem absolutePath_injOn {other : Location} (plain : ∀ name ∈ location, IsPlainName name)
    (proper : location ≠ []) (otherPlain : ∀ name ∈ other, IsPlainName name)
    (otherProper : other ≠ []) (same : absolutePath location = absolutePath other) :
    location = other := by
  have parts := congrArg (·.text.toList.splitOn '/') same
  rw [splitOn_absolutePath plain proper, splitOn_absolutePath otherPlain otherProper] at parts
  exact List.map_injective_iff.2 (fun _ _ => String.toList_inj.1) (List.cons.inj parts).2

end PhysicsPrefab.FileTree
