import PhysicsPrefab.Proofs.Files.Listing

/-!
# Trees stay well-formed

Making directories, writing files and removing them keeps a tree well-formed
(`makeDirectories_wellFormed`, `writeBytes_wellFormed`, `removeFile_wellFormed`): what is new has a
plain name that no other entry has, and an entry that is replaced keeps its name.
-/

namespace PhysicsPrefab.FileTree

/-- An entry that is put is new or was there before. -/
theorem mem_putEntry {name : String} {new : FileTree} {entries : List (String × FileTree)}
    {entry : String × FileTree} (member : entry ∈ putEntry name new entries) :
    entry = (name, new) ∨ entry ∈ entries := by
  induction entries with
  | nil => exact .inl (List.mem_singleton.1 member)
  | cons first rest ih =>
    rw [putEntry] at member
    split at member
    · exact (List.mem_cons.1 member).imp_right (List.mem_cons_of_mem _)
    · rcases List.mem_cons.1 member with rfl | later
      · exact .inr List.mem_cons_self
      · exact (ih later).imp_right (List.mem_cons_of_mem _)

/-- Putting an entry keeps the names different. -/
theorem putEntry_nodup {name : String} {new : FileTree} {entries : List (String × FileTree)}
    (distinct : (entries.map (·.1)).Nodup) : ((putEntry name new entries).map (·.1)).Nodup := by
  induction entries with
  | nil => exact List.nodup_singleton _
  | cons first rest ih =>
    obtain ⟨isNew, restDistinct⟩ := List.nodup_cons.1 distinct
    rw [putEntry]
    split
    · rename_i same
      exact List.nodup_cons.2 ⟨same ▸ isNew, restDistinct⟩
    · rename_i different
      refine List.nodup_cons.2 ⟨fun member => ?_, ih restDistinct⟩
      obtain ⟨entry, isEntry, same⟩ := List.mem_map.1 member
      rcases mem_putEntry isEntry with rfl | before
      · exact different same.symm
      · exact isNew (List.mem_map.2 ⟨entry, before, same⟩)

variable {tree new before after : FileTree} {locked : List Location} {current location : Location}
  {path : Path}

/-- A directory stays well-formed when a well-formed entry with a plain name is put into it. -/
theorem WellFormed.putEntry {entries : List (String × FileTree)} {name : String}
    (formed : (FileTree.directory entries).WellFormed) (plain : IsPlainName name)
    (newFormed : new.WellFormed) :
    (FileTree.directory (FileTree.putEntry name new entries)).WellFormed := by
  cases formed with
  | directory distinct plainEntries each =>
    refine .directory (putEntry_nodup distinct) (fun entry member => ?_) fun entry member => ?_
    · rcases mem_putEntry member with rfl | before
      · exact plain
      · exact plainEntries entry before
    · rcases mem_putEntry member with rfl | before
      · exact newFormed
      · exact each entry before

/-- A tree stays well-formed when something well-formed is put at a location with a plain name at
its end. -/
theorem WellFormed.put (formed : tree.WellFormed) (plain : ∀ name ∈ location.getLast?, IsPlainName name)
    (newFormed : new.WellFormed) : (tree.put location new).WellFormed := by
  fun_induction tree.put location new with
  | case1 => exact newFormed
  | case2 => exact formed
  | case3 entries name new => exact formed.putEntry (plain name rfl) newFormed
  | case4 entries name next rest new found isFound ih =>
    have isThere : (FileTree.directory entries).get? [name] = some found := by
      rw [get?_cons, isFound]
      rfl
    refine formed.putEntry (formed.plain (by rw [kind?, isThere]; rfl) name
      List.mem_cons_self) (ih (formed.of_get? isThere) ?_ newFormed)
    simpa [List.getLast?_cons_cons] using plain
  | case5 => exact formed

/-- A tree stays well-formed when something is erased. -/
theorem WellFormed.erase (formed : tree.WellFormed) : (tree.erase location).WellFormed := by
  fun_induction tree.erase location with
  | case1 => exact formed
  | case2 => exact formed
  | case3 entries name =>
    cases formed with
    | directory distinct plain each =>
      have kept := List.filter_sublist (p := fun entry => entry.1 != name) (l := entries)
      exact .directory (distinct.sublist (kept.map _)) (fun entry member => plain entry
        (kept.subset member)) fun entry member => each entry (kept.subset member)
  | case4 entries name next rest found isFound ih =>
    have isThere : (FileTree.directory entries).get? [name] = some found := by
      rw [get?_cons, isFound]
      rfl
    exact formed.putEntry (formed.plain (by rw [kind?, isThere]; rfl) name
      List.mem_cons_self) (ih (formed.of_get? isThere))
  | case5 => exact formed

/-- The name at the end of the place of something new is plain. -/
theorem plain_of_newPlace {slash : Bool} (placed : tree.newPlace current path slash = .ok location) :
    ∀ name ∈ location.getLast?, IsPlainName name := by
  obtain ⟨outer, last, directory, entries, place⟩ := newPlace_spec placed
  have isPiece : last ∈ (startOf current path).2 := by
    refine List.mem_reverse.1 ((List.dropWhile_sublist List.isEmpty).subset ?_)
    rw [place.split]
    exact List.mem_cons_self
  have noSlash : '/' ∉ last := by
    unfold startOf at isPiece
    split at isPiece
    · exact Path.slash_not_mem_of_mem_pieces (List.mem_of_mem_tail isPiece)
    · exact Path.slash_not_mem_of_mem_pieces isPiece
  intro name isLast
  rw [place.location_eq, List.getLast?_concat] at isLast
  obtain rfl := Option.some.inj isLast
  constructor <;> rw [String.toList_ofList]
  · exact place.nonempty
  · exact place.noDot
  · exact place.noDots
  · exact noSlash

/-- A tree stays well-formed when a directory is made. -/
theorem makeDirectory_wellFormed (formed : before.WellFormed)
    (made : before.makeDirectory current path = .ok after) : after.WellFormed := by
  obtain ⟨location, placed, -, rfl⟩ := makeDirectory_eq_ok.1 made
  exact formed.put (plain_of_newPlace placed)
    (.directory List.nodup_nil (List.forall_mem_nil _) (List.forall_mem_nil _))

/-- A tree stays well-formed when directories are made, also when not all of them can be made. -/
theorem makeDirectories_wellFormed (current : Location) (steps : Nat) (formed : tree.WellFormed)
    (path : Path) : (makeDirectories current steps tree path).1.WellFormed := by
  have : IsPreorder FileTree fun before after => before.WellFormed → after.WellFormed :=
    { refl := fun _ => id, trans := fun _ _ _ earlier later => later ∘ earlier }
  exact makeDirectories_keeps (fun before after => before.WellFormed → after.WellFormed)
    (fun made formed => makeDirectory_wellFormed formed made) steps tree path formed

/-- A tree stays well-formed when a file is written. -/
theorem writeBytes_wellFormed {contents : ByteArray} (formed : before.WellFormed)
    (written : before.writeBytes current path contents = .ok after) : after.WellFormed := by
  obtain ⟨location, placed, -, rfl⟩ := writeBytes_eq_ok.1 written
  exact formed.put (plain_of_newPlace placed) (.file contents)

/-- A tree stays well-formed when a file is removed. -/
theorem removeFile_wellFormed (formed : before.WellFormed)
    (removed : before.removeFile locked current path = .ok after) : after.WellFormed := by
  obtain ⟨location, contents, -, -, rfl⟩ := removeFile_eq_ok.1 removed
  exact formed.erase

/-- Directories stay when a file is removed. -/
theorem removeFile_directory (removed : before.removeFile locked current path = .ok after)
    (isDirectory : before.kind? location = some true) : after.kind? location = some true := by
  obtain ⟨place, contents, isThere, isFree, -⟩ := removeFile_eq_ok.1 removed
  obtain ⟨tree, isTree, entries⟩ := removeFile_entryAt isThere isFree
  obtain rfl := Except.ok.inj (isTree.symm.trans removed)
  have apart : location ≠ place := by
    rintro rfl
    rw [kind?, (lookup_eq_ok.1 isThere).2.2] at isDirectory
    exact Bool.false_ne_true (Option.some.inj isDirectory)
  rw [kind?_eq_true] at isDirectory ⊢
  rw [entries, Function.update_of_ne apart, isDirectory]

end PhysicsPrefab.FileTree
