import PhysicsPrefab.Proofs.Files.Places
import PhysicsPrefab.Proofs.Project.Compiling
import PhysicsPrefab.Proofs.Project.Planning
import PhysicsPrefab.Proofs.Project.Writing

/-!
# Removing sources

The sources of a plan are different files (`Prepared.differentFiles`), and stay so when artifacts
are written. So they are removed, except those whose place is one of an output, unless one of them
is locked: then that stops it, and those before it are gone (`removePlanned_spec`). Nothing else
changes.
-/

namespace PhysicsPrefab.Run

open Program FileTree

variable {disk : Disk}

/-- The absolute path of the place of a path, or the path itself if there is nothing. -/
def placeOf (disk : Disk) (path : Path) : Path :=
  ((disk.tree.place? disk.current path).map absolutePath).getD path

/-- Finding a place leaves the disk as it is. -/
theorem place_spec (path : Path) (disk : Disk) :
    value (place path : OnDisk Path) disk = placeOf disk path ∧
      final (place path : OnDisk Path) disk = disk := by
  refine ⟨?_, rfl⟩
  rw [place, value_bind, value_pure, placeOf, place?]
  simp only [value, Storage.canonical]
  cases disk.tree.resolve disk.current path <;> rfl

/-- Finding places leaves the disk as it is. -/
theorem mapM_place_spec (paths : List Path) (disk : Disk) :
    value (paths.mapM place : OnDisk (List Path)) disk = paths.map (placeOf disk) ∧
      final (paths.mapM place : OnDisk (List Path)) disk = disk := by
  induction paths with
  | nil => exact ⟨rfl, rfl⟩
  | cons path rest ih =>
    obtain ⟨first, stays⟩ := place_spec path disk
    rw [List.mapM_cons, List.map_cons, value_bind, final_bind, value_bind, final_bind, first, stays,
      ih.1, ih.2]
    exact ⟨rfl, rfl⟩

/-- A path leads to a place from which nothing can be removed. -/
def IsLocked (disk : Disk) (path : Path) : Prop :=
  ∃ location ∈ disk.locked, disk.tree.place? disk.current path = some location

/-- A path is locked if its place is. -/
theorem isLocked_iff {path : Path} {location : Location}
    (leads : disk.tree.place? disk.current path = some location) :
    IsLocked disk path ↔ location ∈ disk.locked := by
  constructor
  · rintro ⟨other, isLocked, same⟩
    obtain rfl := Option.some.inj (leads.symm.trans same)
    exact isLocked
  · exact fun isLocked => ⟨location, isLocked, leads⟩

/-- A path with the same place is locked as well, if the same files are. -/
theorem isLocked_congr {other : Disk} (locked : other.locked = disk.locked) {path : Path}
    (place : other.tree.place? other.current path = disk.tree.place? disk.current path) :
    IsLocked other path ↔ IsLocked disk path := by
  rw [IsLocked, IsLocked, locked, place]

/-- Different files that are there on a disk. -/
structure DifferentFiles (disk : Disk) (paths : List Path) : Prop where
  /-- There is a file at each. -/
  isFile : ∀ path ∈ paths, disk.tree.isFileAt disk.current path = true
  /-- They have different places. -/
  distinct : (paths.map (disk.tree.place? disk.current)).Nodup

/-- Some of different files are different files. -/
theorem DifferentFiles.sublist {paths some : List Path} (files : DifferentFiles disk paths)
    (sublist : some.Sublist paths) : DifferentFiles disk some :=
  ⟨fun path member => files.isFile path (sublist.subset member),
    files.distinct.sublist (sublist.map _)⟩

/-- Different files stay so while something is told. -/
theorem DifferentFiles.told {paths : List Path} {told : Disk} (files : DifferentFiles disk paths)
    (silent : Disk.Silent disk told) : DifferentFiles told paths := by
  constructor
  · rw [silent.tree, silent.current]
    exact files.isFile
  · rw [silent.tree, silent.current]
    exact files.distinct

/-- The sources that are removed: those whose place is not one of an output. -/
def removedOf (disk : Disk) (outputs sources : List Path) : List Path :=
  sources.filter fun source => !outputs.contains (placeOf disk source)

/-- What is left after files were removed. -/
structure Removed (before after : Disk) (paths : List Path) : Prop where
  /-- Only the files are gone. -/
  entries : ∀ location, after.tree.entryAt location =
    if some location ∈ paths.map (before.tree.place? before.current) then none
    else before.tree.entryAt location
  /-- Paths start at the same place. -/
  current : after.current = before.current
  /-- The same files cannot be removed. -/
  locked : after.locked = before.locked

/-- Nothing is removed if the tree is as it was. -/
theorem Removed.nothing {before after : Disk} (tree : after.tree = before.tree)
    (current : after.current = before.current) (locked : after.locked = before.locked) :
    Removed before after [] := by
  refine ⟨fun location => ?_, current, locked⟩
  rw [List.map_nil, if_neg List.not_mem_nil, tree]

/-- Only the files that were removed are gone. -/
theorem Removed.contents?_eq {before after : Disk} {paths : List Path}
    (removed : Removed before after paths) (location : Location) :
    after.tree.contents? location =
      if some location ∈ paths.map (before.tree.place? before.current) then none
      else before.tree.contents? location := by
  rw [contents?, removed.entries]
  split <;> rfl

/-- A file that was not removed stays in its place. -/
theorem Removed.stays {before after : Disk} {paths : List Path}
    (removed : Removed before after paths)
    (files : ∀ path ∈ paths, before.tree.isFileAt before.current path = true) {path : Path}
    (isFile : before.tree.isFileAt before.current path = true)
    (apart : before.tree.place? before.current path ∉
      paths.map (before.tree.place? before.current)) :
    after.tree.isFileAt after.current path = true ∧
      after.tree.place? after.current path = before.tree.place? before.current path := by
  obtain ⟨location, leads, isFile⟩ := isFileAt_iff_place?.1 isFile
  rw [leads] at apart ⊢
  have stays : after.tree.place? after.current path = some location := by
    rw [removed.current]
    refine place?_of_directories (fun other isDirectory => ?_) ?_ leads
    · rw [kind?_eq_true] at isDirectory ⊢
      rw [removed.entries, if_neg, isDirectory]
      intro member
      obtain ⟨gone, isGone, place⟩ := List.mem_map.1 member
      obtain ⟨_, wasPlace, isFile⟩ := isFileAt_iff_place?.1 (files gone isGone)
      obtain rfl := Option.some.inj (wasPlace.symm.trans place)
      simp [contents?, isDirectory, Entry.contents?] at isFile
    · rw [isSome_kind?, removed.entries, if_neg apart]
      exact Option.isSome_of_isSome_bind isFile
  refine ⟨isFileAt_iff_place?.2 ⟨location, stays, ?_⟩, stays⟩
  rw [removed.contents?_eq, if_neg apart]
  exact isFile

/-- Removing a file leaves other files and their places as they are. -/
theorem DifferentFiles.tail {source : Path} {rest : List Path} {after : Disk}
    (files : DifferentFiles disk (source :: rest)) (removed : Removed disk after [source]) :
    DifferentFiles after rest ∧
      ∀ path ∈ rest, after.tree.place? after.current path = disk.tree.place? disk.current path := by
  obtain ⟨sourceFile, restFiles⟩ := List.forall_mem_cons.1 files.isFile
  obtain ⟨isNew, restDistinct⟩ := List.nodup_cons.1 files.distinct
  have stay : ∀ path ∈ rest, after.tree.isFileAt after.current path = true ∧
      after.tree.place? after.current path = disk.tree.place? disk.current path := by
    intro path member
    refine removed.stays (List.forall_mem_singleton.2 sourceFile) (restFiles path member) ?_
    rw [List.map_singleton, List.mem_singleton]
    exact fun same => isNew (same ▸ List.mem_map_of_mem member)
  refine ⟨⟨fun path member => (stay path member).1, ?_⟩, fun path member => (stay path member).2⟩
  rw [List.map_congr_left fun path member => (stay path member).2]
  exact restDistinct

/-- A file that is there is removed, unless it is locked: then nothing happens. -/
theorem removeFile_spec {source : Path}
    (isFile : disk.tree.isFileAt disk.current source = true) :
    let outcome := value (Storage.removeFile source : OnDisk (Except StorageFault Unit)) disk
    let after := final (Storage.removeFile source : OnDisk (Except StorageFault Unit)) disk
    (IsLocked disk source → outcome = .error .denied ∧ Removed disk after []) ∧
      (¬ IsLocked disk source → outcome = .ok () ∧ Removed disk after [source]) := by
  intro outcome after
  obtain ⟨location, leads, isFile⟩ := isFileAt_iff_place?.1 isFile
  obtain ⟨contents, isContents⟩ := Option.isSome_iff_exists.1 isFile
  have isThere := lookup_eq_ok_iff.2 ⟨leads, contents?_eq_some.1 isContents⟩
  have lockedAt : IsLocked disk source ↔ location ∈ disk.locked := isLocked_iff leads
  have run : (outcome, after) = (disk.note (.remove source)).update
      (disk.tree.removeFile disk.locked disk.current source) := rfl
  constructor
  · intro isLocked
    rw [removeFile_denied isThere (lockedAt.1 isLocked)] at run
    obtain ⟨isOutcome, isAfter⟩ := Prod.mk.inj run
    exact ⟨isOutcome, isAfter ▸ .nothing rfl rfl rfl⟩
  · intro isFree
    obtain ⟨tree, isRemoved, changed⟩ := removeFile_entryAt isThere (isFree ∘ lockedAt.2)
    rw [isRemoved] at run
    obtain ⟨isOutcome, isAfter⟩ := Prod.mk.inj run
    refine ⟨isOutcome, isAfter ▸ ⟨fun other => ?_, rfl, rfl⟩⟩
    show tree.entryAt other = _
    simp only [changed, Function.update_apply, List.map_singleton, List.mem_singleton, leads,
      Option.some.injEq]

/-- Files that are removed one after the other are removed. -/
theorem Removed.cons {source : Path} {rest : List Path} {middle after : Disk}
    (first : Removed disk middle [source]) (others : Removed middle after rest)
    (places : ∀ path ∈ rest,
      middle.tree.place? middle.current path = disk.tree.place? disk.current path) :
    Removed disk after (source :: rest) := by
  refine ⟨fun location => ?_, others.current.trans first.current,
    others.locked.trans first.locked⟩
  rw [others.entries, first.entries, List.map_congr_left places]
  by_cases isFirst : some location = disk.tree.place? disk.current source <;> simp [isFirst]

/-- What comes of files that are to be removed one after the other: they are all gone, or the first
of them that is locked stops it, and only those before it are gone. -/
inductive Removal (before after : Disk) : List Path → Except RunError (List Path) → Prop where
  /-- All are gone. -/
  | all {files : List Path} (free : ∀ path ∈ files, ¬ IsLocked before path)
      (removed : Removed before after files) : Removal before after files (.ok files)
  /-- One is locked. -/
  | denied {gone later : List Path} {source : Path} (free : ∀ path ∈ gone, ¬ IsLocked before path)
      (isLocked : IsLocked before source) (removed : Removed before after gone) :
      Removal before after (gone ++ source :: later) (.error (.storage source .denied))

/-- What is told before changes nothing. -/
theorem Removal.earlier {told after : Disk} {files : List Path}
    {outcome : Except RunError (List Path)} (silent : Disk.Silent disk told)
    (removal : Removal told after files outcome) : Removal disk after files outcome := by
  have place : ∀ path, told.tree.place? told.current path = disk.tree.place? disk.current path := by
    intro path
    rw [silent.tree, silent.current]
  have sameLocked : ∀ path, IsLocked told path ↔ IsLocked disk path := fun path =>
    isLocked_congr silent.locked (place path)
  have sameRemoved : ∀ {gone}, Removed told after gone → Removed disk after gone := by
    intro gone removed
    refine ⟨fun location => ?_, removed.current.trans silent.current,
      removed.locked.trans silent.locked⟩
    rw [removed.entries, silent.tree, silent.current]
  cases removal with
  | all free removed =>
    exact .all (fun path member => (sameLocked path).not.1 (free path member)) (sameRemoved removed)
  | denied free isLocked removed =>
    exact .denied (fun path member => (sameLocked path).not.1 (free path member))
      ((sameLocked _).1 isLocked) (sameRemoved removed)

/-- What is told after changes nothing. -/
theorem Removal.later {told after : Disk} {files : List Path}
    {outcome : Except RunError (List Path)} (removal : Removal disk after files outcome)
    (silent : Disk.Silent after told) : Removal disk told files outcome := by
  have sameRemoved : ∀ {gone}, Removed disk after gone → Removed disk told gone := by
    intro gone removed
    refine ⟨fun location => ?_, silent.current.trans removed.current,
      silent.locked.trans removed.locked⟩
    rw [silent.tree, removed.entries]
  cases removal with
  | all free removed => exact .all free (sameRemoved removed)
  | denied free isLocked removed => exact .denied free isLocked (sameRemoved removed)

/-- A file is removed before others. -/
theorem Removal.cons {source : Path} {files : List Path} {middle after : Disk}
    {outcome : Except RunError (List Path)} (isFree : ¬ IsLocked disk source)
    (first : Removed disk middle [source])
    (places : ∀ path ∈ files,
      middle.tree.place? middle.current path = disk.tree.place? disk.current path)
    (removal : Removal middle after files outcome) :
    Removal disk after (source :: files) (outcome.map (source :: ·)) := by
  have sameLocked : ∀ path ∈ files, (IsLocked middle path ↔ IsLocked disk path) :=
    fun path member => isLocked_congr first.locked (places path member)
  cases removal with
  | all free removed =>
    refine .all (List.forall_mem_cons.2 ⟨isFree, fun path member => ?_⟩)
      (first.cons removed places)
    exact (sameLocked path member).not.1 (free path member)
  | @denied gone later stopper free isLocked removed =>
    have inGone : ∀ {path}, path ∈ gone → path ∈ gone ++ stopper :: later :=
      List.mem_append_left _
    rw [← List.cons_append]
    refine .denied (List.forall_mem_cons.2 ⟨isFree, fun path member => ?_⟩) ?_
      (first.cons removed fun path member => places path (inGone member))
    · exact (sameLocked path (inGone member)).not.1 (free path member)
    · exact (sameLocked _ (List.mem_append_right _ List.mem_cons_self)).1 isLocked

/-- The same sources are removed where they have the same places. -/
theorem removedOf_congr {other : Disk} (outputs : List Path) {sources : List Path}
    (places : ∀ path ∈ sources,
      other.tree.place? other.current path = disk.tree.place? disk.current path) :
    removedOf other outputs sources = removedOf disk outputs sources := by
  refine List.filter_congr fun path member => ?_
  have place : placeOf other path = placeOf disk path :=
    congrArg (fun place => (place.map absolutePath).getD path) (places path member)
  rw [place]

section

variable {outputs rest : List Path} {source : Path}

/-- A source in the place of an output is passed over, and told of. -/
theorem removeSources_passes (kept : outputs.contains (placeOf disk source) = true) :
    ∃ told, Disk.Silent disk told ∧
      value (removeSources outputs (source :: rest) : Step OnDisk (List Path)).run disk =
        value (removeSources outputs rest : Step OnDisk (List Path)).run told ∧
      final (removeSources outputs (source :: rest) : Step OnDisk (List Path)).run disk =
        final (removeSources outputs rest : Step OnDisk (List Path)).run told := by
  obtain ⟨isPlace, stays⟩ := place_spec source disk
  rw [removeSources, (run_lift_bind disk _ _).1, (run_lift_bind disk _ _).2, isPlace, stays,
    if_pos kept]
  exact ⟨_, Disk.tell_silent _ disk, rfl, rfl⟩

/-- At a source that cannot be removed the run fails. -/
theorem removeSources_stops (free : outputs.contains (placeOf disk source) = false)
    (isDenied : value (Storage.removeFile source : OnDisk (Except StorageFault Unit)) disk =
      .error .denied) :
    value (removeSources outputs (source :: rest) : Step OnDisk (List Path)).run disk =
        .error (.storage source .denied) ∧
      final (removeSources outputs (source :: rest) : Step OnDisk (List Path)).run disk =
        final (Storage.removeFile source : OnDisk (Except StorageFault Unit)) disk := by
  obtain ⟨isPlace, stays⟩ := place_spec source disk
  have stops : value (attempt (.storage source) (Storage.removeFile source) :
      Step OnDisk Unit).run disk = .error (.storage source .denied) :=
    congrArg (Except.mapError (RunError.storage source)) isDenied
  rw [removeSources, (run_lift_bind disk _ _).1, (run_lift_bind disk _ _).2, isPlace, stays,
    if_neg (Bool.eq_false_iff.1 free), (run_bind_error _ _ disk stops).1,
    (run_bind_error _ _ disk stops).2]
  exact ⟨rfl, rfl⟩

/-- A source that was removed is told of and comes before the others. -/
theorem removeSources_removes (free : outputs.contains (placeOf disk source) = false)
    (isRemoved : value (Storage.removeFile source : OnDisk (Except StorageFault Unit)) disk =
      .ok ()) :
    ∃ told, Disk.Silent
        (final (Storage.removeFile source : OnDisk (Except StorageFault Unit)) disk) told ∧
      value (removeSources outputs (source :: rest) : Step OnDisk (List Path)).run disk =
        (value (removeSources outputs rest : Step OnDisk (List Path)).run told).map (source :: ·) ∧
      final (removeSources outputs (source :: rest) : Step OnDisk (List Path)).run disk =
        final (removeSources outputs rest : Step OnDisk (List Path)).run told := by
  obtain ⟨isPlace, stays⟩ := place_spec source disk
  have gone : value (attempt (.storage source) (Storage.removeFile source) :
      Step OnDisk Unit).run disk = .ok () := value_attempt.2 isRemoved
  rw [removeSources, (run_lift_bind disk _ _).1, (run_lift_bind disk _ _).2, isPlace, stays,
    if_neg (Bool.eq_false_iff.1 free), (run_bind_ok _ _ disk gone).1, (run_bind_ok _ _ disk gone).2]
  exact ⟨_, Disk.tell_silent _ _, run_bind_pure _ _ _⟩

end

/-- Sources that are different files are removed, except those whose place is one of an output. -/
theorem removeSources_spec (outputs : List Path) {sources : List Path}
    (files : DifferentFiles disk sources) :
    Removal disk (final (removeSources outputs sources : Step OnDisk (List Path)).run disk)
      (removedOf disk outputs sources)
      (value (removeSources outputs sources : Step OnDisk (List Path)).run disk) := by
  induction sources generalizing disk with
  | nil => exact .all (List.forall_mem_nil _) (.nothing rfl rfl rfl)
  | cons source rest ih =>
    cases kept : outputs.contains (placeOf disk source) with
    | true =>
      obtain ⟨told, silent, isValue, isFinal⟩ := removeSources_passes kept
      have others : DifferentFiles told rest := (files.sublist (List.sublist_cons_self _ _)).told silent
      have sameRest : removedOf told outputs rest = removedOf disk outputs rest :=
        removedOf_congr outputs fun path _ => by rw [silent.tree, silent.current]
      have removal := (ih others).earlier silent
      have same : removedOf disk outputs (source :: rest) = removedOf disk outputs rest :=
        List.filter_cons_of_neg (by simpa using kept)
      rw [isValue, isFinal, same, ← sameRest]
      exact removal
    | false =>
      have same : removedOf disk outputs (source :: rest) = source :: removedOf disk outputs rest :=
        List.filter_cons_of_pos (by simpa using kept)
      obtain ⟨ifLocked, ifFree⟩ := removeFile_spec (files.isFile source List.mem_cons_self)
      by_cases isLocked : IsLocked disk source
      · obtain ⟨isDenied, untouched⟩ := ifLocked isLocked
        obtain ⟨isValue, isFinal⟩ := removeSources_stops kept isDenied
        rw [isValue, isFinal, same]
        exact @Removal.denied _ _ [] _ _ (List.forall_mem_nil _) isLocked untouched
      · obtain ⟨isRemoved, first⟩ := ifFree isLocked
        obtain ⟨others, places⟩ := files.tail first
        obtain ⟨told, silent, isValue, isFinal⟩ := removeSources_removes kept isRemoved
        have sameRest : removedOf told outputs rest = removedOf disk outputs rest :=
          removedOf_congr outputs fun path member => by
            rw [silent.tree, silent.current, places path member]
        have removal := (ih (others.told silent)).earlier silent
        rw [isValue, isFinal, same]
        rw [sameRest] at removal
        exact removal.cons isLocked first fun path member =>
          places path (List.mem_of_mem_filter member)

/-- Files are known by the absolute paths of their places. -/
theorem placeOf_mem_iff {written : List Path} {source : Path}
    (plain : ∀ name ∈ disk.current, IsPlainName name)
    (outputs : ∀ path ∈ written, disk.tree.isFileAt disk.current path = true)
    (isFile : disk.tree.isFileAt disk.current source = true) :
    placeOf disk source ∈ written.map (placeOf disk) ↔
      disk.tree.place? disk.current source ∈ written.map (disk.tree.place? disk.current) := by
  have known : ∀ {path : Path}, disk.tree.isFileAt disk.current path = true →
      ∃ location, disk.tree.place? disk.current path = some location ∧ location ≠ [] ∧
        placeOf disk path = absolutePath location := by
    intro path isFile
    obtain ⟨location, leads, isFile⟩ := isFileAt_iff_place?.1 isFile
    obtain ⟨contents, isContents⟩ := Option.isSome_iff_exists.1 isFile
    have isThere := lookup_eq_ok_iff.2 ⟨leads, contents?_eq_some.1 isContents⟩
    exact ⟨location, leads, ne_nil_of_lookup isThere, by rw [placeOf, leads]; rfl⟩
  obtain ⟨location, leads, proper, isPlace⟩ := known isFile
  rw [List.mem_map, List.mem_map]
  refine exists_congr fun path => and_congr_right fun member => ?_
  obtain ⟨other, otherLeads, otherProper, isOther⟩ := known (outputs path member)
  rw [isPlace, isOther, leads, otherLeads]
  constructor
  · intro same
    rw [absolutePath_injOn (plain_of_place? plain otherLeads) otherProper
      (plain_of_place? plain leads) proper same]
  · intro same
    rw [Option.some.inj same]

/-- The sources that a run removes after writing: those that are no outputs, unless sources are to
be kept. -/
def unwanted (keep : Bool) (disk : Disk) (sources written : List Path) : List Path :=
  if keep then [] else sources.filter fun source =>
    disk.tree.place? disk.current source ∉ written.map (disk.tree.place? disk.current)

/-- Only compiled sources are removed, and none if sources are to be kept. -/
theorem mem_unwanted {keep : Bool} {sources written : List Path} {source : Path}
    (member : source ∈ unwanted keep disk sources written) : keep = false ∧ source ∈ sources := by
  cases keep with
  | true => exact absurd member List.not_mem_nil
  | false => exact ⟨rfl, List.mem_of_mem_filter member⟩

/-- After writing, the sources that are no outputs are removed, unless they are to be kept. -/
theorem removePlanned_spec (keep : Bool) {sources written : List Path}
    (plain : ∀ name ∈ disk.current, IsPlainName name) (files : DifferentFiles disk sources)
    (outputs : ∀ path ∈ written, disk.tree.isFileAt disk.current path = true) :
    Removal disk (final (removePlanned keep sources written : Step OnDisk (List Path)).run disk)
      (unwanted keep disk sources written)
      (value (removePlanned keep sources written : Step OnDisk (List Path)).run disk) := by
  cases keep with
  | true => exact .all (List.forall_mem_nil _) (.nothing rfl rfl rfl)
  | false =>
    obtain ⟨isPlaces, stays⟩ := mapM_place_spec written disk
    have removal := removeSources_spec (written.map (placeOf disk)) files
    have same : removedOf disk (written.map (placeOf disk)) sources =
        unwanted false disk sources written := by
      rw [unwanted, if_neg Bool.false_ne_true, removedOf]
      refine List.filter_congr fun source member => ?_
      rw [Bool.eq_iff_iff, Bool.not_eq_true', ← Bool.not_eq_true, List.contains_iff_mem,
        placeOf_mem_iff plain outputs (files.isFile source member), decide_eq_true_eq]
    rw [removePlanned, if_neg Bool.false_ne_true, (run_lift_bind disk _ _).1,
      (run_lift_bind disk _ _).2, isPlaces, stays, ← same]
    exact removal

/-- Different files stay so, in the same places, when more is written. -/
theorem DifferentFiles.later {paths : List Path} {after : Disk}
    (files : DifferentFiles disk paths) (grows : disk.tree.Grows after.tree)
    (current : after.current = disk.current) :
    DifferentFiles after paths ∧
      ∀ path ∈ paths, after.tree.place? after.current path = disk.tree.place? disk.current path := by
  have places : ∀ path ∈ paths,
      after.tree.place? after.current path = disk.tree.place? disk.current path := by
    intro path member
    obtain ⟨location, leads, -⟩ := isFileAt_iff_place?.1 (files.isFile path member)
    rw [leads, current, place?_grows grows leads]
  refine ⟨⟨fun path member => ?_, ?_⟩, places⟩
  · rw [current]
    exact isFileAt_grows grows (files.isFile path member)
  · rw [List.map_congr_left places]
    exact files.distinct

/-- The sources that are compiled are some of those that were found. -/
theorem Prepared.compiled_sublist {root : Path} {config : Config} {directory : Path}
    {before planned : Disk} {sources : List Path} {models : List (Model Float)}
    {templates : Templates} {plan : Plan}
    (prepared : Prepared root config directory before planned sources models templates plan) :
    plan.compiled.sources.Sublist sources := by
  rw [prepared.compiled, value_compileSources]
  have all := List.map_fst_zip (Nat.le_of_eq prepared.loaded.length_eq)
  have part := (List.filter_sublist (p := takesPart) (l := sources.zip models)).map (·.1)
  rw [all] at part
  simpa using part

/-- Ignored sources are in no place of a compiled one. -/
theorem Prepared.ignored_apart {root : Path} {config : Config} {directory : Path}
    {before planned : Disk} {sources : List Path} {models : List (Model Float)}
    {templates : Templates} {plan : Plan}
    (prepared : Prepared root config directory before planned sources models templates plan)
    (files : DifferentFiles disk sources) :
    ∀ path ∈ plan.compiled.ignored, path ∈ sources ∧ disk.tree.place? disk.current path ∉
      plan.compiled.sources.map (disk.tree.place? disk.current) := by
  have all := List.map_fst_zip (Nat.le_of_eq prepared.loaded.length_eq)
  have distinct := files.distinct
  rw [← all, List.map_map] at distinct
  rw [prepared.compiled, value_compileSources]
  intro path isIgnored
  obtain ⟨entry, member, rfl⟩ := List.mem_map.1 isIgnored
  obtain ⟨isEntry, noPart⟩ := List.mem_filter.1 member
  refine ⟨all ▸ List.mem_map_of_mem isEntry, fun isCompiled => ?_⟩
  obtain ⟨source, isCompiled, same⟩ := List.mem_map.1 isCompiled
  obtain ⟨other, member, rfl⟩ := List.mem_map.1 isCompiled
  obtain ⟨isOther, part⟩ := List.mem_filter.1 member
  obtain rfl := List.inj_on_of_nodup_map distinct isOther isEntry same
  rw [part] at noPart
  contradiction

/-- A source that was loaded is a file. -/
theorem isFileAt_of_loadSource {path : Path} {model : Model Float}
    (loaded : value (loadSource path) disk = .ok model) :
    disk.tree.isFileAt disk.current path = true := by
  have answer : value (Storage.readText path : OnDisk (Except StorageFault String)) disk =
      disk.tree.readText disk.current path := rfl
  unfold loadSource Model.load at loaded
  rw [value_bind, value_bind, answer, readText] at loaded
  rw [isFileAt]
  cases isThere : disk.tree.lookup disk.current path with
  | error fault =>
    rw [isThere] at loaded
    contradiction
  | ok entry =>
    obtain ⟨location, found⟩ := entry
    rw [isThere] at loaded
    cases found with
    | file contents => rfl
    | directory entries => contradiction

/-- The sources of a plan are different files. -/
theorem Prepared.differentFiles {root : Path} {config : Config} {directory : Path}
    {before planned : Disk} {sources : List Path} {models : List (Model Float)}
    {templates : Templates} {plan : Plan}
    (prepared : Prepared root config directory before planned sources models templates plan)
    (formed : before.tree.WellFormed) : DifferentFiles before sources := by
  obtain ⟨base, locations, found⟩ := Sources.exists_foundAt formed prepared.discovered
  have isFile : ∀ path ∈ sources, before.tree.isFileAt before.current path = true :=
    ((List.forall₂_and_left _ _).1 (prepared.loaded.imp fun _ _ loaded =>
      ⟨isFileAt_of_loadSource loaded, trivial⟩)).1
  refine ⟨isFile, ?_⟩
  have places : sources.map (before.tree.place? before.current) =
      locations.map fun location => some (base ++ location) := by
    rw [found.sources_eq, List.map_map]
    refine List.map_congr_left fun location member => ?_
    have isSource : pathBelow directory location ∈ sources :=
      found.sources_eq ▸ List.mem_map_of_mem member
    obtain ⟨place, leads, -⟩ := isFileAt_iff_place?.1 (isFile _ isSource)
    have walks := (place?_eq_some.1 leads).2
    rw [Function.comp_apply, leads,
      walk_pathBelow found.leads (found.plain location member) walks]
  rw [places]
  exact found.distinct.map fun first second same =>
    List.append_cancel_left (Option.some.inj same)

end PhysicsPrefab.Run
