import PhysicsPrefab.Proofs.Emit.Outputs
import PhysicsPrefab.Proofs.Files.Places
import PhysicsPrefab.Proofs.Project.Writing

/-!
# Storing artifacts

An artifact is stored in a slot: its file and, for the files of bodies, the folder of the prefab
(`writeArtifact_stores`). Whether it can be written depends on what is in its slot alone
(`Writable`), so two artifacts with different files can be stored in either order (`Slot.swap`).
What files hold after many were stored is what the last one of each place holds (`overlay`).
-/

namespace PhysicsPrefab

namespace FileTree

/-- Where a file is stored: its location, and the folder that is made for it if it has one. -/
structure Slot where
  /-- The location of the folder. -/
  folder : Option Location
  /-- The location of the file. -/
  file : Location

namespace Slot

/-- Nothing that is there already is in the way of a file. -/
structure Fits (slot : Slot) (entries : Location → Option Entry) : Prop where
  /-- There is no file in the place of the folder. -/
  folder : ∀ location contents, slot.folder = some location →
    entries location ≠ some (.file contents)
  /-- There is no directory in the place of the file. -/
  file : entries slot.file ≠ some .directory

/-- The entries after a file was stored. -/
def store (slot : Slot) (contents : ByteArray) (entries : Location → Option Entry)
    (location : Location) : Option Entry :=
  if location = slot.file then some (.file contents)
  else if slot.folder = some location then some .directory
  else entries location

variable {first second : Slot} {entries : Location → Option Entry} {held contents : ByteArray}

/-- A file that still fits after another one was stored fits before it, the other one fits after
it, and both are stored in either order. -/
theorem swap (different : first.file ≠ second.file) (firstFits : first.Fits entries)
    (secondFits : second.Fits (first.store held entries)) :
    second.Fits entries ∧ first.Fits (second.store contents entries) ∧
      second.store contents (first.store held entries) =
        first.store held (second.store contents entries) := by
  have notFolder : first.folder ≠ some second.file := by
    intro isFolder
    have fits := secondFits.file
    simp [store, different.symm, isFolder] at fits
  have noFolder : second.folder ≠ some first.file := by
    intro isFolder
    have fits := secondFits.folder _ held isFolder
    simp [store] at fits
  refine ⟨⟨fun location contents isFolder => ?_, ?_⟩, ⟨fun location contents isFolder => ?_, ?_⟩, ?_⟩
  · have fits := secondFits.folder location contents isFolder
    by_cases both : first.folder = some location
    · exact firstFits.folder location contents both
    · have apart : location ≠ first.file := fun same => noFolder (same ▸ isFolder)
      simpa [store, apart, both] using fits
  · simpa [store, different.symm, notFolder] using secondFits.file
  · have apart : location ≠ second.file := fun same => notFolder (same ▸ isFolder)
    have fits := firstFits.folder location contents isFolder
    by_cases both : second.folder = some location
    · simp [store, apart, both]
    · simpa [store, apart, both] using fits
  · simpa [store, different, noFolder] using firstFits.file
  · funext location
    by_cases isFirst : location = first.file
    · simp [store, isFirst, different, noFolder]
    · by_cases isSecond : location = second.file
      · simp [store, isSecond, different.symm, notFolder]
      · by_cases folder : first.folder = some location <;> simp [store, isFirst, isSecond, folder]

/-- Storing a file changes the contents of that file alone. -/
theorem contents_store (fits : first.Fits entries) (location : Location) :
    (first.store contents entries location).bind Entry.contents? =
      if location = first.file then some contents else (entries location).bind Entry.contents? := by
  by_cases isFile : location = first.file
  · simp [store, isFile, Entry.contents?]
  · by_cases isFolder : first.folder = some location
    · have nothing : (entries location).bind Entry.contents? = none := by
        have noFile := fun contents => fits.folder location contents isFolder
        cases held : entries location with
        | none => rfl
        | some found => cases found <;> simp_all [Entry.contents?]
      simp [store, isFile, isFolder, nothing, Entry.contents?]
    · simp [store, isFile, isFolder]

end Slot

/-- A file that is there in a tree that has grown fitted before. -/
theorem Slot.fits_of_grows {slot : Slot} {before after : FileTree} (grows : before.Grows after)
    (folder : ∀ location, slot.folder = some location → after.kind? location = some true)
    (file : after.kind? slot.file = some false) : slot.Fits before.entryAt := by
  constructor
  case folder =>
    intro location contents isFolder isFile
    have stays := grows _ _ (kind?_eq_false.2 ⟨contents, isFile⟩)
    rw [folder location isFolder] at stays
    contradiction
  case file =>
    intro isDirectory
    have stays := grows _ _ (kind?_eq_true.2 isDirectory)
    rw [file] at stays
    contradiction

/-- The contents after files were stored at their places one after the other. -/
def overlay : List (Option Location × ByteArray) → (Location → Option ByteArray) →
    Location → Option ByteArray
  | [], held => held
  | (place, contents) :: rest, held => overlay rest fun location =>
    if place = some location then some contents else held location

/-- More files are stored over those that were stored before. -/
theorem overlay_append (first second : List (Option Location × ByteArray))
    (held : Location → Option ByteArray) :
    overlay (first ++ second) held = overlay second (overlay first held) := by
  induction first generalizing held with
  | nil => rfl
  | cons _ rest ih => exact ih _

/-- Where no file is stored, everything is as it was. -/
theorem overlay_of_not_mem {files : List (Option Location × ByteArray)} {location : Location}
    (absent : some location ∉ files.map (·.1)) (held : Location → Option ByteArray) :
    overlay files held location = held location := by
  induction files generalizing held with
  | nil => rfl
  | cons first rest ih =>
    rw [List.map_cons, List.mem_cons, not_or] at absent
    rw [overlay, ih absent.2, if_neg (Ne.symm absent.1)]

/-- The last file that is stored at a place is there. -/
theorem overlay_last {files : List (Option Location × ByteArray)} {location : Location}
    (absent : some location ∉ files.map (·.1)) (earlier : List (Option Location × ByteArray))
    (contents : ByteArray) (held : Location → Option ByteArray) :
    overlay (earlier ++ (some location, contents) :: files) held location = some contents := by
  rw [overlay_append, overlay, overlay_of_not_mem absent, if_pos rfl]

end FileTree

/-- The slot of an output whose directory is at a location. -/
def Output.slot (output : Output) (base : Location) : FileTree.Slot where
  folder := match output.name with
    | .file prefabId _ => some (base ++ [prefabId])
    | .script _ => none
  file := base ++ output.name.names

/-- Files of outputs with different names are at different locations. -/
theorem Output.slot_file_ne {first second : Output} (different : first.name ≠ second.name)
    (base other : Location) : (first.slot base).file ≠ (second.slot other).file := by
  intro same
  have same : base ++ first.name.names.map id = other ++ second.name.names.map id := by
    rw [List.map_id, List.map_id]
    exact same
  exact different (OutputName.eq_of_append_eq Function.injective_id same).2

namespace Run

open Program FileTree

variable {root : Path} {artifact : Artifact} {output : Output} {base : Location} {disk : Disk}

/-- An artifact is an output whose directory is there. -/
structure GoesTo (tree : FileTree) (current : Location) (root : Path) (artifact : Artifact)
    (output : Output) (base : Location) : Prop where
  /-- It has the path of the output. -/
  path_eq : artifact.path = output.path
  /-- The output has plain names. -/
  plain : output.IsPlain
  /-- The directory is there. -/
  leads : tree.LeadsTo current (root.join output.directory) base

/-- An output can be written: its path is a good one, its names are not too long, and nothing is
in its way. -/
structure Writable (tree : FileTree) (root : Path) (output : Output) (base : Location) : Prop where
  /-- The path is a good one. -/
  good : checkPath (root.join output.path) = .ok ()
  /-- The names are not too long. -/
  names : ∀ name ∈ output.name.names, isName name.toList = true
  /-- Nothing is in its way. -/
  fits : (output.slot base).Fits tree.entryAt

/-- An artifact goes to the same place when more is written. -/
theorem GoesTo.later {before after : Disk}
    (goes : GoesTo before.tree before.current root artifact output base)
    (writes : Disk.Writes before after) :
    GoesTo after.tree after.current root artifact output base :=
  ⟨goes.path_eq, goes.plain, writes.current ▸ goes.leads.grows writes.tree⟩

/-- Writing an artifact only writes. -/
theorem writeArtifact_writes (root : Path) (artifact : Artifact) :
    Keeps Disk.Writes (writeArtifact root artifact : OnDisk (Except EmitError Path)) :=
  (writeArtifact_obeys root artifact).keeps

/-- The path of an output under the root is below its directory. -/
theorem join_path (root : Path) (plain : output.IsPlain) :
    root.join output.path = pathBelow (root.join output.directory) output.name.names :=
  (pathBelow_join root output.directory plain).symm

/-- An artifact is written if the directories above it can be made and the file can be written. -/
theorem writeArtifact_of_made {made written : FileTree} {directory : Path}
    (above : (root.join artifact.path).parent? = some directory)
    (isMade : makeDirectories disk.current (Disk.stepsFor directory) disk.tree directory =
      (made, .ok ()))
    (isWritten : made.writeBytes disk.current (root.join artifact.path)
      artifact.contents.toUTF8 = .ok written) :
    value (writeArtifact root artifact : OnDisk (Except EmitError Path)) disk =
        .ok (root.join artifact.path) ∧
      final (writeArtifact root artifact : OnDisk (Except EmitError Path)) disk =
        ⟨written, disk.current, disk.locked,
          .write (root.join artifact.path) :: .makeDirectories directory :: disk.effects,
          disk.notices⟩ := by
  have folders : makeParents (root.join artifact.path) = ExceptT.mk (ensureDirectory directory) := by
    rw [makeParents, above]
    rfl
  have foldersMade : value (makeParents (root.join artifact.path)).run disk = .ok () := by
    rw [folders]
    exact mapError_eq_ok.2 (congrArg Prod.snd isMade)
  have afterFolders : final (makeParents (root.join artifact.path)).run disk =
      { disk with tree := made }.note (.makeDirectories directory) := by
    rw [folders]
    exact congrArg (fun made => { disk with tree := made.1 }.note (.makeDirectories directory)) isMade
  rw [writeArtifact_eq, (run_bind_ok _ _ disk foldersMade).1, (run_bind_ok _ _ disk foldersMade).2,
    afterFolders, ExceptT.run_mk, write_eq]
  generalize isMiddle : { disk with tree := made }.note (.makeDirectories directory) = middle
  have file : (middle.note (.write (root.join artifact.path))).update
      (middle.tree.writeBytes middle.current (root.join artifact.path) artifact.contents.toUTF8) =
        (.ok (), ⟨written, disk.current, disk.locked,
          .write (root.join artifact.path) :: .makeDirectories directory :: disk.effects,
          disk.notices⟩) := by
    rw [← isMiddle]
    exact congrArg (Disk.update _) isWritten
  have fileWritten : value (ExceptT.mk (do
      return (← Storage.writeText (root.join artifact.path) artifact.contents).mapError
        (.unwritable (root.join artifact.path))) : ExceptT EmitError OnDisk Unit).run middle =
        .ok () :=
    mapError_eq_ok.2 (congrArg Prod.fst file)
  rw [(run_bind_ok _ _ middle fileWritten).1, (run_bind_ok _ _ middle fileWritten).2]
  exact ⟨rfl, congrArg Prod.snd file⟩

/-- A file that is in a folder of its own is stored after the folder. -/
theorem store_file (output : Output) (base : Location) {prefabId bodyId : String}
    (name : output.name = .file prefabId bodyId) (contents : ByteArray)
    (entries : Location → Option Entry) :
    (output.slot base).store contents entries =
      Function.update (Function.update entries (base ++ [prefabId]) (some .directory))
        (base ++ [prefabId] ++ [bodyId ++ ".json"]) (some (.file contents)) := by
  funext location
  simp [Output.slot, Slot.store, name, OutputName.names, Function.update_apply, eq_comm]

/-- A script is stored in its directory. -/
theorem store_script (output : Output) (base : Location) {prefabId : String}
    (name : output.name = .script prefabId) (contents : ByteArray)
    (entries : Location → Option Entry) :
    (output.slot base).store contents entries =
      Function.update entries (base ++ [prefabId ++ ".js"]) (some (.file contents)) := by
  funext location
  simp [Output.slot, Slot.store, name, OutputName.names, Function.update_apply]

/-- Writing an artifact succeeds, stores it in a slot and does nothing else. -/
structure StoresIn (slot : Slot) (root : Path) (artifact : Artifact) (disk : Disk) : Prop where
  /-- Its path is given back. -/
  succeeds : value (writeArtifact root artifact : OnDisk (Except EmitError Path)) disk =
    .ok (root.join artifact.path)
  /-- It is in the slot. -/
  stored : (final (writeArtifact root artifact : OnDisk (Except EmitError Path)) disk).tree.entryAt =
    slot.store artifact.contents.toUTF8 disk.tree.entryAt
  /-- Paths start at the same place. -/
  current : (final (writeArtifact root artifact : OnDisk (Except EmitError Path)) disk).current =
    disk.current
  /-- The same files cannot be removed. -/
  locked : (final (writeArtifact root artifact : OnDisk (Except EmitError Path)) disk).locked =
    disk.locked
  /-- Nothing is told. -/
  notices : (final (writeArtifact root artifact : OnDisk (Except EmitError Path)) disk).notices =
    disk.notices

/-- An artifact that can be written is stored in its slot. -/
theorem writeArtifact_stores (goes : GoesTo disk.tree disk.current root artifact output base)
    (writable : Writable disk.tree root output base) :
    StoresIn (output.slot base) root artifact disk := by
  have plain := goes.plain
  have good := writable.good
  have names := writable.names
  have path_eq := goes.path_eq ▸ join_path root plain
  rw [← goes.path_eq, path_eq] at good
  unfold Output.IsPlain at plain
  cases name : output.name with
  | file prefabId bodyId =>
    rw [name] at path_eq good plain names
    obtain ⟨folderPlain, filePlain⟩ := List.forall_mem_cons.1 plain
    replace filePlain := filePlain _ (List.mem_singleton_self _)
    have path_join : root.join artifact.path =
      ((root.join output.directory).join ⟨prefabId⟩).join ⟨bodyId ++ ".json"⟩ := path_eq
    have noFile : disk.tree.kind? (base ++ [prefabId]) ≠ some false := by
      rw [Ne, kind?_eq_false]
      rintro ⟨contents, isFile⟩
      exact writable.fits.folder _ contents (by simp [Output.slot, name]) isFile
    obtain ⟨made, isMade, grows, leads, changed⟩ := makeDirectories_join folderPlain goes.leads
      (checkPath_of_join folderPlain filePlain good) (names _ List.mem_cons_self) noFile _
    have noDirectory : made.kind? (base ++ [prefabId] ++ [bodyId ++ ".json"]) ≠ some true := by
      rw [Ne, kind?_eq_true, changed, Function.update_of_ne (by simp)]
      simpa [Output.slot, name, OutputName.names] using writable.fits.file
    obtain ⟨written, isWritten, stored⟩ := writeBytes_join filePlain leads good
      (names _ (by simp [OutputName.names])) noDirectory artifact.contents.toUTF8
    have above : (root.join artifact.path).parent? =
        some ((root.join output.directory).join ⟨prefabId⟩) := by
      rw [path_join]
      exact Path.parent?_join_join _ folderPlain filePlain
    obtain ⟨succeeds, leadsTo⟩ := writeArtifact_of_made above isMade (path_join ▸ isWritten)
    constructor
    case succeeds => exact succeeds
    case stored => rw [leadsTo, stored, changed, store_file output base name]
    all_goals rw [leadsTo]
  | script prefabId =>
    rw [name] at path_eq good plain names
    have plain := plain _ (List.mem_singleton_self _)
    have path_join : root.join artifact.path =
      (root.join output.directory).join ⟨prefabId ++ ".js"⟩ := path_eq
    obtain ⟨outer, above, leads, outerGood⟩ := exists_leadsTo_parent plain goes.leads good
    have noDirectory : disk.tree.kind? (base ++ [prefabId ++ ".js"]) ≠ some true := by
      rw [Ne, kind?_eq_true]
      simpa [Output.slot, name, OutputName.names] using writable.fits.file
    obtain ⟨written, isWritten, stored⟩ := writeBytes_join plain goes.leads good
      (names _ (List.mem_singleton_self _)) noDirectory artifact.contents.toUTF8
    obtain ⟨succeeds, leadsTo⟩ := writeArtifact_of_made (path_join ▸ above)
      (makeDirectories_of_leadsTo leads outerGood _) (path_join ▸ isWritten)
    constructor
    case succeeds => exact succeeds
    case stored => rw [leadsTo, stored, store_script output base name]
    all_goals rw [leadsTo]

/-- An output that is a file in a tree that has grown could be written before. -/
theorem Writable.of_grows {before after : FileTree} {current : Location} (plain : output.IsPlain)
    (leads : before.LeadsTo current (root.join output.directory) base) (grows : before.Grows after)
    (isFile : after.isFileAt current (root.join output.path)) :
    Writable before root output base := by
  obtain ⟨good, location, walks, isFile⟩ := isFileAt_iff.1 isFile
  have leads := leads.grows grows
  rw [join_path root plain] at walks
  unfold Output.IsPlain at plain
  cases name : output.name with
  | file prefabId bodyId =>
    rw [name] at walks plain
    obtain ⟨folderPlain, filePlain⟩ := List.forall_mem_cons.1 plain
    replace filePlain := filePlain _ (List.mem_singleton_self _)
    obtain ⟨folder, folderLeads, fileFits, rfl, -⟩ := (walk_join_eq_ok filePlain).1 walks
    obtain ⟨outer, outerLeads, folderFits, rfl, -⟩ := (walk_join_eq_ok folderPlain).1 folderLeads.walk
    obtain rfl := leads.unique outerLeads
    refine ⟨good, ?_, Slot.fits_of_grows grows (fun location isFolder => ?_) ?_⟩
    · rw [name]
      exact List.forall_mem_cons.2 ⟨folderFits, List.forall_mem_singleton.2 fileFits⟩
    · obtain rfl : base ++ [prefabId] = location := by simpa [Output.slot, name] using isFolder
      exact folderLeads.isDirectory
    · simpa [Output.slot, name, OutputName.names] using isFile
  | script prefabId =>
    rw [name] at walks plain
    obtain ⟨outer, outerLeads, fits, rfl, -⟩ :=
      (walk_join_eq_ok (plain _ (List.mem_singleton_self _))).1 walks
    obtain rfl := leads.unique outerLeads
    refine ⟨good, ?_, Slot.fits_of_grows grows (fun location isFolder => ?_) ?_⟩
    · rw [name]
      exact List.forall_mem_singleton.2 fits
    · simp [Output.slot, name] at isFolder
    · simpa [Output.slot, name, OutputName.names] using isFile

/-- An artifact for which there was no error could be written. -/
theorem writeArtifact_writable (goes : GoesTo disk.tree disk.current root artifact output base)
    {made : Path} (succeeded :
      value (writeArtifact root artifact : OnDisk (Except EmitError Path)) disk = .ok made) :
    Writable disk.tree root output base := by
  have writes := writeArtifact_writes root artifact disk
  have isFile := (writeArtifact_written root succeeded).isFile
  exact .of_grows goes.plain goes.leads writes.tree
    (by rw [← goes.path_eq, ← writes.current]; exact isFile)

end Run

end PhysicsPrefab
