import PhysicsPrefab.Proofs.Project.Artifacts

/-!
# Writing once more

What could be written can be written again: where the directories for artifacts and all artifacts
are there already, whatever they hold, writing a plan succeeds and makes nothing new
(`writePlan_again`). After a plan has been written its directories are there, and they can be made
again (`ready_of_writePlan`).
-/

namespace PhysicsPrefab

open Program FileTree

namespace Disk

/-- The same things are there, files as files and directories as directories, though files may hold
something else. -/
structure SameKinds (before after : Disk) : Prop where
  /-- The same things are there. -/
  kinds : after.tree.kind? = before.tree.kind?
  /-- Paths start at the same place. -/
  current : after.current = before.current

instance : IsPreorder Disk SameKinds where
  refl _ := ⟨rfl, rfl⟩
  trans _ _ _ first second :=
    ⟨second.kinds.trans first.kinds, second.current.trans first.current⟩

namespace SameKinds

variable {before after : Disk}

/-- Nothing is lost. -/
theorem grows (same : SameKinds before after) : before.tree.Grows after.tree := by
  rw [Grows, same.kinds]
  exact fun _ _ isThere => isThere

/-- Nothing is new. -/
theorem shrinks (same : SameKinds before after) : after.tree.Grows before.tree := by
  rw [Grows, same.kinds]
  exact fun _ _ isThere => isThere

/-- Paths have the same places. -/
theorem place? (same : SameKinds before after) (path : Path) :
    after.tree.place? after.current path = before.tree.place? before.current path := by
  rw [same.current]
  cases isBefore : before.tree.place? before.current path with
  | some location => exact place?_grows same.grows isBefore
  | none =>
    cases isAfter : after.tree.place? before.current path with
    | none => rfl
    | some location =>
      rw [place?_grows same.shrinks isAfter] at isBefore
      contradiction

/-- Files stay files. -/
theorem isFileAt (same : SameKinds before after) {path : Path}
    (isFile : before.tree.isFileAt before.current path = true) :
    after.tree.isFileAt after.current path = true := by
  rw [same.current]
  exact isFileAt_grows same.grows isFile

end SameKinds

end Disk

namespace Run

open Disk

variable {root : Path} {layout : OutputLayout} {plan : Plan} {disk : Disk}

/-- The folder of a file that is there is a directory. -/
theorem kind?_folder {tree : FileTree} {output : Output} {base : Location}
    (isFile : tree.kind? (output.slot base).file = some false) :
    ∀ location, (output.slot base).folder = some location → tree.kind? location = some true := by
  intro location isFolder
  cases name : output.name with
  | script prefabId => simp [Output.slot, name] at isFolder
  | file prefabId bodyId =>
    obtain rfl : base ++ [prefabId] = location := by simpa [Output.slot, name] using isFolder
    have inside : (output.slot base).file = (base ++ [prefabId]) ++ (bodyId ++ ".json") :: [] := by
      simp [Output.slot, name, OutputName.names]
    rw [inside] at isFile
    obtain ⟨found, isThere, -⟩ := Option.map_eq_some_iff.1 isFile
    obtain ⟨entries, isDirectory⟩ := exists_of_get?_append isThere
    rw [kind?, isDirectory]
    rfl

/-- Storing a file where there is one makes nothing new. -/
theorem kind?_store {before after : FileTree} {slot : Slot} {contents : ByteArray}
    (stored : after.entryAt = slot.store contents before.entryAt)
    (isFile : before.kind? slot.file = some false)
    (folder : ∀ location, slot.folder = some location → before.kind? location = some true) :
    after.kind? = before.kind? := by
  have held : ∀ location, after.entryAt location = slot.store contents before.entryAt location :=
    congrFun stored
  funext location
  by_cases atFile : location = slot.file
  · rw [atFile, isFile, kind?_eq_false]
    exact ⟨contents, by rw [held, Slot.store, if_pos rfl]⟩
  · by_cases atFolder : slot.folder = some location
    · rw [folder location atFolder, kind?_eq_true, held, Slot.store, if_neg atFile, if_pos atFolder]
    · have same : after.entryAt location = before.entryAt location := by
        rw [held, Slot.store, if_neg atFile, if_neg atFolder]
      exact kind?_congr same

/-- An artifact that is there can be written again. -/
theorem writeArtifact_again {id : String} {artifact : Artifact} {output : Output}
    (isOutput : IsOutputOf layout id artifact output) (furnished : Furnished root layout disk)
    (isFile : disk.tree.isFileAt disk.current (root.join artifact.path) = true) :
    value (writeArtifact root artifact : OnDisk (Except EmitError Path)) disk =
        .ok (root.join artifact.path) ∧
      SameKinds disk (final (writeArtifact root artifact : OnDisk (Except EmitError Path)) disk) := by
  obtain ⟨base, goes⟩ := isOutput.goes furnished
  have writable : Writable disk.tree root output base :=
    .of_grows goes.plain goes.leads (refl_of Grows disk.tree) (goes.path_eq ▸ isFile)
  have stores := writeArtifact_stores goes writable
  obtain ⟨location, isAt, held⟩ := isFileAt_iff_place?.1 isFile
  obtain rfl : (output.slot base).file = location := Option.some.inj
    ((goes.place?_eq (refl_of Writes disk) isFile).symm.trans isAt)
  have isKind := isSome_contents?.1 held
  exact ⟨stores.succeeds, kind?_store stores.stored isKind (kind?_folder isKind), stores.current⟩

/-- All that a plan writes is there, and the directories for artifacts can be made again. -/
structure Ready (root : Path) (layout : OutputLayout) (plan : Plan) (disk : Disk) : Prop where
  /-- The directories for artifacts are there. -/
  furnished : Furnished root layout disk
  /-- Their paths are good ones. -/
  good : ∀ directory ∈ layout.directories, (root.join directory).text.isEmpty = false →
    checkPath (root.join directory) = .ok ()
  /-- The artifacts are there. -/
  isFile : ∀ artifact ∈ plan.artifacts.flatten ++ [plan.index],
    disk.tree.isFileAt disk.current (root.join artifact.path) = true

/-- It does not matter what files hold. -/
theorem Ready.sameKinds {after : Disk} (ready : Ready root layout plan disk)
    (same : SameKinds disk after) : Ready root layout plan after := by
  constructor
  case furnished =>
    intro directory member
    obtain ⟨base, leads⟩ := ready.furnished directory member
    exact ⟨base, same.current ▸ leads.grows same.grows⟩
  case good => exact ready.good
  case isFile => exact fun artifact member => same.isFileAt (ready.isFile artifact member)

/-- Directories that are there can be made again. -/
theorem ensureDirectories_again {directories : List Path}
    (each : ∀ directory ∈ directories, ∃ base,
      disk.tree.LeadsTo disk.current (root.join directory) base)
    (good : ∀ directory ∈ directories, (root.join directory).text.isEmpty = false →
      checkPath (root.join directory) = .ok ()) :
    value (ensureDirectories root directories).run disk = .ok PUnit.unit ∧
      SameKinds disk (final (ensureDirectories root directories).run disk) := by
  induction directories generalizing disk with
  | nil => exact ⟨rfl, rfl, rfl⟩
  | cons directory rest ih =>
    obtain ⟨⟨base, leads⟩, others⟩ := List.forall_mem_cons.1 each
    obtain ⟨isGood, othersGood⟩ := List.forall_mem_cons.1 good
    have made := makeDirectories_of_leadsTo leads isGood (root.join directory).text.length
    have isMade : value (attempt .emit (ensureDirectory (root.join directory)) :
        Step OnDisk Unit).run disk = .ok () :=
      value_attempt.2 (mapError_eq_ok.2 (congrArg Prod.snd made))
    generalize isMiddle : final (attempt .emit (ensureDirectory (root.join directory)) :
      Step OnDisk Unit).run disk = middle
    have tree : middle.tree = disk.tree := by
      rw [← isMiddle, final_attempt]
      exact congrArg Prod.fst made
    have current : middle.current = disk.current := by rw [← isMiddle]; rfl
    obtain ⟨succeeds, same⟩ := ih (by rw [tree, current]; exact others) othersGood
    rw [ensureDirectories_cons, (run_bind_ok _ _ disk isMade).1, (run_bind_ok _ _ disk isMade).2,
      isMiddle]
    exact ⟨succeeds, same.kinds.trans (by rw [tree]), same.current.trans current⟩

/-- Each artifact of a plan that is there can be written again. -/
theorem Ready.writeArtifact (ready : Ready root layout plan disk) (stamped : Stamped layout plan)
    {artifact : Artifact} (member : artifact ∈ plan.artifacts.flatten ++ [plan.index]) :
    value (Run.writeArtifact root artifact : OnDisk (Except EmitError Path)) disk =
        .ok (root.join artifact.path) ∧
      SameKinds disk
        (final (Run.writeArtifact root artifact : OnDisk (Except EmitError Path)) disk) := by
  obtain ⟨id, output, isOutput⟩ := stamped.exists_of_mem artifact member
  exact writeArtifact_again isOutput ready.furnished (ready.isFile artifact member)

/-- A pool writes all artifacts again. -/
theorem Ready.writeAll (ready : Ready root layout plan disk) (stamped : Stamped layout plan)
    (schedule : Pool.Schedule) :
    (∃ paths, value (Run.writeAll schedule root plan.artifacts) disk = .ok paths) ∧
      SameKinds disk (final (Run.writeAll schedule root plan.artifacts) disk) := by
  have each : ∀ (artifact : Artifact) (state : Disk),
      artifact ∈ plan.artifacts.flatten ++ [plan.index] → SameKinds disk state →
      (∃ made, value (Run.writeArtifact root artifact : OnDisk (Except EmitError Path)) state =
        .ok made) ∧ SameKinds disk
          (final (Run.writeArtifact root artifact : OnDisk (Except EmitError Path)) state) := by
    intro artifact state isKnown same
    obtain ⟨isMade, more⟩ := (ready.sameKinds same).writeArtifact stamped isKnown
    exact ⟨⟨_, isMade⟩, trans_of SameKinds same more⟩
  exact Pool.runJobs_succeeds each schedule (fun _ member => List.mem_append_left _ member)
    (refl_of SameKinds disk)

/-- The index is written again. -/
theorem Ready.writeIndex (ready : Ready root layout plan disk) (stamped : Stamped layout plan) :
    (∃ paths, value (writeArtifacts root [plan.index] : OnDisk (Except EmitError (List Path)))
        disk = .ok paths) ∧
      SameKinds disk (final (writeArtifacts root [plan.index] :
        OnDisk (Except EmitError (List Path))) disk) := by
  obtain ⟨isMade, same⟩ := ready.writeArtifact stamped
    (List.mem_append_right _ (List.mem_singleton_self _))
  replace isMade : value (ExceptT.mk (Run.writeArtifact root plan.index) :
      ExceptT EmitError OnDisk Path).run disk = .ok (root.join plan.index.path) := isMade
  rw [writeArtifacts_cons, (run_bind_ok _ _ disk isMade).1, (run_bind_ok _ _ disk isMade).2]
  exact ⟨⟨_, rfl⟩, same.kinds, same.current⟩

/-- What a plan has written can be written again, and nothing new is made. -/
theorem writePlan_again (schedule : Pool.Schedule) (stamped : Stamped layout plan)
    (ready : Ready root layout plan disk) :
    (∃ paths, value (writePlan schedule root layout plan : Step OnDisk (List Path)).run disk =
        .ok paths) ∧
      SameKinds disk
        (final (writePlan schedule root layout plan : Step OnDisk (List Path)).run disk) := by
  rw [writePlan_eq]
  obtain ⟨isMade, same₁⟩ := ensureDirectories_again ready.furnished ready.good
  rw [(run_bind_ok _ _ disk isMade).1, (run_bind_ok _ _ disk isMade).2]
  generalize final (ensureDirectories root layout.directories).run disk = disk₁ at *
  obtain ⟨⟨paths, allMade⟩, same₂⟩ := (ready.sameKinds same₁).writeAll stamped schedule
  replace allMade : value (attempt .emit (Run.writeAll schedule root plan.artifacts) :
    Step OnDisk (List Path)).run disk₁ = .ok paths := value_attempt.2 allMade
  rw [(run_bind_ok _ _ disk₁ allMade).1, (run_bind_ok _ _ disk₁ allMade).2, final_attempt]
  generalize final (Run.writeAll schedule root plan.artifacts) disk₁ = disk₂ at *
  replace same₂ := trans_of SameKinds same₁ same₂
  obtain ⟨⟨index, indexMade⟩, same₃⟩ := (ready.sameKinds same₂).writeIndex stamped
  replace indexMade : value (attempt .emit (writeArtifacts root [plan.index]) :
    Step OnDisk (List Path)).run disk₂ = .ok index := value_attempt.2 indexMade
  rw [(run_bind_ok _ _ disk₂ indexMade).1, (run_bind_ok _ _ disk₂ indexMade).2, final_attempt]
  exact ⟨⟨_, rfl⟩, trans_of SameKinds same₂ same₃⟩

/-- Directories that could be made have good paths. -/
theorem good_of_ensureDirectories {directories : List Path} {before : Disk} {done : PUnit}
    (made : value (ensureDirectories root directories).run before = .ok done) :
    ∀ directory ∈ directories, (root.join directory).text.isEmpty = false →
      checkPath (root.join directory) = .ok () := by
  induction directories generalizing before with
  | nil => exact List.forall_mem_nil _
  | cons directory rest ih =>
    rw [ensureDirectories_cons] at made
    obtain ⟨_, isMade, others⟩ := exists_of_run_bind_ok _ _ before made
    rw [value_attempt] at isMade
    have isThere : makeDirectories before.current (stepsFor (root.join directory)) before.tree
        (root.join directory) = (_, .ok ()) := Prod.ext rfl (mapError_eq_ok.1 isMade)
    exact List.forall_mem_cons.2 ⟨checkPath_of_makeDirectories isThere, ih others⟩

/-- After a plan has been written it is ready to be written again. -/
theorem ready_of_writePlan {schedule : Pool.Schedule} {before after : Disk}
    (here : before.tree.kind? before.current = some true) {paths : List Path}
    (succeeded : value (writePlan schedule root layout plan : Step OnDisk (List Path)).run before =
      .ok paths)
    (leads : final (writePlan schedule root layout plan : Step OnDisk (List Path)).run before =
      after) : Ready root layout plan after := by
  obtain ⟨_, _, _, _, steps, -⟩ := exists_steps_of_writePlan schedule root succeeded leads
  constructor
  case isFile =>
    exact fun artifact member =>
      leads ▸ (writePlan_written schedule root succeeded artifact member).isFile
  case good => exact good_of_ensureDirectories steps.isMade
  case furnished => exact ((steps.isFurnished here).later steps.storing).later steps.indexing

end Run

end PhysicsPrefab
