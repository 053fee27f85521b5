import PhysicsPrefab.Proofs.Files.Listing
import PhysicsPrefab.Proofs.Project.Planning
import PhysicsPrefab.Proofs.Project.Writing

/-!
# Programs on disks that are alike

Two disks are alike if they differ at most in the order in which directories list their entries,
and in what was noted of their past. All operations on files but listing are twins of themselves:
on disks that are alike they give the same and lead to such disks. Twins can be put together
freely (`Twins.bind`, `SameAt.run_bind`), so the same holds for all that a run does after it has
found its sources, and for pools of readers under different schedules (`Twins.runJobs`).
-/

namespace PhysicsPrefab

namespace Program

variable {σ α β ε : Type}

/-- Two programs give the same in two states and lead to states that are alike. -/
structure SameAt (alike : σ → σ → Prop) (first second : StateM σ α) (state other : σ) : Prop where
  /-- They give the same. -/
  value : value first state = value second other
  /-- They lead to states that are alike. -/
  final : alike (final first state) (final second other)

/-- Two programs do the same in all states that are alike. -/
def Twins (alike : σ → σ → Prop) (first second : StateM σ α) : Prop :=
  ∀ state other, alike state other → SameAt alike first second state other

variable {alike : σ → σ → Prop}

/-- Programs that do the same do so one after the other. -/
theorem SameAt.bind {first second : StateM σ α} {next following : α → StateM σ β} {state other : σ}
    (head : SameAt alike first second state other)
    (rest : ∀ made, Twins alike (next made) (following made)) :
    SameAt alike (first >>= next) (second >>= following) state other := by
  have tail := rest (Program.value first state) _ _ head.final
  constructor
  · rw [value_bind, value_bind, ← head.value, tail.value]
  · rw [final_bind, final_bind, ← head.value]
    exact tail.final

/-- Programs that may fail and do the same do so one after the other. -/
theorem SameAt.run_bind {first second : ExceptT ε (StateM σ) α}
    {next following : α → ExceptT ε (StateM σ) β} {state other : σ}
    (head : SameAt alike first.run second.run state other)
    (rest : ∀ made, Program.value first.run state = .ok made →
      SameAt alike (next made).run (following made).run (Program.final first.run state)
        (Program.final second.run other)) :
    SameAt alike (first >>= next).run (second >>= following).run state other := by
  cases outcome : Program.value first.run state with
  | error error =>
    obtain ⟨firstValue, firstFinal⟩ := run_bind_error first next state outcome
    obtain ⟨secondValue, secondFinal⟩ :=
      run_bind_error second following other (head.value.symm.trans outcome)
    exact ⟨firstValue.trans secondValue.symm, firstFinal ▸ secondFinal ▸ head.final⟩
  | ok made =>
    obtain ⟨firstValue, firstFinal⟩ := run_bind_ok first next state outcome
    obtain ⟨secondValue, secondFinal⟩ :=
      run_bind_ok second following other (head.value.symm.trans outcome)
    have tail := rest made outcome
    exact ⟨firstValue.trans (tail.value.trans secondValue.symm),
      firstFinal ▸ secondFinal ▸ tail.final⟩

namespace Twins

/-- A program that does nothing does the same everywhere. -/
theorem pure (result : α) : Twins alike (Pure.pure result : StateM σ α) (Pure.pure result) :=
  fun _ _ same => ⟨rfl, same⟩

/-- Twins are twins one after the other. -/
theorem bind {first second : StateM σ α} {next following : α → StateM σ β}
    (head : Twins alike first second) (rest : ∀ made, Twins alike (next made) (following made)) :
    Twins alike (first >>= next) (second >>= following) :=
  fun _ _ same => (head _ _ same).bind rest

/-- Twins that may fail are twins one after the other. -/
theorem run_bind {first second : ExceptT ε (StateM σ) α}
    {next following : α → ExceptT ε (StateM σ) β} (head : Twins alike first.run second.run)
    (rest : ∀ made, Twins alike (next made).run (following made).run) :
    Twins alike (first >>= next).run (second >>= following).run :=
  fun _ _ same => (head _ _ same).run_bind fun made _ => rest made _ _ (head _ _ same).final

/-- A result that is there is the same everywhere. -/
theorem run_pure (result : α) :
    Twins alike (Pure.pure result : ExceptT ε (StateM σ) α).run
      (Pure.pure result : ExceptT ε (StateM σ) α).run := pure _

/-- Twins that cannot fail are twins among programs that may. -/
theorem run_lift {first second : StateM σ α} (twins : Twins alike first second) :
    Twins alike (ExceptT.lift first : ExceptT ε (StateM σ) α).run
      (ExceptT.lift second : ExceptT ε (StateM σ) α).run := by
  rw [ExceptT.run_lift, ExceptT.run_lift]
  exact bind twins fun _ => pure _

/-- Loops of twins are twins. -/
theorem run_forIn {visit other : α → PUnit → ExceptT ε (StateM σ) (ForInStep PUnit)}
    (each : ∀ item, Twins alike (visit item PUnit.unit).run (other item PUnit.unit).run)
    (items : List α) :
    Twins alike (forIn items PUnit.unit visit).run (forIn items PUnit.unit other).run := by
  induction items with
  | nil => exact pure _
  | cons item rest ih =>
    rw [List.forIn_cons, List.forIn_cons]
    refine run_bind (each item) fun result => ?_
    cases result with
    | done _ => exact pure _
    | yield _ => exact ih

/-- Twins for each item of a list are twins. -/
theorem mapM {visit other : α → StateM σ β} (each : ∀ item, Twins alike (visit item) (other item))
    (items : List α) : Twins alike (items.mapM visit) (items.mapM other) := by
  induction items with
  | nil => exact pure _
  | cons item rest ih =>
    rw [List.mapM_cons, List.mapM_cons]
    exact bind (each item) fun _ => bind ih fun _ => pure _

/-- Pools of pieces that change nothing are twins, whatever their schedules. -/
theorem runJobs [IsEquiv σ alike] {perform : α → StateM σ (Except ε β)}
    (each : ∀ piece, Keeps alike (perform piece))
    (twins : ∀ piece, Twins alike (perform piece) (perform piece)) (first second : Pool.Schedule)
    (jobs : List (List α)) :
    Twins alike (Pool.runJobs first perform jobs) (Pool.runJobs second perform jobs) := by
  intro state other same
  have alone := fun schedule => Pool.value_runJobs_of_same each
    (fun piece _ _ related => (twins piece _ _ related).value.symm) schedule jobs
  constructor
  · rw [alone, alone]
    simp only [(twins _ _ _ same).value]
  · have before := symm_of alike (Pool.runJobs_keeps each first jobs state)
    exact trans_of alike (trans_of alike before same) (Pool.runJobs_keeps each second jobs other)

end Twins

end Program

namespace Disk

open Program

/-- Disks that differ at most in the order of listings and in the effects on them. -/
structure Alike (first second : Disk) : Prop where
  /-- The trees are the same but for the order of listings. -/
  tree : first.tree.Same second.tree
  /-- Paths start at the same place. -/
  current : first.current = second.current
  /-- The same files cannot be removed. -/
  locked : first.locked = second.locked
  /-- The same has been told. -/
  notices : first.notices = second.notices

instance : IsEquiv Disk Alike where
  refl _ := ⟨rfl, rfl, rfl, rfl⟩
  symm _ _ same :=
    ⟨symm_of _ same.tree, same.current.symm, same.locked.symm, same.notices.symm⟩
  trans _ _ _ first second := ⟨trans_of _ first.tree second.tree,
    first.current.trans second.current, first.locked.trans second.locked,
    first.notices.trans second.notices⟩

/-- Disks that are alike differ in their trees and in what was noted of their past. -/
theorem Alike.cases {motive : Disk → Disk → Prop}
    (differ : ∀ {first second : FileTree}, first.Same second →
      ∀ current locked effects others notices, motive ⟨first, current, locked, effects, notices⟩
        ⟨second, current, locked, others, notices⟩)
    {first second : Disk} (same : Alike first second) : motive first second := by
  obtain ⟨firstTree, current, locked, effects, notices⟩ := first
  obtain ⟨secondTree, _, _, others, _⟩ := second
  obtain ⟨tree, sameCurrent, sameLocked, sameNotices⟩ := same
  dsimp only at sameCurrent sameLocked sameNotices
  subst sameCurrent sameLocked sameNotices
  exact differ tree _ _ _ _ _

/-- Trees that are changed in the same way are on disks that are alike. -/
theorem update_alike {before other : FileTree} (same : before.Same other) (current : Location)
    (locked : List Location) (effects others : List FileEffect) (notices : List Notice)
    {change changed : Except StorageFault FileTree} (outcome : FileTree.SameChange change changed) :
    ((Disk.mk before current locked effects notices).update change).1 =
        ((Disk.mk other current locked others notices).update changed).1 ∧
      Alike ((Disk.mk before current locked effects notices).update change).2
        ((Disk.mk other current locked others notices).update changed).2 := by
  cases outcome with
  | error fault => exact ⟨rfl, same, rfl, rfl, rfl⟩
  | ok trees => exact ⟨rfl, trees, rfl, rfl, rfl⟩

/-- Telling something does the same on disks that are alike. -/
theorem tell_twins (notice : Notice) :
    Twins Alike (Journal.tell notice : OnDisk Unit) (Journal.tell notice) :=
  fun _ _ same =>
    ⟨rfl, same.tree, same.current, same.locked, congrArg (notice :: ·) same.notices⟩

/-- Looking for a directory does. -/
theorem isDirectory_twins (path : Path) :
    Twins Alike (Storage.isDirectory path : OnDisk Bool) (Storage.isDirectory path) :=
  fun _ _ => Alike.cases fun same current _ _ _ _ =>
    ⟨same.isDirectoryAt current path, same, rfl, rfl, rfl⟩

/-- Finding the place of a path does. -/
theorem canonical_twins (path : Path) :
    Twins Alike (Storage.canonical path : OnDisk (Option Path)) (Storage.canonical path) :=
  fun _ _ => Alike.cases fun same current _ _ _ _ =>
    ⟨by simp only [value, Storage.canonical, same.resolve], same, rfl, rfl, rfl⟩

/-- Reading a file does. -/
theorem readText_twins (path : Path) :
    Twins Alike (Storage.readText path : OnDisk (Except StorageFault String))
      (Storage.readText path) :=
  fun _ _ => Alike.cases fun same current _ _ _ _ =>
    ⟨same.readText current path, same, rfl, rfl, rfl⟩

/-- Making directories does. -/
theorem makeDirectories_twins (path : Path) :
    Twins Alike (Storage.makeDirectories path : OnDisk (Except StorageFault Unit))
      (Storage.makeDirectories path) :=
  fun _ _ => Alike.cases fun same current _ _ _ _ =>
    have outcome := same.makeDirectories current (stepsFor path) path
    ⟨outcome.1, outcome.2, rfl, rfl, rfl⟩

/-- Writing a file does. -/
theorem writeText_twins (path : Path) (text : String) :
    Twins Alike (Storage.writeText path text : OnDisk (Except StorageFault Unit))
      (Storage.writeText path text) :=
  fun _ _ => Alike.cases fun same current _ _ _ _ =>
    have outcome := update_alike same current _ _ _ _ (same.writeBytes current path text.toUTF8)
    ⟨outcome.1, outcome.2⟩

/-- Removing a file does. -/
theorem removeFile_twins (path : Path) :
    Twins Alike (Storage.removeFile path : OnDisk (Except StorageFault Unit))
      (Storage.removeFile path) :=
  fun _ _ => Alike.cases fun same current locked _ _ _ =>
    have outcome := update_alike same current locked _ _ _ (same.removeFile locked current path)
    ⟨outcome.1, outcome.2⟩

/-- Telling the notices of a result does the same on disks that are alike. -/
theorem publish_twins {α : Type} (noted : Noted α) :
    Twins Alike (noted.publish : OnDisk α) noted.publish := by
  refine .bind ?_ fun _ => .pure _
  induction noted.notices with
  | nil => exact .pure _
  | cons notice rest ih => exact .bind (tell_twins notice) fun _ => ih

end Disk

namespace Run

open Disk Program

variable {α ε : Type} (first second : Pool.Schedule) (root : Path) (config : Config)

/-- A step that tells something does the same on disks that are alike. -/
theorem note_twins (level : Level) (text : String) :
    Twins Alike (note level text : Step OnDisk Unit).run (note level text : Step OnDisk Unit).run :=
  .run_lift (tell_twins _)

/-- Answers that are the same are the same as steps. -/
theorem attempt_sameAt {wrap : ε → RunError} {answer answered : OnDisk (Except ε α)}
    {disk other : Disk} (same : SameAt Alike answer answered disk other) :
    SameAt Alike (attempt wrap answer : Step OnDisk α).run
      (attempt wrap answered : Step OnDisk α).run disk other :=
  same.bind fun _ => .pure _

/-- Answers that do the same on disks that are alike do so as steps. -/
theorem attempt_twins {wrap : ε → RunError} {answer answered : OnDisk (Except ε α)}
    (twins : Twins Alike answer answered) :
    Twins Alike (attempt wrap answer : Step OnDisk α).run
      (attempt wrap answered : Step OnDisk α).run :=
  fun _ _ same => attempt_sameAt (twins _ _ same)

/-- Loading a model does. -/
theorem load_twins (path : Path) :
    Twins Alike (Model.load path : OnDisk (Noted (Except ModelError (Model Float))))
      (Model.load path) := by
  refine .bind (readText_twins path) fun result => ?_
  cases result <;> exact .pure _

/-- Loading a source does. -/
theorem loadSource_twins (path : Path) : Twins Alike (loadSource path) (loadSource path) :=
  .bind (load_twins path) fun _ => .pure _

/-- Sources are read in the same way by any two pools. -/
theorem readSources_twins (sources : List Path) :
    Twins Alike (readSources first sources : Step OnDisk (List (Model Float))).run
      (readSources second sources : Step OnDisk (List (Model Float))).run := by
  have quiet : ∀ path, Keeps Alike (loadSource path) := by
    intro path
    refine .bind (.bind (fun disk => ⟨rfl, rfl, rfl, rfl⟩) fun result => ?_) fun _ => .pure _
    cases result <;> exact .pure _
  exact attempt_twins (.bind (.runJobs quiet loadSource_twins first second _) fun _ => .pure _)

/-- Loading the templates does the same on disks that are alike. -/
theorem loadTemplates_twins (behavior appearance geometry : Option Path) :
    Twins Alike
      (Templates.load behavior appearance geometry : ExceptT EmitError OnDisk Templates).run
      (Templates.load behavior appearance geometry : ExceptT EmitError OnDisk Templates).run := by
  have text : ∀ (file : Option Path) (builtin : String),
      Twins Alike ((file.map Templates.readText).getD (pure builtin) :
          ExceptT EmitError OnDisk String).run
        ((file.map Templates.readText).getD (pure builtin) : ExceptT EmitError OnDisk String).run := by
    intro file builtin
    cases file with
    | none => exact .run_pure builtin
    | some path =>
      refine .run_bind (.run_lift (readText_twins path)) fun result => ?_
      cases result <;> exact .pure _
  have model : ∀ (file : Option Path) (builtin : Model Float),
      Twins Alike ((file.map Templates.readModel).getD (pure builtin) :
          ExceptT EmitError OnDisk (Model Float)).run
        ((file.map Templates.readModel).getD (pure builtin) :
          ExceptT EmitError OnDisk (Model Float)).run := by
    intro file builtin
    cases file with
    | none => exact .run_pure builtin
    | some path =>
      refine .run_bind (.run_lift (load_twins path)) fun loaded =>
        .run_bind (.run_lift (publish_twins loaded)) fun result => ?_
      cases result <;> exact .pure _
  exact .run_bind (publish_twins _) fun _ => .run_bind (text _ _) fun _ =>
    .run_bind (text _ _) fun _ => .run_bind (model _ _) fun _ => .run_pure _

/-- The same sources are found on disks that are alike. -/
theorem discover_sameAt (directory : Path) {disk other : Disk} (same : Alike disk other)
    (formed : disk.tree.WellFormed) (otherFormed : other.tree.WellFormed) :
    SameAt Alike (Sources.discover directory : OnDisk (Except (Path × StorageFault) (List Path)))
      (Sources.discover directory) disk other := by
  refine ⟨?_, same.tree, same.current, same.locked, same.notices⟩
  change (disk.tree.filesBelow disk.current directory).map Sources.ofFiles =
    (other.tree.filesBelow other.current directory).map Sources.ofFiles
  rw [same.current]
  exact Sources.ofFiles_same same.tree formed otherFormed other.current directory

/-- The same plan is made on disks that are alike by any two pools. -/
theorem plan_sameAt (directory : Path) {disk other : Disk} (same : Alike disk other)
    (formed : disk.tree.WellFormed) (otherFormed : other.tree.WellFormed) :
    SameAt Alike (Run.plan first root config directory : Step OnDisk Plan).run
      (Run.plan second root config directory : Step OnDisk Plan).run disk other := by
  have found := discover_sameAt directory same formed otherFormed
  unfold Run.plan
  refine (attempt_sameAt found).run_bind fun sources _ =>
    Twins.run_bind (note_twins _ _) (fun _ =>
    .run_bind (readSources_twins first second sources) fun models =>
    .run_bind (.run_lift (publish_twins _)) fun compiled =>
    .run_bind (.run_forIn (fun prefab => .run_bind (note_twins _ _) fun _ => .run_pure _) _) fun _ =>
    .run_bind (attempt_twins (loadTemplates_twins _ _ _)) fun templates =>
    .run_bind (attempt_twins (publish_twins _)) fun artifacts => ?_) _ _
      (attempt_sameAt found).final
  cases compiled.compilation.skipped.isEmpty with
  | true => exact .run_pure _
  | false => exact .run_bind (note_twins _ _) fun _ => .run_pure _

/-- Making a directory does the same on disks that are alike. -/
theorem ensureDirectory_twins (path : Path) :
    Twins Alike (ensureDirectory path : OnDisk (Except EmitError Unit)) (ensureDirectory path) :=
  .bind (makeDirectories_twins path) fun _ => .pure _

/-- Making the directories for all artifacts does. -/
theorem ensureDirectories_twins (directories : List Path) :
    Twins Alike (ensureDirectories root directories).run (ensureDirectories root directories).run :=
  .run_forIn (fun _ => .run_bind (attempt_twins (ensureDirectory_twins _)) fun _ => .run_pure _) _

/-- Writing an artifact does. -/
theorem writeArtifact_twins (artifact : Artifact) :
    Twins Alike (writeArtifact root artifact : OnDisk (Except EmitError Path))
      (writeArtifact root artifact) := by
  have parents : ∀ path, Twins Alike (makeParents path).run (makeParents path).run := by
    intro path
    rw [makeParents]
    cases path.parent? with
    | none => exact .run_pure _
    | some directory => exact ensureDirectory_twins directory
  rw [writeArtifact_eq, write_eq]
  exact .run_bind (parents _) fun _ =>
    .run_bind (.bind (writeText_twins _ _) fun _ => .pure _) fun _ => .run_pure _

/-- Writing artifacts one after the other does. -/
theorem writeArtifacts_twins (artifacts : List Artifact) :
    Twins Alike (writeArtifacts root artifacts : OnDisk (Except EmitError (List Path)))
      (writeArtifacts root artifacts) := by
  induction artifacts with
  | nil => exact .pure _
  | cons artifact rest ih =>
    rw [writeArtifacts_cons]
    exact .run_bind (writeArtifact_twins root artifact) fun _ =>
      .run_bind (.run_lift (tell_twins _)) fun _ => .run_bind ih fun _ => .run_pure _

/-- Finding the place of a file does. -/
theorem place_twins (path : Path) :
    Twins Alike (place path : OnDisk Path) (place path) :=
  .bind (canonical_twins path) fun _ => .pure _

/-- Removing sources does. -/
theorem removeSources_twins (outputs sources : List Path) :
    Twins Alike (removeSources outputs sources : Step OnDisk (List Path)).run
      (removeSources outputs sources : Step OnDisk (List Path)).run := by
  induction sources with
  | nil => exact .run_pure _
  | cons source rest ih =>
    rw [removeSources]
    refine .run_bind (.run_lift (place_twins source)) fun location => ?_
    split
    · exact .run_bind (note_twins _ _) fun _ => ih
    · exact .run_bind (attempt_twins (removeFile_twins source)) fun _ =>
        .run_bind (note_twins _ _) fun _ => .run_bind ih fun _ => .run_pure _

/-- Removing the compiled sources of a plan does. -/
theorem removePlanned_twins (keep : Bool) (sources written : List Path) :
    Twins Alike (removePlanned keep sources written : Step OnDisk (List Path)).run
      (removePlanned keep sources written : Step OnDisk (List Path)).run := by
  rw [removePlanned]
  cases keep with
  | true => exact .run_bind (note_twins _ _) fun _ => .run_pure _
  | false =>
    exact .run_bind (.run_lift (.mapM place_twins written)) fun _ => removeSources_twins _ sources

end Run

end PhysicsPrefab
