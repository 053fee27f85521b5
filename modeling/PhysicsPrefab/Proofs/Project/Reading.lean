import PhysicsPrefab.Project.Run
import PhysicsPrefab.Proofs.Files.Disk
import PhysicsPrefab.Proofs.Project.Outcomes

/-!
# Reading

A program that only reads leaves the tree as it is, and what it gives depends on the tree alone
(`IsReader`). After reading it gives the same (`IsReader.value_eq`), and a pool of readers is a
reader under every schedule (`IsReader.runJobs`).
-/

namespace PhysicsPrefab

open Program

namespace Run

variable {α ε : Type} {wrap : ε → RunError} {answer : OnDisk (Except ε α)} {disk : Disk}

/-- A step gives the answer that it is made from. -/
theorem value_attempt {made : α} :
    value (attempt wrap answer : Step OnDisk α).run disk = .ok made ↔
      value answer disk = .ok made :=
  mapError_eq_ok

/-- A step leads where the answer that it is made from leads. -/
theorem final_attempt :
    final (attempt wrap answer : Step OnDisk α).run disk = final answer disk := rfl

end Run

/-- A program that only reads, and whose result depends on the tree alone. -/
structure IsReader {α : Type} (program : OnDisk α) : Prop where
  /-- Only reading happens. -/
  reads : Keeps Disk.Reads program
  /-- On equal trees the result is the same. -/
  same : ∀ {first second : Disk}, second.tree = first.tree → second.current = first.current →
    value program second = value program first

namespace IsReader

variable {α β ε : Type}

/-- After reading a reader gives what it would have given before. -/
theorem value_eq {program : OnDisk α} (reader : IsReader program) {before after : Disk}
    (reads : Disk.Reads before after) : value program after = value program before :=
  reader.same reads.tree reads.current

/-- A program that does nothing is a reader. -/
theorem pure (result : α) : IsReader (Pure.pure result : OnDisk α) :=
  ⟨Keeps.pure result, fun _ _ => rfl⟩

/-- A silent program with one result is a reader. -/
theorem of_silent {program : OnDisk α} (silent : Keeps Disk.Silent program)
    (same : ∀ {first second : Disk}, second.tree = first.tree → second.current = first.current →
      value program second = value program first) : IsReader program :=
  ⟨fun disk => (silent disk).reads, same⟩

/-- Readers one after the other are a reader. -/
theorem bind {program : OnDisk α} {next : α → OnDisk β} (first : IsReader program)
    (rest : ∀ result, IsReader (next result)) : IsReader (program >>= next) := by
  refine ⟨first.reads.bind fun result => (rest result).reads, fun sameTree sameCurrent => ?_⟩
  rw [value_bind, value_bind, first.same sameTree sameCurrent]
  refine (rest _).same ?_ ?_
  · rw [(first.reads _).tree, (first.reads _).tree, sameTree]
  · rw [(first.reads _).current, (first.reads _).current, sameCurrent]

/-- Readers that may fail are a reader one after the other. -/
theorem run_bind {program : ExceptT ε OnDisk α} {next : α → ExceptT ε OnDisk β}
    (first : IsReader program.run) (rest : ∀ result, IsReader (next result).run) :
    IsReader (program >>= next).run := by
  rw [ExceptT.run_bind]
  refine bind first fun result => ?_
  cases result with
  | ok made => exact rest made
  | error error => exact pure _

/-- If readers succeed one after the other, the second starts with what the first has made. -/
theorem exists_next {program : ExceptT ε OnDisk α} {next : α → ExceptT ε OnDisk β}
    (first : IsReader program.run) {disk last : Disk} {result : β}
    (succeeded : value (program >>= next).run disk = .ok result)
    (leads : final (program >>= next).run disk = last) :
    ∃ made later, value program.run disk = .ok made ∧ final program.run disk = later ∧
      Disk.Reads disk later ∧ value (next made).run later = .ok result ∧
      final (next made).run later = last :=
  first.reads.exists_next succeeded leads

/-- What the first of two readers did has been done. -/
theorem did_bind {program : OnDisk α} {next : α → OnDisk β} (rest : ∀ made, IsReader (next made))
    {disk : Disk} {effect : FileEffect} (did : disk.Did effect (final program disk)) :
    disk.Did effect (final (program >>= next) disk) :=
  did.before ((rest _).reads _).happens

/-- What the first of two readers did has been done, also if the second may fail. -/
theorem did_lift {program : OnDisk α} {next : α → ExceptT ε OnDisk β}
    (rest : ∀ made, IsReader (next made).run) {disk : Disk} {effect : FileEffect}
    (did : disk.Did effect (final program disk)) :
    disk.Did effect (final (ExceptT.lift program >>= next).run disk) :=
  did.before ((rest _).reads _).happens

/-- A result that is there is read. -/
theorem run_pure (result : α) : IsReader (Pure.pure result : ExceptT ε OnDisk α).run := pure _

/-- A reader that does not fail is one among those that may. -/
theorem run_lift {program : OnDisk α} (reader : IsReader program) :
    IsReader (ExceptT.lift program : ExceptT ε OnDisk α).run := by
  rw [ExceptT.run_lift]
  exact bind reader fun _ => pure _

/-- A loop of readers is a reader. -/
theorem run_forIn {visit : α → PUnit → ExceptT ε OnDisk (ForInStep PUnit)}
    (each : ∀ item, IsReader (visit item PUnit.unit).run) (items : List α) :
    IsReader (forIn items PUnit.unit visit).run := by
  induction items with
  | nil => exact pure _
  | cons item rest ih =>
    rw [List.forIn_cons]
    refine run_bind (each item) fun result => ?_
    cases result with
    | done _ => exact pure _
    | yield _ => exact ih

/-- Telling something is reading nothing. -/
theorem tell (notice : Notice) : IsReader (Journal.tell notice : OnDisk Unit) :=
  of_silent (Disk.tell_silent notice) fun _ _ => rfl

/-- Telling the notices of a result is reading nothing. -/
theorem publish (noted : Noted α) : IsReader (noted.publish : OnDisk α) := by
  refine bind ?_ fun _ => pure _
  induction noted.notices with
  | nil => exact pure _
  | cons notice rest ih => exact bind (tell notice) fun _ => ih

/-- A step that tells something reads nothing. -/
theorem note (level : Level) (text : String) :
    IsReader (Run.note level text : Run.Step OnDisk Unit).run :=
  run_lift (tell _)

/-- A step that may tell something before it ends reads nothing. -/
theorem note_unless (quiet : Bool) (level : Level) (text : String) (result : α) :
    IsReader (do
      unless quiet do
        Run.note level text
      return result : Run.Step OnDisk α).run := by
  cases quiet with
  | true => exact run_pure result
  | false => exact run_bind (note level text) fun _ => run_pure result

/-- A step that may tell something before it ends gives what it ends with. -/
theorem value_note_unless (quiet : Bool) (level : Level) (text : String) (result : α)
    (disk : Disk) :
    value (do
      unless quiet do
        Run.note level text
      return result : Run.Step OnDisk α).run disk = .ok result := by
  cases quiet <;> rfl

/-- An answer as a step is read as the answer is. -/
theorem attempt {wrap : ε → RunError} {answer : OnDisk (Except ε α)} (reader : IsReader answer) :
    IsReader (Run.attempt wrap answer : Run.Step OnDisk α).run :=
  bind reader fun _ => pure _

/-- A pool of readers is a reader, whatever its schedule. -/
theorem runJobs {perform : α → OnDisk (Except ε β)} (each : ∀ piece, IsReader (perform piece))
    (schedule : Pool.Schedule) (jobs : List (List α)) :
    IsReader (Pool.runJobs schedule perform jobs) := by
  have reads := fun piece => (each piece).reads
  refine ⟨Pool.runJobs_keeps reads schedule jobs, fun sameTree sameCurrent => ?_⟩
  have answers := Pool.value_runJobs_of_same reads (fun piece _ _ => (each piece).value_eq)
    schedule jobs
  rw [answers, answers]
  simp only [(each _).same sameTree sameCurrent]

/-- Reading a file is reading. -/
theorem readText (path : Path) :
    IsReader (Storage.readText path : OnDisk (Except StorageFault String)) :=
  ⟨Disk.readText_reads path, fun sameTree sameCurrent => by
    simp only [value, Storage.readText, sameTree, sameCurrent]⟩

/-- Finding the sources is reading. -/
theorem discover (directory : Path) :
    IsReader (Sources.discover directory : OnDisk (Except (Path × StorageFault) (List Path))) := by
  refine bind ⟨Disk.filesBelow_reads directory, fun sameTree sameCurrent => ?_⟩ fun _ => pure _
  simp only [value, Storage.filesBelow, sameTree, sameCurrent]

/-- Loading a model is reading. -/
theorem load (path : Path) :
    IsReader (Model.load path : OnDisk (Noted (Except ModelError (Model Float)))) := by
  refine bind (readText path) fun result => ?_
  cases result <;> exact pure _

/-- Loading a text template is reading. -/
theorem textTemplate (path : Path) :
    IsReader (Templates.readText path : ExceptT EmitError OnDisk String).run := by
  refine run_bind (run_lift (readText path)) fun result => ?_
  cases result <;> exact pure _

/-- What is done with a model template that has been loaded is reading. -/
theorem adoptTemplate (loaded : Noted (Except ModelError (Model Float))) :
    IsReader (do
      match ← (loaded.publish : OnDisk (Except ModelError (Model Float))) with
      | .error error => throw (.badModelTemplate error)
      | .ok model => return model : ExceptT EmitError OnDisk (Model Float)).run := by
  refine run_bind (run_lift (publish loaded)) fun result => ?_
  cases result <;> exact pure _

/-- Loading a model template is reading. -/
theorem modelTemplate (path : Path) :
    IsReader (Templates.readModel path : ExceptT EmitError OnDisk (Model Float)).run :=
  run_bind (run_lift (load path)) adoptTemplate

/-- Loading one of the templates is reading. -/
theorem template {readFile : Path → ExceptT EmitError OnDisk α}
    (reads : ∀ path, IsReader (readFile path).run) (file : Option Path) (builtin : α) :
    IsReader ((file.map readFile).getD (Pure.pure builtin)).run := by
  cases file with
  | none => exact run_pure builtin
  | some path => exact reads path

/-- Loading the templates is reading. -/
theorem loadTemplates (behavior appearance geometry : Option Path) :
    IsReader (Templates.load behavior appearance geometry :
      ExceptT EmitError OnDisk Templates).run :=
  run_bind (publish _) fun _ => run_bind (template textTemplate _ _) fun _ =>
    run_bind (template textTemplate _ _) fun _ => run_bind (template modelTemplate _ _) fun _ =>
    run_pure _

end IsReader

end PhysicsPrefab
