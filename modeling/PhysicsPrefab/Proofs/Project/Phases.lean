import PhysicsPrefab.Proofs.Project.Planning
import PhysicsPrefab.Proofs.Project.Writing

/-!
# The phases of a run

A run first reads, then writes, then removes (`Run.run_phases`), whatever the tree, the settings,
the mode and the order in which workers move. It writes only after everything has been read and
made, and it removes only after everything has been written. So a run that fails leaves the tree
as it was, unless it was the writing that failed, and even then nothing is missing; only a source
that could not be removed stops a run that has removed something.
-/

namespace PhysicsPrefab

open Program

namespace Run

/-- The disks between the phases of a run, and what is known of each. -/
structure Phases (root : Path) (config : Config) (mode : RunMode)
    (before planned written after : Disk) (outcome : Except RunError RunReport) : Prop where
  /-- At first there is nothing but reading. -/
  reads : Disk.Reads before planned
  /-- Then there is nothing but writing. -/
  writes : Disk.Writes planned written
  /-- At last there is nothing but removing. -/
  removes : Disk.Removes written after
  /-- A check only reads. -/
  checked : mode = .check → after = planned
  /-- If anything was written, everything had been read and made; if anything was removed, every
  artifact had been written. -/
  prepared : after.history ≠ planned.history → ∃ sources models templates plan,
    Prepared root config (root.join config.sourceDirectory) before planned sources models
      templates plan ∧
    (after.history ≠ written.history → ∀ artifact ∈ plan.artifacts.flatten ++ [plan.index],
      Written root artifact planned written)
  /-- After a failure nothing is missing, unless a source could not be removed. -/
  kept : ∀ error, outcome = .error error →
    RemovalFailed error written after ∨ before.tree.Grows after.tree
  /-- After a failure the tree is as it was, unless something could not be written or removed. -/
  unchanged : ∀ error, outcome = .error error →
    RemovalFailed error written after ∨ WritingFailed error ∨
      after.tree = before.tree

/-- A run that has only read. -/
theorem Phases.of_reads {root : Path} {config : Config} {before after : Disk}
    (reads : Disk.Reads before after) (mode : RunMode) (outcome : Except RunError RunReport) :
    Phases root config mode before after after after outcome where
  reads := reads
  writes := refl_of _ after
  removes := refl_of _ after
  checked _ := rfl
  prepared changed := absurd rfl changed
  kept _ _ := .inr (reads.tree ▸ refl_of _ _)
  unchanged _ _ := .inr (.inr reads.tree)

/-- A run that has made a plan and goes on to write and then to remove. -/
theorem exists_phases_of_prepared (schedule : Pool.Schedule) {root : Path} {config : Config}
    {before planned : Disk} {sources : List Path} {models : List (Model Float)}
    {templates : Templates} {plan : Plan} (reads : Disk.Reads before planned)
    (prepared : Prepared root config (root.join config.sourceDirectory) before planned sources
      models templates plan)
    {rest : List Path → Step OnDisk RunReport}
    (obeys : ∀ paths, Obeys Disk.Removes RemovalFailed (rest paths)) :
    let program := writePlan schedule root config.layout plan >>= rest
    ∃ written, Phases root config .write before planned written (final program.run planned)
      (value program.run planned) := by
  intro program
  have writing := writePlan_obeys schedule root config.layout plan
  have writes := writing.keeps planned
  refine ⟨final (writePlan schedule root config.layout plan : Step OnDisk _).run planned, ?_⟩
  cases outcome : value (writePlan schedule root config.layout plan :
      Step OnDisk (List Path)).run planned with
  | error error =>
    obtain ⟨isError, isAfter⟩ := run_bind_error _ rest planned outcome
    have failed : WritingFailed error := writing.blamed planned error outcome
    rw [isAfter, isError]
    constructor
    case reads => exact reads
    case writes => exact writes
    case removes => exact refl_of _ _
    case checked => exact nofun
    case prepared =>
      intro _
      exact ⟨sources, models, templates, plan, prepared, fun changed => absurd rfl changed⟩
    case kept => exact fun _ _ => .inr (reads.tree ▸ writes.tree)
    case unchanged => exact fun _ same => .inr (.inl (Except.error.inj same ▸ failed))
  | ok paths =>
    obtain ⟨isNext, isAfter⟩ := run_bind_ok _ rest planned outcome
    have allWritten := writePlan_written schedule root outcome
    rw [isAfter, isNext]
    constructor
    case reads => exact reads
    case writes => exact writes
    case removes => exact (obeys paths).keeps _
    case checked => exact nofun
    case prepared =>
      intro _
      exact ⟨sources, models, templates, plan, prepared, fun _ => allWritten⟩
    case kept => exact fun error failed => .inl ((obeys paths).blamed _ error failed)
    case unchanged => exact fun error failed => .inl ((obeys paths).blamed _ error failed)

/-- In a run nothing is written before everything has been read and made, and nothing is removed
before everything has been written; and a run that fails has not harmed the tree. -/
theorem run_phases (schedule : Pool.Schedule) (root : Path) (config : Config) (mode : RunMode)
    (before : Disk) :
    ∃ planned written, Phases root config mode before planned written
      (final (run schedule root config mode : Step OnDisk RunReport).run before)
      (value (run schedule root config mode : Step OnDisk RunReport).run before) := by
  unfold run
  have looked : value (ExceptT.lift (Storage.isDirectory (root.join config.sourceDirectory)) :
      Step OnDisk Bool).run before =
        .ok (before.tree.isDirectoryAt before.current (root.join config.sourceDirectory)) := rfl
  rw [(run_bind_ok _ _ before looked).1, (run_bind_ok _ _ before looked).2]
  change ∃ planned written, Phases root config mode before planned written (final _ before)
    (value _ before)
  cases before.tree.isDirectoryAt before.current (root.join config.sourceDirectory) with
  | false =>
    rw [if_pos Bool.not_false]
    refine ⟨_, _, .of_reads ?_ mode _⟩
    exact (IsReader.run_bind (.note _ _) fun _ => .run_pure _).reads before
  | true =>
    rw [if_neg (by decide)]
    have reads := (plan_isReader schedule root config
      (root.join config.sourceDirectory)).reads before
    cases outcome : value (Run.plan schedule root config (root.join config.sourceDirectory) :
        Step OnDisk Plan).run before with
    | error error =>
      rw [(run_bind_error _ _ before outcome).1, (run_bind_error _ _ before outcome).2]
      exact ⟨_, _, .of_reads reads mode _⟩
    | ok plan =>
      rw [(run_bind_ok _ _ before outcome).1, (run_bind_ok _ _ before outcome).2]
      obtain ⟨sources, models, templates, prepared⟩ := plan_prepared schedule root config _ outcome
      cases mode with
      | check =>
        refine ⟨_, _, .of_reads (trans_of Disk.Reads reads ?_) .check _⟩
        exact (IsReader.run_bind (.note _ _) fun _ => .run_pure _).reads _
      | write =>
        refine ⟨_, exists_phases_of_prepared schedule reads prepared fun paths => ?_⟩
        exact .bind (removePlanned_obeys _ _ _) fun _ => .bind (note_removes _ _) fun _ => .pure _

end Run

end PhysicsPrefab
