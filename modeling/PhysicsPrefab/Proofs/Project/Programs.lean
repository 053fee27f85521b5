import Mathlib.Order.Defs.Unbundled

/-!
# Programs with a state

What a program gives and where it leads, apart from each other. A program keeps a relation if
the state before it and the state after it are always related; programs that keep a preorder can
be put together freely (`Keeps.bind`, `Keeps.run_bind`).
-/

namespace PhysicsPrefab.Program

variable {σ α β ε : Type}

/-- What a program gives. -/
def value (program : StateM σ α) (state : σ) : α := (program state).1

/-- The state after a program. -/
def final (program : StateM σ α) (state : σ) : σ := (program state).2

@[simp] theorem value_pure (result : α) (state : σ) :
    value (pure result : StateM σ α) state = result := rfl

@[simp] theorem value_bind (program : StateM σ α) (next : α → StateM σ β) (state : σ) :
    value (program >>= next) state = value (next (value program state)) (final program state) :=
  rfl

@[simp] theorem final_bind (program : StateM σ α) (next : α → StateM σ β) (state : σ) :
    final (program >>= next) state = final (next (value program state)) (final program state) :=
  rfl

/-- Wrapping errors does not change what succeeds. -/
theorem mapError_eq_ok {δ : Type} {wrap : δ → ε} {answer : Except δ α} {made : α} :
    answer.mapError wrap = .ok made ↔ answer = .ok made := by
  cases answer with
  | error error => exact ⟨nofun, nofun⟩
  | ok other =>
    exact ⟨fun same => congrArg _ (Except.ok.inj same), fun same => congrArg _ (Except.ok.inj same)⟩

section Failing

variable (program : ExceptT ε (StateM σ) α) (next : α → ExceptT ε (StateM σ) β) (state : σ)

/-- After a failure nothing more is done. -/
theorem run_bind_error {error : ε} (failed : value program.run state = .error error) :
    value (program >>= next).run state = .error error ∧
      final (program >>= next).run state = final program.run state := by
  rw [ExceptT.run_bind, value_bind, final_bind, failed]
  exact ⟨rfl, rfl⟩

/-- After a success the program goes on with what was made. -/
theorem run_bind_ok {made : α} (succeeded : value program.run state = .ok made) :
    value (program >>= next).run state = value (next made).run (final program.run state) ∧
      final (program >>= next).run state = final (next made).run (final program.run state) := by
  rw [ExceptT.run_bind, value_bind, final_bind, succeeded]
  exact ⟨rfl, rfl⟩

/-- A program that cannot fail goes on with what it gives. -/
theorem run_lift_bind (first : StateM σ α) (next : α → ExceptT ε (StateM σ) β) :
    value (ExceptT.lift first >>= next).run state =
        value (next (value first state)).run (final first state) ∧
      final (ExceptT.lift first >>= next).run state =
        final (next (value first state)).run (final first state) := ⟨rfl, rfl⟩

/-- A program that fails has failed in one of its parts. -/
theorem error_of_run_bind {error : ε} (failed : value (program >>= next).run state = .error error) :
    value program.run state = .error error ∨ ∃ made, value program.run state = .ok made ∧
      value (next made).run (final program.run state) = .error error := by
  cases outcome : value program.run state with
  | error other =>
    rw [(run_bind_error program next state outcome).1] at failed
    exact .inl (congrArg _ (Except.error.inj failed))
  | ok made =>
    rw [(run_bind_ok program next state outcome).1] at failed
    exact .inr ⟨made, rfl, failed⟩

/-- A program that succeeds has succeeded in both its parts. -/
theorem exists_of_run_bind_ok {result : β}
    (succeeded : value (program >>= next).run state = .ok result) :
    ∃ made, value program.run state = .ok made ∧
      value (next made).run (final program.run state) = .ok result := by
  cases outcome : value program.run state with
  | error error =>
    rw [(run_bind_error program next state outcome).1] at succeeded
    contradiction
  | ok made =>
    rw [(run_bind_ok program next state outcome).1] at succeeded
    exact ⟨made, rfl, succeeded⟩

/-- What a program gives is changed at last. -/
theorem run_bind_pure (change : α → β) :
    value (program >>= fun made => pure (change made)).run state =
        (value program.run state).map change ∧
      final (program >>= fun made => pure (change made)).run state = final program.run state := by
  cases outcome : value program.run state with
  | error error => exact run_bind_error program _ state outcome
  | ok made => exact run_bind_ok program (fun made => pure (change made)) state outcome

end Failing

/-- A program leads only to related states. -/
def Keeps (related : σ → σ → Prop) (program : StateM σ α) : Prop :=
  ∀ state, related state (final program state)

namespace Keeps

variable {related : σ → σ → Prop} [IsPreorder σ related]

/-- A program that does nothing keeps the relation. -/
theorem pure (result : α) : Keeps related (Pure.pure result : StateM σ α) :=
  fun state => refl_of related state

/-- Programs one after the other keep the relation. -/
theorem bind {program : StateM σ α} {next : α → StateM σ β} (first : Keeps related program)
    (rest : ∀ result, Keeps related (next result)) : Keeps related (program >>= next) :=
  fun state => trans_of related (first state) (rest _ _)

/-- Programs that may fail keep the relation one after the other. -/
theorem run_bind {program : ExceptT ε (StateM σ) α} {next : α → ExceptT ε (StateM σ) β}
    (first : Keeps related program.run) (rest : ∀ result, Keeps related (next result).run) :
    Keeps related (program >>= next).run := by
  rw [ExceptT.run_bind]
  refine bind first fun result => ?_
  cases result with
  | ok made => exact rest made
  | error error => exact pure _

/-- A program for each item of a list keeps the relation. -/
theorem mapM {visit : α → StateM σ β} (each : ∀ item, Keeps related (visit item))
    (items : List α) : Keeps related (items.mapM visit) := by
  induction items with
  | nil => exact pure _
  | cons item rest ih =>
    rw [List.mapM_cons]
    exact bind (each item) fun _ => bind ih fun _ => pure _

/-- A program that cannot fail keeps the relation also among those that may. -/
theorem run_lift {program : StateM σ α} (keeps : Keeps related program) :
    Keeps related (ExceptT.lift program : ExceptT ε (StateM σ) α).run := by
  rw [ExceptT.run_lift]
  exact bind keeps fun _ => pure _

/-- A loop keeps the relation if each of its visits does. -/
theorem forIn_of_mem {visit : α → PUnit → ExceptT ε (StateM σ) (ForInStep PUnit)}
    {items : List α} (each : ∀ item ∈ items, Keeps related (visit item PUnit.unit).run) :
    Keeps related (ForIn.forIn items PUnit.unit visit).run := by
  induction items with
  | nil => exact pure _
  | cons item rest ih =>
    obtain ⟨first, others⟩ := List.forall_mem_cons.1 each
    rw [List.forIn_cons]
    refine run_bind first fun result => ?_
    cases result with
    | done _ => exact pure _
    | yield _ => exact ih others

omit [IsPreorder σ related] in
/-- If programs succeed one after the other, the second starts with what the first has made, where
the first has led. -/
theorem exists_next {program : ExceptT ε (StateM σ) α} {next : α → ExceptT ε (StateM σ) β}
    (first : Keeps related program.run) {state last : σ} {result : β}
    (succeeded : value (program >>= next).run state = .ok result)
    (leads : final (program >>= next).run state = last) :
    ∃ made later, value program.run state = .ok made ∧ final program.run state = later ∧
      related state later ∧ value (next made).run later = .ok result ∧
      final (next made).run later = last := by
  obtain ⟨made, isMade, more⟩ := exists_of_run_bind_ok program next state succeeded
  exact ⟨made, _, isMade, rfl, first state, more,
    (run_bind_ok program next state isMade).2.symm.trans leads⟩

end Keeps

/-- Causes that may lie behind related states. -/
class Carried (related : σ → σ → Prop) (blames : ε → σ → σ → Prop) : Prop where
  /-- A cause that is found later could have been found earlier. -/
  behind : ∀ {error : ε} {first second third : σ}, related first second →
    blames error second third → blames error first third

/-- A cause that has nothing to do with states. -/
def Anywhere (known : ε → Prop) (error : ε) (_before _after : σ) : Prop := known error

instance (related : σ → σ → Prop) (known : ε → Prop) : Carried related (Anywhere known) where
  behind _ isKnown := isKnown

/-- A program that keeps a relation and, if it fails, gives an error for a known cause. -/
structure Obeys (related : σ → σ → Prop) (blames : ε → σ → σ → Prop)
    (program : ExceptT ε (StateM σ) α) : Prop where
  /-- The relation is kept. -/
  keeps : Keeps related program.run
  /-- A failure has a known cause. -/
  blamed : ∀ state error, value program.run state = .error error →
    blames error state (final program.run state)

namespace Obeys

variable {related : σ → σ → Prop} [IsPreorder σ related] {blames : ε → σ → σ → Prop}

/-- A program that cannot fail obeys if it keeps the relation. -/
theorem lift {program : StateM σ α} (keeps : Keeps related program) :
    Obeys related blames (ExceptT.lift program : ExceptT ε (StateM σ) α) where
  keeps := keeps.run_lift
  blamed state error failed := by
    rw [ExceptT.run_lift] at failed
    exact nomatch failed

/-- A program that does nothing obeys. -/
theorem pure (result : α) :
    Obeys related blames (Pure.pure result : ExceptT ε (StateM σ) α) :=
  ⟨.pure _, fun _ _ failed => nomatch failed⟩

/-- An answer whose errors are wrapped obeys if every wrapped error has a known cause. -/
theorem wrapped {δ : Type} {answer : StateM σ (Except δ α)} (keeps : Keeps related answer)
    {wrap : δ → ε} (known : ∀ state error, value answer state = .error error →
      blames (wrap error) state (final answer state)) :
    Obeys related blames
      (ExceptT.mk (do return (← answer).mapError wrap) : ExceptT ε (StateM σ) α) where
  keeps := keeps.bind fun _ => .pure _
  blamed state error failed := by
    change (value answer state).mapError wrap = .error error at failed
    cases outcome : value answer state with
    | error cause =>
      rw [outcome] at failed
      exact Except.error.inj failed ▸ known state cause outcome
    | ok made =>
      rw [outcome] at failed
      exact nomatch failed

section Sequences

variable [Carried related blames]

/-- Programs that obey do so one after the other. -/
theorem bind {program : ExceptT ε (StateM σ) α} {next : α → ExceptT ε (StateM σ) β}
    (first : Obeys related blames program) (rest : ∀ result, Obeys related blames (next result)) :
    Obeys related blames (program >>= next) where
  keeps := first.keeps.run_bind fun result => (rest result).keeps
  blamed state error failed := by
    rcases error_of_run_bind program next state failed with early | ⟨made, isMade, late⟩
    · rw [(run_bind_error program next state early).2]
      exact first.blamed state error early
    · rw [(run_bind_ok program next state isMade).2]
      exact Carried.behind (first.keeps state) ((rest made).blamed _ error late)

/-- A loop of programs that obey obeys. -/
theorem forIn {visit : α → PUnit → ExceptT ε (StateM σ) (ForInStep PUnit)}
    (each : ∀ item, Obeys related blames (visit item PUnit.unit)) (items : List α) :
    Obeys related blames (ForIn.forIn items PUnit.unit visit) := by
  induction items with
  | nil => exact pure _
  | cons item rest ih =>
    rw [List.forIn_cons]
    refine bind (each item) fun result => ?_
    cases result with
    | done _ => exact pure _
    | yield _ => exact ih

end Sequences

end Obeys

end PhysicsPrefab.Program
