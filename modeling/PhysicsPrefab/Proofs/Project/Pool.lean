import Mathlib.Data.List.Perm.Basic
import PhysicsPrefab.Project.Pool
import PhysicsPrefab.Proofs.Project.Programs

/-!
# What a pool does

Whatever the schedule, every job is settled (`runJobs_spec`): its pieces are performed in order,
all of them or up to the first that fails, its result says which, and the results stand in the
order of the jobs. In between a pool performs nothing else. The proof keeps an account of all
jobs: each has exactly one task in the pool, and the task fits what has been done for the job.
-/

namespace PhysicsPrefab.Pool

open Program

variable {α β ε σ : Type}

/-- A piece that was performed for a job. -/
structure Deed (α β ε : Type) where
  /-- The number of the job. -/
  job : Nat
  /-- The piece. -/
  piece : α
  /-- What came of it. -/
  outcome : Except ε β

/-- Deeds that lead from one state to another, each done where the one before it led. -/
inductive Trace (perform : α → StateM σ (Except ε β)) (before : σ) :
    List (Deed α β ε) → σ → Prop where
  /-- Nothing was done. -/
  | nil : Trace perform before [] before
  /-- One more piece was performed. -/
  | concat {deeds : List (Deed α β ε)} {after : σ} (earlier : Trace perform before deeds after)
      (job : Nat) (piece : α) :
      Trace perform before (deeds ++ [⟨job, piece, value (perform piece) after⟩])
        (final (perform piece) after)

/-- A trace keeps what every piece that was performed keeps. -/
theorem Trace.keeps_of_mem {related : σ → σ → Prop} [IsPreorder σ related]
    {perform : α → StateM σ (Except ε β)} {before after : σ} {deeds : List (Deed α β ε)}
    (trace : Trace perform before deeds after)
    (each : ∀ deed ∈ deeds, Keeps related (perform deed.piece)) : related before after := by
  induction trace with
  | nil => exact refl_of related before
  | concat _ _ piece ih =>
    obtain ⟨earlier, last⟩ := List.forall_mem_append.1 each
    exact trans_of related (ih earlier) (last _ (List.mem_singleton_self _) _)

/-- A trace keeps what every piece keeps. -/
theorem Trace.keeps {related : σ → σ → Prop} [IsPreorder σ related]
    {perform : α → StateM σ (Except ε β)} (each : ∀ piece, Keeps related (perform piece))
    {before after : σ} {deeds : List (Deed α β ε)} (trace : Trace perform before deeds after) :
    related before after :=
  trace.keeps_of_mem fun deed _ => each deed.piece

/-- The deeds for one job. -/
def deedsFor (job : Nat) (deeds : List (Deed α β ε)) : List (Deed α β ε) :=
  deeds.filter fun deed => deed.job = job

/-- What was done for a job settles it: every piece made something, or the last one performed
failed and those before it did not. -/
def Settles (pieces : List α) (deeds : List (Deed α β ε)) : Except ε (List β) → Prop
  | .ok made => deeds.map (·.piece) = pieces ∧ deeds.map (·.outcome) = made.map .ok
  | .error error => deeds.map (·.piece) <+: pieces ∧
    ∃ made : List β, deeds.map (·.outcome) = made.map .ok ++ [.error error]

/-- Where a job is in a pool. -/
inductive Task (α β ε : Type) where
  /-- It waits. -/
  | waiting (pieces : List α)
  /-- A worker has it. -/
  | working (pieces : List α) (made : List β)
  /-- It has failed at a worker. -/
  | failed (error : ε)
  /-- Its result has been handed in. -/
  | settled (result : Except ε (List β))

/-- A task fits what has been done for its job. -/
def Task.Fits (pieces : List α) (deeds : List (Deed α β ε)) : Task α β ε → Prop
  | waiting rest => rest = pieces ∧ deeds = []
  | working rest made =>
    deeds.map (·.piece) ++ rest = pieces ∧ deeds.map (·.outcome) = made.map .ok
  | failed error => Settles pieces deeds (.error error)
  | settled result => Settles pieces deeds result

/-- The task that a worker has, if it has one. -/
def Worker.tasks : Worker α β ε → List (Nat × Task α β ε)
  | idle => []
  | working job pieces made => [(job, .working pieces made)]
  | failed job error => [(job, .failed error)]

/-- What a worker does after it has performed a piece of its job. -/
def Worker.afterPiece (job : Nat) (rest : List α) (made : List β) :
    Except ε β → Worker α β ε
  | .ok result => .working job rest (made ++ [result])
  | .error error => .failed job error

/-- One step with the task of a job, and what is done for the job in it. -/
inductive Advance (perform : α → StateM σ (Except ε β)) (before : σ) (job : Nat) :
    Task α β ε → Task α β ε → List (Deed α β ε) → σ → Prop where
  /-- A worker takes the job. -/
  | take (pieces : List α) :
      Advance perform before job (.waiting pieces) (.working pieces []) [] before
  /-- A piece is performed. -/
  | perform {piece : α} {result : β} (rest : List α) (made : List β)
      (outcome : value (perform piece) before = .ok result) :
      Advance perform before job (.working (piece :: rest) made)
        (.working rest (made ++ [result])) [⟨job, piece, value (perform piece) before⟩]
        (final (perform piece) before)
  /-- A piece fails. -/
  | fail {piece : α} {error : ε} (rest : List α) (made : List β)
      (outcome : value (perform piece) before = .error error) :
      Advance perform before job (.working (piece :: rest) made) (.failed error)
        [⟨job, piece, value (perform piece) before⟩] (final (perform piece) before)
  /-- All that was made is handed in. -/
  | finish (made : List β) :
      Advance perform before job (.working [] made) (.settled (.ok made)) [] before
  /-- A failure is handed in. -/
  | giveUp (error : ε) :
      Advance perform before job (.failed error) (.settled (.error error)) [] before

namespace Advance

variable {perform : α → StateM σ (Except ε β)} {start before after : σ} {job : Nat}
  {old new : Task α β ε} {earlier deeds : List (Deed α β ε)}

/-- A step goes on with a trace. -/
theorem trace (advance : Advance perform before job old new deeds after)
    (earlierTrace : Trace perform start earlier before) :
    Trace perform start (earlier ++ deeds) after := by
  cases advance with
  | take | finish | giveUp => rwa [List.append_nil]
  | perform | fail => exact .concat earlierTrace job _

/-- In a step only something for its job is done. -/
theorem job_eq (advance : Advance perform before job old new deeds after) :
    ∀ deed ∈ deeds, deed.job = job := by
  cases advance <;> simp

/-- A task still fits after a step. -/
theorem fits {pieces : List α} (advance : Advance perform before job old new deeds after)
    (oldFits : old.Fits pieces earlier) : new.Fits pieces (earlier ++ deeds) := by
  cases advance with
  | take rest =>
    obtain ⟨rfl, rfl⟩ := oldFits
    exact ⟨rfl, rfl⟩
  | perform rest made outcome =>
    obtain ⟨rfl, outcomes⟩ := oldFits
    exact ⟨by simp, by simp [outcomes, outcome]⟩
  | fail rest made outcome =>
    obtain ⟨rfl, outcomes⟩ := oldFits
    exact ⟨⟨rest, by simp⟩, made, by simp [outcomes, outcome]⟩
  | finish made =>
    obtain ⟨rfl, outcomes⟩ := oldFits
    exact ⟨by simp, by simp [outcomes]⟩
  | giveUp error =>
    rw [List.append_nil]
    exact oldFits

end Advance

namespace State

/-- The tasks of a pool. -/
def tasks (state : State α β ε) : List (Nat × Task α β ε) :=
  state.waiting.map (fun entry => (entry.1, .waiting entry.2)) ++
    state.workers.flatMap Worker.tasks ++
    state.results.map fun entry => (entry.1, .settled entry.2)

/-- The tasks of one worker can be put before all others. -/
theorem tasks_perm {waiting : List (Nat × List α)} {left right : List (Worker α β ε)}
    {worker : Worker α β ε} {results : List (Nat × Except ε (List β))} :
    (State.mk waiting (left ++ worker :: right) results).tasks.Perm
      (worker.tasks ++ (State.mk waiting (left ++ right) results).tasks) := by
  simp only [tasks, List.flatMap_append, List.flatMap_cons, List.append_assoc]
  exact ((List.perm_append_comm_assoc _ _ _).append_left _).trans
    (List.perm_append_comm_assoc _ _ _)

/-- A result that is handed in is a task of its own. -/
theorem tasks_report (waiting : List (Nat × List α)) (left right : List (Worker α β ε))
    (results : List (Nat × Except ε (List β))) (job : Nat) (result : Except ε (List β)) :
    (State.mk waiting (left ++ .idle :: right) (results ++ [(job, result)])).tasks.Perm
      ((job, .settled result) :: (State.mk waiting (left ++ right) results).tasks) := by
  refine tasks_perm.trans ?_
  simp only [tasks, Worker.tasks, List.nil_append, List.map_append, List.map_singleton,
    ← List.append_assoc]
  exact List.perm_append_singleton _ _

@[simp] theorem total_nil : total [] = 0 := rfl

@[simp] theorem total_cons (first : Nat) (rest : List Nat) :
    total (first :: rest) = first + total rest := rfl

@[simp] theorem total_append (first second : List Nat) :
    total (first ++ second) = total first + total second := by
  induction first with
  | nil => simp
  | cons steps rest ih => simp [ih, Nat.add_assoc]

/-- A worker that can move is there. -/
theorem mem_movable {state : State α β ε} {number : Nat} :
    number ∈ state.movable ↔
      ∃ worker, state.workers[number]? = some worker ∧ state.canMove worker := by
  simp only [movable, List.mem_map, List.mem_filter, Prod.exists, List.mk_mem_zipIdx_iff_getElem?]
  constructor
  · rintro ⟨worker, _, ⟨found, moves⟩, rfl⟩
    exact ⟨worker, found, moves⟩
  · rintro ⟨worker, found, moves⟩
    exact ⟨worker, number, ⟨found, moves⟩, rfl⟩

/-- An element in a list stands between those before and those after it. -/
theorem exists_split {items : List α} {number : Nat} {item : α}
    (found : items[number]? = some item) :
    ∃ left right, items = left ++ item :: right ∧ left.length = number := by
  obtain ⟨inside, same⟩ := List.getElem?_eq_some_iff.1 found
  refine ⟨items.take number, items.drop (number + 1), ?_, by simp; omega⟩
  rw [← same, List.getElem_cons_drop, List.take_append_drop]

/-- A step of a worker is a step with one task. The pool has then fewer steps to go. -/
theorem move_spec (perform : α → StateM σ (Except ε β)) {state : State α β ε} {number : Nat}
    (movable : number ∈ state.movable) (before : σ) :
    ∃ job old new others deeds,
      state.tasks.Perm ((job, old) :: others) ∧
      (value (state.move perform number) before).tasks.Perm ((job, new) :: others) ∧
      Advance perform before job old new deeds (final (state.move perform number) before) ∧
      (value (state.move perform number) before).stepsLeft < state.stepsLeft ∧
      (value (state.move perform number) before).workers.length = state.workers.length := by
  obtain ⟨worker, found, moves⟩ := mem_movable.1 movable
  obtain ⟨waiting, workers, results⟩ := state
  obtain ⟨left, right, rfl, rfl⟩ := exists_split found
  cases worker with
  | idle =>
    cases waiting with
    | nil => contradiction
    | cons first rest =>
      obtain ⟨job, pieces⟩ := first
      have step : move perform ⟨(job, pieces) :: rest, left ++ .idle :: right, results⟩
          left.length = (pure ⟨rest, left ++ .working job pieces [] :: right, results⟩ :
            StateM σ (State α β ε)) := by
        simp [move, setWorker]
      rw [step]
      refine ⟨job, .waiting pieces, .working pieces [],
        (State.mk rest (left ++ right) results).tasks, [], ?_, tasks_perm, .take pieces, ?_, ?_⟩
      · simp [tasks, Worker.tasks]
      · simp [stepsLeft, workLeft]
        omega
      · simp
  | working job pieces made =>
    cases pieces with
    | nil =>
      have step : move perform ⟨waiting, left ++ .working job [] made :: right, results⟩
          left.length = (pure ⟨waiting, left ++ .idle :: right,
            results ++ [(job, .ok made)]⟩ : StateM σ (State α β ε)) := by
        simp [move, report, setWorker]
      rw [step]
      exact ⟨job, .working [] made, .settled (.ok made),
        (State.mk waiting (left ++ right) results).tasks, [], tasks_perm, tasks_report _ _ _ _ _ _,
        .finish made, by simp [stepsLeft, workLeft], by simp⟩
    | cons piece rest =>
      have step : move perform ⟨waiting, left ++ .working job (piece :: rest) made :: right,
          results⟩ left.length = (do
            let outcome ← perform piece
            return ⟨waiting, left ++ Worker.afterPiece job rest made outcome :: right, results⟩ :
            StateM σ (State α β ε)) := by
        simp only [move, setWorker, List.getElem?_append_right, Nat.le_refl, Nat.sub_self,
          List.getElem?_cons_zero, List.set_append_right, List.set_cons_zero]
        refine bind_congr fun outcome => ?_
        cases outcome <;> rfl
      rw [step, value_bind, final_bind]
      cases outcome : value (perform piece) before with
      | ok result =>
        exact ⟨job, .working (piece :: rest) made, .working rest (made ++ [result]),
          (State.mk waiting (left ++ right) results).tasks, _, tasks_perm, tasks_perm,
          .perform rest made outcome, by simp [stepsLeft, workLeft, Worker.afterPiece], by simp⟩
      | error error =>
        exact ⟨job, .working (piece :: rest) made, .failed error,
          (State.mk waiting (left ++ right) results).tasks, _, tasks_perm, tasks_perm,
          .fail rest made outcome, by simp [stepsLeft, workLeft, Worker.afterPiece], by simp⟩
  | failed job error =>
    have step : move perform ⟨waiting, left ++ .failed job error :: right, results⟩
        left.length = (pure ⟨waiting, left ++ .idle :: right,
          results ++ [(job, .error error)]⟩ : StateM σ (State α β ε)) := by
      simp [move, report, setWorker]
    rw [step]
    exact ⟨job, .failed error, .settled (.error error),
      (State.mk waiting (left ++ right) results).tasks, [], tasks_perm, tasks_report _ _ _ _ _ _,
      .giveUp error, by simp [stepsLeft, workLeft], by simp⟩

end State

/-- Every job has one task, and the task fits what has been done for the job. -/
structure Account (jobs : List (List α)) (deeds : List (Deed α β ε)) (state : State α β ε) :
    Prop where
  /-- The tasks have the numbers of the jobs. -/
  numbers : (state.tasks.map (·.1)).Perm (List.range jobs.length)
  /-- Each task fits the deeds for its job. -/
  fits : ∀ task ∈ state.tasks, ∃ pieces, jobs[task.1]? = some pieces ∧
    task.2.Fits pieces (deedsFor task.1 deeds)
  /-- Nothing is done but for the jobs. -/
  known : ∀ deed ∈ deeds, deed.job < jobs.length

namespace Account

variable {jobs : List (List α)}

/-- The account of a pool before its first step. -/
theorem initial (workers : Nat) (jobs : List (List α)) :
    Account jobs [] (State.initial workers jobs : State α β ε) := by
  have idle : (List.replicate workers (Worker.idle : Worker α β ε)).flatMap Worker.tasks = [] := by
    simp [Worker.tasks]
  have tasks : (State.initial workers jobs : State α β ε).tasks =
      jobs.zipIdx.map fun entry => (entry.2, .waiting entry.1) := by
    simp [State.tasks, State.initial, idle]
  constructor
  case numbers =>
    rw [tasks, List.map_map]
    exact .of_eq (List.zipIdx_map_snd 0 jobs |>.trans (List.range_eq_range' ..).symm)
  case fits =>
    intro task member
    rw [tasks] at member
    obtain ⟨entry, isEntry, rfl⟩ := List.mem_map.1 member
    exact ⟨entry.1, List.mk_mem_zipIdx_iff_getElem?.1 isEntry, rfl, rfl⟩
  case known => exact fun _ member => nomatch member

/-- The account goes on when one task goes on. -/
theorem advance {perform : α → StateM σ (Except ε β)} {state next : State α β ε}
    {before after : σ} {job : Nat} {old new : Task α β ε} {others : List (Nat × Task α β ε)}
    {earlier deeds : List (Deed α β ε)} (account : Account jobs earlier state)
    (oldTasks : state.tasks.Perm ((job, old) :: others))
    (newTasks : next.tasks.Perm ((job, new) :: others))
    (step : Advance perform before job old new deeds after) :
    Account jobs (earlier ++ deeds) next := by
  have numbers : (((job, old) :: others).map (·.1)).Perm (List.range jobs.length) :=
    (oldTasks.map _).symm.trans account.numbers
  have different := (List.nodup_cons.1 (numbers.nodup_iff.2 List.nodup_range)).1
  have inside : job < jobs.length := List.mem_range.1 (numbers.subset List.mem_cons_self)
  constructor
  case numbers => exact (newTasks.map _).trans numbers
  case fits =>
    intro task member
    rcases List.mem_cons.1 (newTasks.subset member) with rfl | other
    · obtain ⟨pieces, isJob, oldFits⟩ :=
        account.fits (job, old) (oldTasks.symm.subset List.mem_cons_self)
      refine ⟨pieces, isJob, ?_⟩
      have own : deedsFor job deeds = deeds :=
        List.filter_eq_self.2 fun deed isDeed => by simpa using step.job_eq deed isDeed
      have newFits := step.fits oldFits
      rw [← own] at newFits
      rwa [deedsFor, List.filter_append]
    · obtain ⟨pieces, isJob, oldFits⟩ :=
        account.fits task (oldTasks.symm.subset (List.mem_cons_of_mem _ other))
      refine ⟨pieces, isJob, ?_⟩
      have foreign : deedsFor task.1 deeds = [] := by
        refine List.filter_eq_nil_iff.2 fun deed isDeed same => different ?_
        rw [← step.job_eq deed isDeed, of_decide_eq_true same]
        exact List.mem_map.2 ⟨task, other, rfl⟩
      rw [deedsFor, List.filter_append]
      change task.2.Fits pieces (deedsFor task.1 earlier ++ deedsFor task.1 deeds)
      rwa [foreign, List.append_nil]
  case known =>
    intro deed member
    rcases List.mem_append.1 member with before | new
    · exact account.known deed before
    · rwa [step.job_eq deed new]

end Account

namespace State

/-- A pool that runs long enough goes on until no worker can move, and keeps the account. -/
theorem run_spec {perform : α → StateM σ (Except ε β)} {jobs : List (List α)} {start : σ}
    (steps : Nat) (choices : List Nat) {state : State α β ε} {before : σ}
    {earlier : List (Deed α β ε)} (account : Account jobs earlier state)
    (trace : Trace perform start earlier before) (enough : state.stepsLeft ≤ steps) :
    ∃ deeds, Account jobs deeds (value (state.run perform steps choices) before) ∧
      Trace perform start deeds (final (state.run perform steps choices) before) ∧
      (value (state.run perform steps choices) before).movable = [] ∧
      (value (state.run perform steps choices) before).workers.length = state.workers.length := by
  induction steps generalizing state before earlier choices with
  | zero =>
    have stuck : state.movable = [] := by
      refine List.eq_nil_iff_forall_not_mem.2 fun number movable => ?_
      obtain ⟨_, _, _, _, _, _, _, _, fewer, _⟩ := move_spec perform movable before
      omega
    exact ⟨earlier, account, trace, stuck, rfl⟩
  | succ steps ih =>
    unfold run
    cases movable : state.movable with
    | nil => exact ⟨earlier, account, trace, movable, rfl⟩
    | cons first others =>
      simp only [value_bind, final_bind]
      have chosen : (first :: others).getD (choices.headD 0 % (first :: others).length) first ∈
          state.movable := by
        rw [movable, ← List.getElem_eq_getD (h := Nat.mod_lt _ (by simp))]
        exact List.getElem_mem _
      obtain ⟨job, old, new, rest, deeds, oldTasks, newTasks, step, fewer, sameWorkers⟩ :=
        move_spec perform chosen before
      obtain ⟨allDeeds, finalAccount, finalTrace, stuck, finalWorkers⟩ := ih choices.tail
        (account.advance oldTasks newTasks step) (step.trace trace) (by omega)
      exact ⟨allDeeds, finalAccount, finalTrace, stuck, finalWorkers.trans sameWorkers⟩

/-- In a pool whose workers cannot move, every job is settled. -/
theorem tasks_of_movable_nil {state : State α β ε} (stuck : state.movable = [])
    (manned : state.workers ≠ [] ∨ state.waiting = []) :
    state.tasks = state.results.map fun entry => (entry.1, .settled entry.2) := by
  have idle : ∀ worker ∈ state.workers, worker = .idle ∧ state.waiting = [] := by
    intro worker member
    obtain ⟨number, found⟩ := List.getElem?_of_mem member
    have still : ¬ state.canMove worker := fun moves => by
      have movable := mem_movable.2 ⟨worker, found, moves⟩
      rw [stuck] at movable
      contradiction
    cases worker with
    | idle => simpa [canMove] using still
    | working | failed => simp [canMove] at still
  have noneWaits : state.waiting = [] := by
    rcases manned with nonempty | noneWaits
    · obtain ⟨worker, member⟩ := List.exists_mem_of_ne_nil _ nonempty
      exact (idle worker member).2
    · exact noneWaits
  have noneWorks : state.workers.flatMap Worker.tasks = [] :=
    List.flatMap_eq_nil_iff.2 fun worker member => (idle worker member).1 ▸ rfl
  simp [tasks, noneWaits, noneWorks]

/-- Results with the numbers of all jobs stand in the order of the jobs once they are sorted. -/
theorem getElem?_ordered {state : State α β ε} {size : Nat}
    (numbers : (state.results.map (·.1)).Perm (List.range size)) :
    state.ordered.length = size ∧ ∀ job < size, ∃ result,
      state.ordered[job]? = some result ∧ (job, result) ∈ state.results := by
  let sorted := state.results.mergeSort fun left right => left.1 ≤ right.1
  have increasing : (sorted.map (·.1)).Pairwise (· ≤ ·) := by
    rw [List.pairwise_map]
    refine (List.pairwise_mergeSort ?_ ?_ state.results).imp fun ordered => by simpa using ordered
    · intro first second third
      simpa using Nat.le_trans
    · intro left right
      simpa using Nat.le_total left.1 right.1
  have inOrder : sorted.map (·.1) = List.range size :=
    (((List.mergeSort_perm _ _).map _).trans numbers).eq_of_pairwise
      (fun _ _ _ _ => Nat.le_antisymm) increasing List.pairwise_le_range
  have length : sorted.length = size := by
    rw [← List.length_map (·.1), inOrder, List.length_range]
  refine ⟨by rw [ordered, List.length_map, length], fun job inside => ?_⟩
  obtain ⟨entry, found⟩ : ∃ entry, sorted[job]? = some entry :=
    ⟨_, List.getElem?_eq_getElem (length.symm ▸ inside)⟩
  have number : entry.1 = job := by
    have there : (sorted.map (·.1))[job]? = some entry.1 := by rw [List.getElem?_map, found]; rfl
    rw [inOrder, List.getElem?_range inside] at there
    exact (Option.some.inj there).symm
  refine ⟨entry.2, by rw [ordered, List.getElem?_map, found]; rfl, ?_⟩
  rw [← number]
  exact List.mem_mergeSort.1 (List.mem_of_getElem? found)

end State

/-- A pool settles every job, whatever its schedule. -/
theorem runJobs_spec (schedule : Schedule) (perform : α → StateM σ (Except ε β))
    (jobs : List (List α)) (before : σ) :
    ∃ deeds, Trace perform before deeds (final (runJobs schedule perform jobs) before) ∧
      (∀ deed ∈ deeds, deed.job < jobs.length) ∧
      (value (runJobs schedule perform jobs) before).length = jobs.length ∧
      ∀ job pieces, jobs[job]? = some pieces →
        ∃ result, (value (runJobs schedule perform jobs) before)[job]? = some result ∧
          Settles pieces (deedsFor job deeds) result := by
  let start : State α β ε := State.initial (min schedule.workers jobs.length) jobs
  obtain ⟨deeds, account, trace, stuck, workers⟩ := start.run_spec start.stepsLeft
    schedule.choices (Account.initial _ jobs) (@Trace.nil α β ε σ perform before)
    (Nat.le_refl _)
  have manned : (value (start.run perform start.stepsLeft schedule.choices) before).workers ≠ [] ∨
      (value (start.run perform start.stepsLeft schedule.choices) before).waiting = [] := by
    rcases Nat.eq_zero_or_pos jobs.length with none | some
    · have numbers := account.numbers
      rw [none, List.range_zero, List.perm_nil, List.map_eq_nil_iff] at numbers
      simp only [State.tasks, List.append_eq_nil_iff, List.map_eq_nil_iff] at numbers
      exact .inr numbers.1.1
    · refine .inl fun empty => ?_
      have positive := schedule.positive
      have count : start.workers.length = min schedule.workers jobs.length :=
        List.length_replicate
      rw [empty, List.length_nil, count] at workers
      omega
  have settled := State.tasks_of_movable_nil stuck manned
  have numbers := account.numbers
  rw [settled, List.map_map] at numbers
  obtain ⟨length, inOrder⟩ := State.getElem?_ordered numbers
  refine ⟨deeds, trace, account.known, length, fun job pieces isJob => ?_⟩
  have inside : job < jobs.length := (List.getElem?_eq_some_iff.1 isJob).1
  obtain ⟨result, found, handedIn⟩ := inOrder job inside
  refine ⟨result, found, ?_⟩
  obtain ⟨own, isOwn, fits⟩ := account.fits (job, .settled result)
    (settled.symm ▸ List.mem_map.2 ⟨_, handedIn, rfl⟩)
  rw [isJob] at isOwn
  obtain rfl := Option.some.inj isOwn
  exact fits

end PhysicsPrefab.Pool
