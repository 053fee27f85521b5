/-!
# Worker pools

Jobs wait in a queue and are taken by workers. A job is a list of pieces that its worker performs
in order; the first piece that fails ends the job. Workers take turns in any order: taking a job,
performing a piece and handing in a result are single steps, and a schedule chooses who moves
next. Results carry the number of their job, and are put in the order of the jobs at the end.
-/

namespace PhysicsPrefab.Pool

/-- How many workers there are and who moves when. -/
structure Schedule where
  /-- The number of workers. -/
  workers : Nat
  /-- There is at least one. -/
  positive : 0 < workers
  /-- The choices among the workers that can move; after the last one the first of them moves. -/
  choices : List Nat

/-- One worker that does everything in order. -/
def Schedule.sequential : Schedule := ⟨1, Nat.one_pos, []⟩

variable {α β ε : Type}

/-- What a worker is doing. -/
inductive Worker (α β ε : Type) where
  /-- It is ready to take a job. -/
  | idle
  /-- It has a job, with the pieces still to be performed and what came of the others. -/
  | working (job : Nat) (pieces : List α) (made : List β)
  /-- A piece of its job has failed. -/
  | failed (job : Nat) (error : ε)

/-- The state of a pool. -/
structure State (α β ε : Type) where
  /-- The jobs that wait, with their numbers. -/
  waiting : List (Nat × List α)
  /-- What each worker is doing. -/
  workers : List (Worker α β ε)
  /-- The results handed in, with the numbers of their jobs. -/
  results : List (Nat × Except ε (List β))

namespace State

/-- The pool before the first step: all jobs wait, numbered from zero. -/
def initial (workers : Nat) (jobs : List (List α)) : State α β ε where
  waiting := jobs.zipIdx.map fun (pieces, job) => (job, pieces)
  workers := List.replicate workers .idle
  results := []

/-- Whether a worker can move. -/
def canMove (state : State α β ε) : Worker α β ε → Bool
  | .idle => !state.waiting.isEmpty
  | .working _ _ _ | .failed _ _ => true

/-- The numbers of the workers that can move. -/
def movable (state : State α β ε) : List Nat :=
  (state.workers.zipIdx.filter fun (worker, _) => state.canMove worker).map (·.2)

/-- The pool with one worker doing something else. -/
def setWorker (state : State α β ε) (number : Nat) (worker : Worker α β ε) : State α β ε :=
  { state with workers := state.workers.set number worker }

/-- The pool with a result handed in by a worker that becomes idle. -/
def report (state : State α β ε) (number job : Nat) (result : Except ε (List β)) : State α β ε :=
  { state.setWorker number .idle with results := state.results ++ [(job, result)] }

/-- One step of a worker. -/
def move {m : Type → Type} [Monad m] (perform : α → m (Except ε β)) (state : State α β ε)
    (number : Nat) : m (State α β ε) :=
  match state.workers[number]? with
  | some .idle =>
    match state.waiting with
    | [] => return state
    | (job, pieces) :: rest =>
      return { state.setWorker number (.working job pieces []) with waiting := rest }
  | some (.working job [] made) => return state.report number job (.ok made)
  | some (.working job (piece :: rest) made) => do
    match ← perform piece with
    | .ok result => return state.setWorker number (.working job rest (made ++ [result]))
    | .error error => return state.setWorker number (.failed job error)
  | some (.failed job error) => return state.report number job (.error error)
  | none => return state

/-- The steps that a worker still needs for its job. -/
def workLeft : Worker α β ε → Nat
  | .idle => 0
  | .working _ pieces _ => pieces.length + 1
  | .failed _ _ => 1

/-- All steps together. -/
def total : List Nat → Nat
  | [] => 0
  | first :: rest => first + total rest

/-- The steps that a pool still needs at most. -/
def stepsLeft (state : State α β ε) : Nat :=
  total (state.waiting.map fun (_, pieces) => pieces.length + 2) +
    total (state.workers.map workLeft)

/-- At most so many steps, as the choices say. -/
def run {m : Type → Type} [Monad m] (perform : α → m (Except ε β)) :
    Nat → List Nat → State α β ε → m (State α β ε)
  | 0, _, state => return state
  | steps + 1, choices, state =>
    match state.movable with
    | [] => return state
    | first :: others => do
      let ready := first :: others
      let number := ready.getD (choices.headD 0 % ready.length) first
      run perform steps choices.tail (← state.move perform number)

/-- The results in the order of the jobs. -/
def ordered (state : State α β ε) : List (Except ε (List β)) :=
  (state.results.mergeSort fun left right => left.1 ≤ right.1).map (·.2)

end State

/-- Perform all jobs on a pool; the results are in the order of the jobs. -/
def runJobs {m : Type → Type} [Monad m] (schedule : Schedule) (perform : α → m (Except ε β))
    (jobs : List (List α)) : m (List (Except ε (List β))) := do
  let start : State α β ε := State.initial (min schedule.workers jobs.length) jobs
  return (← start.run perform start.stepsLeft schedule.choices).ordered

/-- What came of all jobs in their order, or the first failure in that order. -/
def collect : List (Except ε (List β)) → Except ε (List β)
  | [] => .ok []
  | result :: rest => do return (← result) ++ (← collect rest)

end PhysicsPrefab.Pool
