import Mathlib.Data.List.Nodup
import PhysicsPrefab.Proofs.Project.Outcomes

/-!
# Interleavings

The steps of the workers of a pool in any order: a worker takes the next job that waits, performs a
piece of its job or hands in a result. In whatever order they move, they stop after a few steps, and
what they have done until then a schedule does as well (`Moves.exists_schedule`). A pool that calls
a function for some items gives what the function gives for them, in their order, and calls it once
for each (`pool_maps`).
-/

namespace PhysicsPrefab.Pool

open Program

variable {α β ε σ : Type}

/-- Steps of workers, each of one that can move: the state of the pool and of everything else before
them, the numbers of the workers in the order of their steps, and both states after them. -/
inductive Moves (perform : α → StateM σ (Except ε β)) :
    State α β ε → σ → List Nat → State α β ε → σ → Prop where
  /-- No step. -/
  | nil (state : State α β ε) (before : σ) : Moves perform state before [] state before
  /-- A step of some worker and further steps. -/
  | cons {state last : State α β ε} {before after : σ} {number : Nat} {numbers : List Nat}
      (movable : number ∈ state.movable)
      (rest : Moves perform (value (state.move perform number) before)
        (final (state.move perform number) before) numbers last after) :
      Moves perform state before (number :: numbers) last after

namespace Moves

variable {perform : α → StateM σ (Except ε β)} {state last : State α β ε} {before after : σ}
  {numbers : List Nat}

/-- Every step brings a pool nearer to its end. -/
theorem length_add_stepsLeft_le (moves : Moves perform state before numbers last after) :
    numbers.length + last.stepsLeft ≤ state.stepsLeft := by
  induction moves with
  | nil => simp
  | @cons state last before after number numbers movable rest ih =>
    obtain ⟨_, _, _, _, _, _, _, _, fewer, _⟩ := State.move_spec perform movable before
    rw [List.length_cons]
    omega

/-- Steps after which no worker can move are those that some choices lead to. -/
theorem exists_choices (moves : Moves perform state before numbers last after)
    (stuck : last.movable = []) :
    ∃ choices, ∀ steps, numbers.length ≤ steps →
      state.run perform steps choices before = (last, after) := by
  induction moves with
  | nil state before =>
    refine ⟨[], fun steps _ => ?_⟩
    cases steps with
    | zero => rfl
    | succ steps =>
      rw [State.run, stuck]
      rfl
  | @cons state last before after number numbers movable rest ih =>
    obtain ⟨choices, later⟩ := ih stuck
    obtain ⟨choice, found⟩ := List.getElem?_of_mem movable
    refine ⟨choice :: choices, fun steps enough => ?_⟩
    rw [List.length_cons] at enough
    obtain ⟨steps, rfl⟩ := Nat.exists_eq_add_of_le' (Nat.le_of_add_left_le enough)
    rw [State.run]
    cases ready : state.movable with
    | nil => simp [ready] at movable
    | cons first others =>
      rw [ready] at found
      obtain ⟨inside, chosen⟩ := List.getElem?_eq_some_iff.1 found
      have isChosen :
          (first :: others).getD (choice % (first :: others).length) first = number := by
        rw [Nat.mod_eq_of_lt inside, List.getD_eq_getElem?_getD, found, Option.getD_some]
      simp only [List.headD_cons, List.tail_cons, isChosen]
      exact later steps (by omega)

end Moves

/-- All steps of the workers up to where none of them can move are those of some schedule. -/
theorem Moves.exists_schedule {perform : α → StateM σ (Except ε β)} {jobs : List (List α)}
    {last : State α β ε} {before after : σ} {numbers : List Nat} (schedule : Schedule)
    (moves : Moves perform (State.initial (min schedule.workers jobs.length) jobs) before numbers
      last after) (stuck : last.movable = []) :
    ∃ other : Schedule, runJobs other perform jobs before = (last.ordered, after) := by
  obtain ⟨choices, same⟩ := moves.exists_choices stuck
  have run := same _ (Nat.le_of_add_right_le moves.length_add_stepsLeft_le)
  refine ⟨⟨schedule.workers, schedule.positive, choices⟩, ?_⟩
  change (fun outcome : State α β ε × σ => (outcome.1.ordered, outcome.2))
    (State.run perform _ choices _ before) = _
  rw [run]

/-- Before the first step a pool has for each job its pieces to go and two steps more. -/
theorem State.stepsLeft_initial (workers : Nat) (jobs : List (List α)) :
    (State.initial workers jobs : State α β ε).stepsLeft =
      total (jobs.map fun pieces => pieces.length + 2) := by
  have idle : total ((List.replicate workers (Worker.idle : Worker α β ε)).map workLeft) = 0 := by
    induction workers with
    | zero => rfl
    | succ workers ih => simpa [List.replicate_succ, workLeft] using ih
  have waiting : (jobs.zipIdx.map fun entry => entry.1.length + 2) =
      jobs.map fun pieces => pieces.length + 2 := by
    conv_rhs => rw [← List.zipIdx_map_fst 0 jobs, List.map_map]
    rfl
  rw [stepsLeft, initial, idle, Nat.add_zero, List.map_map]
  exact congrArg total waiting

/-- Jobs of one piece each take three steps each. -/
theorem State.total_map_singleton (items : List α) :
    total ((items.map ([·])).map fun pieces => pieces.length + 2) = 3 * items.length := by
  induction items with
  | nil => rfl
  | cons item rest ih =>
    rw [List.map_cons, List.map_cons, total_cons, ih, List.length_cons]
    change 1 + 2 + 3 * rest.length = 3 * (rest.length + 1)
    omega

/-- A call of a function that gives a result for an item, whatever else it does. -/
def calling (effect : α → StateM σ Unit) (call : α → β) (item : α) : StateM σ (Except ε β) := do
  effect item
  return .ok (call item)

/-- What came of calls for some items: the results are those for the items, in their order, all of
them there, and the function has been called once for each item, in some order. -/
structure Maps (effect : α → StateM σ Unit) (call : α → β) (items : List α) (before : σ)
    (results : List (Except ε (List β))) (after : σ) : Prop where
  /-- The results. -/
  results_eq : results = items.map fun item => .ok [call item]
  /-- None is a failure, so what they give together is there. -/
  collected : collect results = .ok (items.map call)
  /-- The calls, each for an item with its number. -/
  once : ∃ calls : List (α × Nat), calls.Perm items.zipIdx ∧
    after = calls.foldl (fun state entry => final (effect entry.1) state) before

/-- The state after some deeds is what their pieces lead to, one after the other. -/
theorem Trace.final_eq {perform : α → StateM σ (Except ε β)} {before after : σ}
    {deeds : List (Deed α β ε)} (trace : Trace perform before deeds after) :
    after = deeds.foldl (fun state deed => final (perform deed.piece) state) before := by
  induction trace with
  | nil => rfl
  | concat earlier job piece ih =>
    rw [List.foldl_append, ← ih]
    rfl

/-- If one piece is performed for each job, each job has one deed. -/
theorem nodup_jobs {items : List α} {deeds : List (Deed α β ε)}
    (known : ∀ deed ∈ deeds, deed.job < items.length)
    (own : ∀ job item, items[job]? = some item → (deedsFor job deeds).map (·.piece) = [item]) :
    (deeds.map (·.job)).Nodup := by
  refine List.nodup_iff_count_eq_one.2 fun job member => ?_
  obtain ⟨deed, isDeed, rfl⟩ := List.mem_map.1 member
  have one := own deed.job _ (List.getElem?_eq_getElem (known deed isDeed))
  have length : (deedsFor deed.job deeds).length = 1 := by
    rw [← List.length_map (·.piece), one, List.length_singleton]
  rw [List.count, List.countP_map, List.countP_eq_length_filter]
  exact length

/-- If the piece that is performed for each job is its one item, the deeds are those for all
items. -/
theorem deeds_perm {items : List α} {deeds : List (Deed α β ε)}
    (known : ∀ deed ∈ deeds, deed.job < items.length)
    (own : ∀ job item, items[job]? = some item → (deedsFor job deeds).map (·.piece) = [item]) :
    (deeds.map fun deed => (deed.piece, deed.job)).Perm items.zipIdx := by
  have distinct : (deeds.map fun deed => (deed.piece, deed.job)).Nodup := by
    refine List.Nodup.of_map (·.2) ?_
    rw [List.map_map]
    exact nodup_jobs known own
  have numbered : items.zipIdx.Nodup := by
    refine List.Nodup.of_map (·.2) ?_
    rw [List.zipIdx_map_snd]
    exact List.nodup_range'
  refine (List.perm_ext_iff_of_nodup distinct numbered).2 fun (item, job) => ?_
  rw [List.mk_mem_zipIdx_iff_getElem?]
  constructor
  · intro member
    obtain ⟨deed, isDeed, same⟩ := List.mem_map.1 member
    obtain ⟨rfl, rfl⟩ := Prod.mk.inj same
    have isJob := List.getElem?_eq_getElem (known deed isDeed)
    have isOwn : deed ∈ deedsFor deed.job deeds :=
      List.mem_filter.2 ⟨isDeed, decide_eq_true rfl⟩
    have isPiece := List.mem_map_of_mem (f := (·.piece)) isOwn
    rw [own deed.job _ isJob, List.mem_singleton] at isPiece
    rw [isJob, isPiece]
  · intro isJob
    have isPiece : item ∈ (deedsFor job deeds).map (·.piece) := by
      rw [own job item isJob]
      exact List.mem_singleton_self item
    obtain ⟨deed, isOwn, rfl⟩ := List.mem_map.1 isPiece
    obtain ⟨isDeed, sameJob⟩ := List.mem_filter.1 isOwn
    exact List.mem_map.2 ⟨deed, isDeed, by rw [of_decide_eq_true sameJob]⟩

/-- A pool that calls a function for some items does so for each of them, whatever its schedule. -/
theorem runJobs_maps (ε : Type) (effect : α → StateM σ Unit) (call : α → β) (items : List α)
    (schedule : Schedule) (before : σ) :
    Maps (ε := ε) effect call items before
      (value (runJobs schedule (calling effect call) (items.map ([·]))) before)
      (final (runJobs (ε := ε) schedule (calling effect call) (items.map ([·]))) before) := by
  -- what a call gives does not depend on the state, so nothing has to be kept between calls
  have : IsPreorder σ fun _ _ => True :=
    { refl := fun _ => trivial, trans := fun _ _ _ _ _ => trivial }
  have anywhere : ∀ item, Keeps (fun _ _ => True) (calling (ε := ε) effect call item) :=
    fun _ _ => trivial
  have answers := value_runJobs_of_same anywhere (fun _ _ _ _ => rfl) schedule
    (items.map ([·])) before
  have results : value (runJobs schedule (calling (ε := ε) effect call) (items.map ([·]))) before =
      items.map fun item => .ok [call item] := by
    rw [answers, List.map_map]
    rfl
  have collected :
      collect (value (runJobs schedule (calling (ε := ε) effect call) (items.map ([·]))) before) =
        .ok (items.map call) := by
    rw [answers, collect_singletons]
    exact List.mapM_pure ..
  refine ⟨results, collected, ?_⟩
  obtain ⟨deeds, trace, known, -, settled⟩ :=
    runJobs_spec schedule (calling (ε := ε) effect call) (items.map ([·])) before
  rw [List.length_map] at known
  have own : ∀ job item, items[job]? = some item →
      (deedsFor job deeds).map (·.piece) = [item] := by
    intro job item isJob
    obtain ⟨result, found, settles⟩ := settled job [item] (by rw [List.getElem?_map, isJob]; rfl)
    rw [results, List.getElem?_map, isJob] at found
    obtain rfl := Option.some.inj found
    exact settles.1
  refine ⟨_, deeds_perm known own, ?_⟩
  rw [List.foldl_map]
  exact trace.final_eq

/-- A pool that calls a function for some items gives the results for all of them, in their order,
and has called the function once for each; it does so whatever its schedule, and in whatever order
its workers take jobs, call the function and hand in results. They can always go on until every
result has been handed in, and never make more than three steps for each item. -/
theorem pool_maps (ε : Type) (effect : α → StateM σ Unit) (call : α → β) (items : List α)
    (schedule : Schedule) (before : σ) :
    Maps (ε := ε) effect call items before
        (value (runJobs schedule (calling effect call) (items.map ([·]))) before)
        (final (runJobs (ε := ε) schedule (calling effect call) (items.map ([·]))) before) ∧
    ∀ numbers last after,
      Moves (calling (ε := ε) effect call)
        (State.initial (min schedule.workers items.length) (items.map ([·]))) before numbers
        last after →
      numbers.length ≤ 3 * items.length ∧
        (last.movable = [] → last.results.length = items.length ∧
          Maps effect call items before last.ordered after) := by
  refine ⟨runJobs_maps ε effect call items schedule before, fun numbers last after moves => ?_⟩
  have bound := moves.length_add_stepsLeft_le
  rw [State.stepsLeft_initial, State.total_map_singleton] at bound
  refine ⟨Nat.le_of_add_right_le bound, fun stuck => ?_⟩
  rw [← List.length_map ([·])] at moves
  obtain ⟨other, same⟩ := moves.exists_schedule schedule stuck
  have maps := runJobs_maps ε effect call items other before
  rw [value, final, same] at maps
  dsimp only at maps
  refine ⟨?_, maps⟩
  calc last.results.length
      = last.ordered.length := by rw [State.ordered, List.length_map, List.length_mergeSort]
    _ = items.length := by rw [maps.results_eq, List.length_map]

end PhysicsPrefab.Pool
