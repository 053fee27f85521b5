import PhysicsPrefab.Proofs.Answers
import PhysicsPrefab.Proofs.Project.Pool

/-!
# What comes of jobs

What can be said about a pool from what is known of its pieces: what every piece keeps and
establishes, why a pool fails (`runJobs_established`, `runJobs_error`), and that pieces which do
not disturb each other give what they would give alone (`value_runJobs_of_same`).
-/

namespace PhysicsPrefab.Pool

open Answer Program

variable {α β ε σ : Type}

/-- What a good piece establishes still holds at the end, if no piece undoes it. -/
theorem Trace.established {related : σ → σ → Prop} [IsPreorder σ related]
    {perform : α → StateM σ (Except ε β)} (each : ∀ piece, Keeps related (perform piece))
    {fact : α → σ → Prop} (stable : ∀ piece state next, related state next → fact piece state →
      fact piece next)
    {before after : σ} (establishes : ∀ piece state made, related before state →
      value (perform piece) state = .ok made → fact piece (final (perform piece) state))
    {deeds : List (Deed α β ε)} (trace : Trace perform before deeds after) :
    ∀ deed ∈ deeds, ∀ made, deed.outcome = .ok made → fact deed.piece after := by
  induction trace with
  | nil => exact fun _ member => nomatch member
  | concat earlier job piece ih =>
    intro deed member made outcome
    rcases List.mem_append.1 member with before | new
    · exact stable _ _ _ (each piece _) (ih deed before made outcome)
    · obtain rfl := List.mem_singleton.1 new
      exact establishes piece _ made (earlier.keeps each) outcome

/-- Every deed came of a piece that was performed. -/
theorem Trace.exists_state {perform : α → StateM σ (Except ε β)} {before after : σ}
    {deeds : List (Deed α β ε)} (trace : Trace perform before deeds after) :
    ∀ deed ∈ deeds, ∃ state, value (perform deed.piece) state = deed.outcome := by
  induction trace with
  | nil => exact fun _ member => nomatch member
  | concat earlier job piece ih =>
    intro deed member
    rcases List.mem_append.1 member with before | new
    · exact ih deed before
    · obtain rfl := List.mem_singleton.1 new
      exact ⟨_, rfl⟩

/-- If everything is gathered, every job has succeeded. -/
theorem collect_eq_ok {results : List (Except ε (List β))} {all : List β}
    (gathered : collect results = .ok all) :
    ∃ made : List (List β), results = made.map .ok ∧ all = made.flatten := by
  induction results generalizing all with
  | nil => exact ⟨[], rfl, (Except.ok.inj gathered).symm⟩
  | cons result rest ih =>
    cases result with
    | error error => contradiction
    | ok first =>
      cases more : collect rest with
      | error error => simp [collect, more, bind, Except.bind] at gathered
      | ok others =>
        obtain ⟨made, rfl, rfl⟩ := ih more
        simp only [collect, more, bind, Except.bind, pure, Except.pure, Except.ok.injEq]
          at gathered
        exact ⟨first :: made, rfl, gathered.symm⟩

/-- If not everything is gathered, some job has failed so. -/
theorem mem_of_collect_eq_error {results : List (Except ε (List β))} {error : ε}
    (failed : collect results = .error error) : .error error ∈ results := by
  induction results with
  | nil => contradiction
  | cons result rest ih =>
    cases result with
    | error first =>
      obtain rfl := Except.error.inj failed
      exact List.mem_cons_self
    | ok first =>
      cases more : collect rest with
      | error other =>
        simp only [collect, more, bind, Except.bind, Except.error.injEq] at failed
        exact List.mem_cons_of_mem _ (ih (failed ▸ more))
      | ok others => simp [collect, more, bind, Except.bind, pure, Except.pure] at failed

/-- If a pool gathers everything, what its pieces establish holds for all of them. -/
theorem runJobs_established {related : σ → σ → Prop} [IsPreorder σ related]
    {perform : α → StateM σ (Except ε β)} (each : ∀ piece, Keeps related (perform piece))
    {fact : α → σ → Prop} (stable : ∀ piece state next, related state next → fact piece state →
      fact piece next)
    {before : σ} (establishes : ∀ piece state made, related before state →
      value (perform piece) state = .ok made → fact piece (final (perform piece) state))
    {schedule : Schedule} {jobs : List (List α)} {all : List β}
    (gathered : collect (value (runJobs schedule perform jobs) before) = .ok all) :
    ∀ pieces ∈ jobs, ∀ piece ∈ pieces,
      fact piece (final (runJobs schedule perform jobs) before) := by
  obtain ⟨deeds, trace, -, -, settled⟩ := runJobs_spec schedule perform jobs before
  obtain ⟨made, results, -⟩ := collect_eq_ok gathered
  intro pieces isJob piece isPiece
  obtain ⟨job, found⟩ := List.getElem?_of_mem isJob
  obtain ⟨result, isResult, settles⟩ := settled job pieces found
  obtain ⟨own, -, rfl⟩ := List.mem_map.1 (results ▸ List.mem_of_getElem? isResult)
  obtain ⟨pieces_eq, outcomes⟩ := settles
  obtain ⟨deed, isDeed, rfl⟩ := List.mem_map.1 (pieces_eq ▸ isPiece)
  have good : deed.outcome ∈ own.map .ok := outcomes ▸ List.mem_map.2 ⟨deed, isDeed, rfl⟩
  obtain ⟨outcome, -, isOutcome⟩ := List.mem_map.1 good
  exact trace.established each stable establishes deed (List.mem_filter.1 isDeed).1 outcome
    isOutcome.symm

/-- If not everything is gathered, some piece has failed. -/
theorem exists_failed {jobs : List (List α)} {results : List (Except ε (List β))}
    {deeds : List (Deed α β ε)} (length : results.length = jobs.length)
    (settled : ∀ job pieces, jobs[job]? = some pieces →
      ∃ result, results[job]? = some result ∧ Settles pieces (deedsFor job deeds) result)
    {error : ε} (failed : collect results = .error error) :
    ∃ deed ∈ deeds, deed.outcome = .error error := by
  obtain ⟨job, found⟩ := List.getElem?_of_mem (mem_of_collect_eq_error failed)
  have inside := (List.getElem?_eq_some_iff.1 found).1
  rw [length] at inside
  obtain ⟨result, isResult, settles⟩ := settled job jobs[job] (List.getElem?_eq_getElem inside)
  rw [found] at isResult
  obtain rfl := Option.some.inj isResult
  obtain ⟨-, made, outcomes⟩ := settles
  have bad : .error error ∈ (deedsFor job deeds).map (·.outcome) := by simp [outcomes]
  obtain ⟨deed, isDeed, isError⟩ := List.mem_map.1 bad
  exact ⟨deed, List.mem_of_mem_filter isDeed, isError⟩

/-- If a pool does not gather everything, the reason is one that a piece has given. -/
theorem runJobs_error {perform : α → StateM σ (Except ε β)} {schedule : Schedule}
    {jobs : List (List α)} {before : σ} {error : ε}
    (failed : collect (value (runJobs schedule perform jobs) before) = .error error) :
    ∃ piece state, value (perform piece) state = .error error := by
  obtain ⟨deeds, trace, -, length, settled⟩ := runJobs_spec schedule perform jobs before
  obtain ⟨deed, isDeed, isError⟩ := exists_failed length settled failed
  obtain ⟨state, performed⟩ := trace.exists_state deed isDeed
  exact ⟨deed.piece, state, performed.trans isError⟩

/-- If a pool gathers everything, it has made what is made of all pieces. -/
theorem runJobs_made {perform : α → StateM σ (Except ε β)} {product : α → β}
    (each : ∀ piece state made, value (perform piece) state = .ok made → made = product piece)
    {schedule : Schedule} {jobs : List (List α)} {before : σ} {all : List β}
    (gathered : collect (value (runJobs schedule perform jobs) before) = .ok all) :
    all = jobs.flatten.map product := by
  obtain ⟨deeds, trace, -, length, settled⟩ := runJobs_spec schedule perform jobs before
  obtain ⟨made, results, rfl⟩ := collect_eq_ok gathered
  rw [results, List.length_map] at length
  suffices same : made = jobs.map (·.map product) by rw [same, ← List.map_flatten]
  refine List.ext_getElem? fun job => ?_
  cases isJob : jobs[job]? with
  | none =>
    rw [List.getElem?_map, isJob]
    rw [List.getElem?_eq_none_iff] at isJob
    exact List.getElem?_eq_none (length ▸ isJob)
  | some pieces =>
    obtain ⟨result, isResult, settles⟩ := settled job pieces isJob
    rw [results, List.getElem?_map] at isResult
    obtain ⟨own, isOwn, rfl⟩ := Option.map_eq_some_iff.1 isResult
    obtain ⟨rfl, outcomes⟩ := settles
    have products : own.map Except.ok =
        ((deedsFor job deeds).map fun deed => (.ok (product deed.piece) : Except ε β)) := by
      rw [← outcomes]
      refine List.map_congr_left fun deed member => ?_
      obtain ⟨result, -, isOutcome⟩ := List.mem_map.1 (outcomes ▸ List.mem_map_of_mem member)
      obtain ⟨state, performed⟩ := trace.exists_state deed (List.mem_filter.1 member).1
      rw [← isOutcome] at performed ⊢
      rw [each deed.piece state result performed]
    rw [isOwn, List.getElem?_map, isJob, Option.map_some, List.map_map]
    refine congrArg some (List.map_injective_iff.2 (fun _ _ => Except.ok.inj) (products.trans ?_))
    rw [List.map_map]
    rfl

/-- What is done for a job is done with its pieces. -/
theorem Settles.piece_mem {pieces : List α} {deeds : List (Deed α β ε)}
    {result : Except ε (List β)} (settles : Settles pieces deeds result) :
    ∀ deed ∈ deeds, deed.piece ∈ pieces := by
  have performed : deeds.map (·.piece) <+: pieces := by
    cases result with
    | ok made => exact settles.1 ▸ List.prefix_rfl
    | error error => exact settles.1
  exact fun deed member => performed.subset (List.mem_map_of_mem member)

/-- A pool keeps what every piece of its jobs keeps. -/
theorem runJobs_keeps_of_mem {related : σ → σ → Prop} [IsPreorder σ related]
    {perform : α → StateM σ (Except ε β)} {jobs : List (List α)}
    (each : ∀ piece ∈ jobs.flatten, Keeps related (perform piece)) (schedule : Schedule) :
    Keeps related (runJobs schedule perform jobs) := by
  intro before
  obtain ⟨deeds, trace, known, -, settled⟩ := runJobs_spec schedule perform jobs before
  refine trace.keeps_of_mem fun deed member => each deed.piece (List.mem_flatten.2 ?_)
  obtain ⟨result, -, settles⟩ :=
    settled deed.job _ (List.getElem?_eq_getElem (known deed member))
  have own : deed ∈ deedsFor deed.job deeds :=
    List.mem_filter.2 ⟨member, decide_eq_true rfl⟩
  exact ⟨_, List.getElem_mem _, settles.piece_mem deed own⟩

/-- A pool keeps what every piece keeps. -/
theorem runJobs_keeps {related : σ → σ → Prop} [IsPreorder σ related]
    {perform : α → StateM σ (Except ε β)} (each : ∀ piece, Keeps related (perform piece))
    (schedule : Schedule) (jobs : List (List α)) :
    Keeps related (runJobs schedule perform jobs) :=
  runJobs_keeps_of_mem (fun piece _ => each piece) schedule

/-- What comes of a piece does not depend on when it is performed, if no piece changes it. -/
theorem Trace.outcome_eq {related : σ → σ → Prop} [IsPreorder σ related]
    {perform : α → StateM σ (Except ε β)} (each : ∀ piece, Keeps related (perform piece))
    (same : ∀ piece before after, related before after →
      value (perform piece) after = value (perform piece) before)
    {before after : σ} {deeds : List (Deed α β ε)} (trace : Trace perform before deeds after) :
    ∀ deed ∈ deeds, deed.outcome = value (perform deed.piece) before := by
  induction trace with
  | nil => exact fun _ member => nomatch member
  | concat earlier job piece ih =>
    intro deed member
    rcases List.mem_append.1 member with before | new
    · exact ih deed before
    · obtain rfl := List.mem_singleton.1 new
      exact same piece _ _ (earlier.keeps each)

/-- A job is settled by the answers to its pieces. -/
theorem Settles.eq_mapM {pieces : List α} {deeds : List (Deed α β ε)}
    {result : Except ε (List β)} (answer : α → Except ε β) (settles : Settles pieces deeds result)
    (answers : ∀ deed ∈ deeds, deed.outcome = answer deed.piece) :
    result = pieces.mapM answer := by
  have outcomes : (deeds.map (·.piece)).map answer = deeds.map (·.outcome) := by
    rw [List.map_map]
    exact List.map_congr_left fun deed member => (answers deed member).symm
  cases result with
  | ok made =>
    obtain ⟨rfl, made_eq⟩ := settles
    exact (mapM_eq_ok (outcomes.trans made_eq)).symm
  | error error =>
    obtain ⟨⟨rest, rfl⟩, made, made_eq⟩ := settles
    exact (mapM_eq_error (outcomes.trans made_eq)).symm

/-- A pool whose pieces do not disturb each other gives what the jobs give one by one. -/
theorem value_runJobs_of_same {related : σ → σ → Prop} [IsPreorder σ related]
    {perform : α → StateM σ (Except ε β)} (each : ∀ piece, Keeps related (perform piece))
    (same : ∀ piece before after, related before after →
      value (perform piece) after = value (perform piece) before)
    (schedule : Schedule) (jobs : List (List α)) (before : σ) :
    value (runJobs schedule perform jobs) before =
      jobs.map fun pieces => pieces.mapM fun piece => value (perform piece) before := by
  obtain ⟨deeds, trace, -, length, settled⟩ := runJobs_spec schedule perform jobs before
  have outcomes := trace.outcome_eq each same
  refine List.ext_getElem? fun job => ?_
  rw [List.getElem?_map]
  cases isJob : jobs[job]? with
  | none =>
    rw [List.getElem?_eq_none_iff] at isJob
    exact List.getElem?_eq_none (length ▸ isJob)
  | some pieces =>
    obtain ⟨result, found, settles⟩ := settled job pieces isJob
    rw [found, Settles.eq_mapM (fun piece => value (perform piece) before) settles
      fun deed member => outcomes deed (List.mem_filter.1 member).1]
    rfl

/-- Jobs of one piece each are gathered like their pieces. -/
theorem collect_singletons (answer : α → Except ε β) (items : List α) :
    collect ((items.map ([·])).map fun pieces => pieces.mapM answer) = items.mapM answer := by
  induction items with
  | nil => rfl
  | cons item rest ih =>
    rw [List.map_cons, List.map_cons, collect, ih, List.mapM_cons, List.mapM_cons]
    cases answer item <;> cases rest.mapM answer <;> rfl

end PhysicsPrefab.Pool
