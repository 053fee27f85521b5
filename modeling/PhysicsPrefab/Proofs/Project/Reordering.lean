import Mathlib.Order.Defs.Unbundled
import PhysicsPrefab.Proofs.Project.Outcomes

/-!
# Pieces that commute

If pieces of different jobs do not stand in each other's way (`Commuting`), what a pool has
performed without a failure can be performed in any order that keeps the order of each job
(`Performed.reorder`). So a pool that succeeds under one schedule succeeds under all, with the same
results and in states that are alike (`runJobs_confluent`), namely as if the jobs were done one
after the other (`runJobs_in_order`).
-/

namespace PhysicsPrefab.Pool

open Program

variable {α β ε σ : Type}

/-- A piece is one of a job. -/
def IsPiece (jobs : List (List α)) (job : Nat) (piece : α) : Prop :=
  ∃ pieces, jobs[job]? = some pieces ∧ piece ∈ pieces

/-- From states that are ready, pieces of different jobs that succeed one after the other succeed
as well the other way round, with the same results, and lead to states that are alike. -/
structure Commuting (alike : σ → σ → Prop) (ready : σ → Prop)
    (perform : α → StateM σ (Except ε β)) (jobs : List (List α)) : Prop where
  /-- States stay ready. -/
  stays : ∀ {job piece state}, IsPiece jobs job piece → ready state →
    ready (final (perform piece) state)
  /-- States that are alike are ready together. -/
  together : ∀ {state other}, alike state other → ready state → ready other
  /-- A piece gives the same in states that are alike. -/
  sameValue : ∀ {state other} (piece), alike state other →
    value (perform piece) state = value (perform piece) other
  /-- A piece leads from states that are alike to such states. -/
  sameFinal : ∀ {state other} (piece), alike state other →
    alike (final (perform piece) state) (final (perform piece) other)
  /-- Pieces of different jobs can change places. -/
  swap : ∀ {first second piece other state made result}, first ≠ second →
    IsPiece jobs first piece → IsPiece jobs second other → ready state →
    value (perform piece) state = .ok made →
    value (perform other) (final (perform piece) state) = .ok result →
    value (perform other) state = .ok result ∧
      value (perform piece) (final (perform other) state) = .ok made ∧
      alike (final (perform other) (final (perform piece) state))
        (final (perform piece) (final (perform other) state))

/-- Deeds that all succeeded, each done where the one before it led. -/
inductive Performed (perform : α → StateM σ (Except ε β)) :
    σ → List (Deed α β ε) → σ → Prop where
  /-- Nothing was done. -/
  | nil (state : σ) : Performed perform state [] state
  /-- One piece was performed before others. -/
  | cons {before after : σ} {deeds : List (Deed α β ε)} {piece : α} {made : β} (job : Nat)
      (good : value (perform piece) before = .ok made)
      (rest : Performed perform (final (perform piece) before) deeds after) :
      Performed perform before (⟨job, piece, .ok made⟩ :: deeds) after

/-- All deeds are for pieces of the jobs. -/
def Known (jobs : List (List α)) (deeds : List (Deed α β ε)) : Prop :=
  ∀ deed ∈ deeds, IsPiece jobs deed.job deed.piece

variable {perform : α → StateM σ (Except ε β)} {jobs : List (List α)} {before after other : σ}
  {deeds : List (Deed α β ε)}

/-- One more piece was performed after others. -/
theorem Performed.concat {piece : α} {made : β} (performed : Performed perform before deeds after)
    (job : Nat) (good : value (perform piece) after = .ok made) :
    Performed perform before (deeds ++ [⟨job, piece, .ok made⟩]) (final (perform piece) after) := by
  induction performed with
  | nil state => exact .cons job good (.nil _)
  | cons first isGood _ ih => exact .cons first isGood (ih good)

/-- A trace of deeds that succeeded. -/
theorem Trace.performed (trace : Trace perform before deeds after)
    (good : ∀ deed ∈ deeds, ∃ made, deed.outcome = .ok made) :
    Performed perform before deeds after := by
  induction trace with
  | nil => exact .nil before
  | @concat deeds after earlier job piece ih =>
    obtain ⟨made, isMade⟩ := good _ (List.mem_append_right _ (List.mem_singleton_self _))
    have last := (ih fun deed member => good deed (List.mem_append_left _ member)).concat job isMade
    rwa [← isMade] at last

section

variable {alike : σ → σ → Prop} [IsEquiv σ alike] {ready : σ → Prop}
  (commuting : Commuting alike ready perform jobs)

include commuting

omit [IsEquiv σ alike] in
/-- The same can be performed in states that are alike. -/
theorem Performed.of_alike (performed : Performed perform before deeds after)
    (same : alike before other) :
    ∃ last, Performed perform other deeds last ∧ alike after last := by
  induction performed generalizing other with
  | nil => exact ⟨other, .nil other, same⟩
  | @cons before after deeds piece made job good rest ih =>
    obtain ⟨last, performed, alikeLast⟩ := ih (commuting.sameFinal piece same)
    exact ⟨last, .cons job ((commuting.sameValue piece same).symm.trans good) performed, alikeLast⟩

/-- A deed before which nothing is done for its job can be done first. -/
theorem Performed.bring_first {early late : List (Deed α β ε)} {deed : Deed α β ε}
    (performed : Performed perform before (early ++ deed :: late) after)
    (known : Known jobs (early ++ deed :: late)) (isReady : ready before)
    (apart : ∀ earlier ∈ early, earlier.job ≠ deed.job) :
    ∃ last, Performed perform before (deed :: (early ++ late)) last ∧ alike after last := by
  induction early generalizing before with
  | nil => exact ⟨after, performed, refl_of alike after⟩
  | cons first rest ih =>
    obtain ⟨firstApart, restApart⟩ := List.forall_mem_cons.1 apart
    obtain ⟨firstKnown, restKnown⟩ := List.forall_mem_cons.1 known
    have deedKnown := restKnown deed (by simp)
    cases performed with
    | @cons _ _ _ piece made job good more =>
      obtain ⟨last, performed, alikeLast⟩ :=
        ih more restKnown (commuting.stays firstKnown isReady) restApart
      cases performed with
      | @cons _ _ _ other result second isGood more =>
        obtain ⟨otherGood, pieceGood, swapped⟩ :=
          commuting.swap firstApart firstKnown deedKnown isReady good isGood
        obtain ⟨later, performed, alikeEnd⟩ := more.of_alike commuting swapped
        exact ⟨later, .cons second otherGood (.cons job pieceGood performed),
          trans_of alike alikeLast alikeEnd⟩

/-- What is to be done next for a job can be done at once, and then the rest. -/
theorem Performed.take_first {todo rest : List (Deed α β ε)} {deed : Deed α β ε}
    (performed : Performed perform before todo after) (known : Known jobs todo)
    (isReady : ready before) (next : deedsFor deed.job todo = deed :: rest) :
    ∃ others last made, deed.outcome = .ok made ∧
      value (perform deed.piece) before = .ok made ∧
      Performed perform (final (perform deed.piece) before) others last ∧ alike after last ∧
      ready (final (perform deed.piece) before) ∧ Known jobs others ∧
      ∀ job, deedsFor job todo = deedsFor job (deed :: others) := by
  obtain ⟨early, late, rfl, apart, -, -⟩ := List.filter_eq_cons_iff.1 next
  simp only [decide_eq_true_eq] at apart
  have isPiece := known deed (by simp)
  obtain ⟨last, performed, alikeLast⟩ := performed.bring_first commuting known isReady apart
  cases performed with
  | @cons _ _ _ piece made job good more =>
    refine ⟨early ++ late, last, made, rfl, good, more, alikeLast,
      commuting.stays isPiece isReady, ?_, fun other => ?_⟩
    · exact fun earlier member => known earlier (by
        rcases List.mem_append.1 member with isEarly | isLate
        · exact List.mem_append_left _ isEarly
        · exact List.mem_append_right _ (List.mem_cons_of_mem _ isLate))
    · by_cases same : job = other
      · subst same
        have none : deedsFor job early = [] := List.filter_eq_nil_iff.2 (by simpa using apart)
        simp only [deedsFor, List.filter_append, List.filter_cons] at none ⊢
        simp [none]
      · simp [deedsFor, List.filter_append, same]

/-- What was performed can be performed in any order that keeps the order for each job. -/
theorem Performed.reorder {order : List (Deed α β ε)}
    (performed : Performed perform before deeds after) (known : Known jobs deeds)
    (isReady : ready before) (same : ∀ job, deedsFor job deeds = deedsFor job order) :
    ∃ last, Performed perform before order last ∧ alike after last := by
  induction order generalizing before after deeds with
  | nil =>
    cases deeds with
    | nil => exact ⟨after, performed, refl_of alike after⟩
    | cons deed rest =>
      have impossible := same deed.job
      simp [deedsFor] at impossible
  | cons deed rest ih =>
    have next : deedsFor deed.job deeds = deed :: deedsFor deed.job rest := by
      rw [same]
      simp [deedsFor]
    obtain ⟨others, last, made, isMade, good, more, alikeLast, stillReady, known, others_eq⟩ :=
      performed.take_first commuting known isReady next
    obtain ⟨later, performed, alikeLater⟩ := ih more known stillReady fun job => by
      have kept := (others_eq job).symm.trans (same job)
      simp only [deedsFor, List.filter_cons] at kept ⊢
      split at kept
      · exact List.cons_injective kept
      · exact kept
    obtain ⟨job, piece, outcome⟩ := deed
    obtain rfl : outcome = .ok made := isMade
    exact ⟨later, .cons job good performed, trans_of alike alikeLast alikeLater⟩

/-- If everything can be performed in some order, then a pool that has done a part for each job
has done it with the same outcomes, and the rest can be performed. -/
theorem Trace.completes {todo : List (Deed α β ε)} {last : σ}
    (trace : Trace perform before deeds after) (performed : Performed perform before todo last)
    (known : Known jobs todo) (isReady : ready before)
    (part : ∀ job, (deedsFor job deeds).map (·.piece) <+: (deedsFor job todo).map (·.piece)) :
    ∃ rest later, Performed perform after rest later ∧ alike last later ∧ ready after ∧
      Known jobs rest ∧ ∀ job, deedsFor job todo = deedsFor job deeds ++ deedsFor job rest := by
  induction trace with
  | nil => exact ⟨todo, last, performed, refl_of alike last, isReady, known, fun _ => rfl⟩
  | @concat deeds after earlier job piece ih =>
    have partBefore : ∀ other, (deedsFor other deeds).map (·.piece) <+:
        (deedsFor other todo).map (·.piece) := by
      intro other
      refine List.IsPrefix.trans ?_ (part other)
      simp [deedsFor, List.filter_append]
    obtain ⟨rest, later, performed, alikeLater, stillReady, known, split⟩ := ih partBefore
    obtain ⟨deed, more, next, samePiece⟩ :
        ∃ deed more, deedsFor job rest = deed :: more ∧ deed.piece = piece := by
      have isPart := part job
      have own : deedsFor job (deeds ++ [⟨job, piece, value (perform piece) after⟩]) =
          deedsFor job deeds ++ [⟨job, piece, value (perform piece) after⟩] := by
        simp [deedsFor]
      rw [split, own, List.map_append, List.map_append, List.prefix_append_right_inj] at isPart
      cases next : deedsFor job rest with
      | nil => simp [next] at isPart
      | cons deed more =>
        refine ⟨deed, more, rfl, ?_⟩
        simpa [next, eq_comm] using isPart
    obtain rfl : deed.job = job := by
      have member : deed ∈ deedsFor job rest := next ▸ List.mem_cons_self
      simpa [deedsFor] using (List.mem_filter.1 member).2
    subst samePiece
    obtain ⟨others, last', made, isMade, good, more, alikeLast, ready, known, others_eq⟩ :=
      performed.take_first commuting known stillReady next
    have isDeed : (⟨deed.job, deed.piece, value (perform deed.piece) after⟩ : Deed α β ε) = deed := by
      rw [good, ← isMade]
    refine ⟨others, last', more, trans_of alike alikeLater alikeLast, ready, known, fun other => ?_⟩
    rw [isDeed, split, others_eq]
    simp only [deedsFor, List.filter_append, List.filter_cons, List.filter_nil, List.append_assoc]
    split <;> rfl

end

/-- A deed of some deeds is one of those for its job. -/
theorem mem_deedsFor {deed : Deed α β ε} (member : deed ∈ deeds) :
    deed ∈ deedsFor deed.job deeds :=
  List.mem_filter.2 ⟨member, decide_eq_true rfl⟩

/-- Nothing is done for a job that there is not. -/
theorem deedsFor_eq_nil {bound job : Nat} (numbers : ∀ deed ∈ deeds, deed.job < bound)
    (outside : bound ≤ job) : deedsFor job deeds = [] := by
  refine List.filter_eq_nil_iff.2 fun deed member isOwn => ?_
  have inside := numbers deed member
  have number := of_decide_eq_true isOwn
  omega

/-- Of the deeds for some jobs those for one of them are the deeds for it. -/
theorem deedsFor_flatMap {numbers : List Nat} (distinct : numbers.Nodup)
    (deeds : List (Deed α β ε)) (job : Nat) :
    deedsFor job (numbers.flatMap fun number => deedsFor number deeds) =
      if job ∈ numbers then deedsFor job deeds else [] := by
  induction numbers with
  | nil => rfl
  | cons first rest ih =>
    obtain ⟨isNew, restDistinct⟩ := List.nodup_cons.1 distinct
    have first_eq : deedsFor job (deedsFor first deeds) =
        if job = first then deedsFor job deeds else [] := by
      split
      · rename_i same
        rw [same, deedsFor, deedsFor, List.filter_filter]
        simp
      · rename_i different
        refine List.filter_eq_nil_iff.2 fun deed member isOwn => different ?_
        exact (of_decide_eq_true isOwn).symm.trans
          (of_decide_eq_true (List.mem_filter.1 member).2)
    have split : deedsFor job ((first :: rest).flatMap fun number => deedsFor number deeds) =
        deedsFor job (deedsFor first deeds) ++
          deedsFor job (rest.flatMap fun number => deedsFor number deeds) :=
      List.filter_append ..
    rw [split, first_eq, ih restDistinct]
    by_cases same : job = first
    · simp [same, isNew]
    · simp [same]

/-- A job that is settled has been done in part. -/
theorem Settles.isPrefix {pieces : List α} {result : Except ε (List β)}
    (settles : Settles pieces deeds result) : deeds.map (·.piece) <+: pieces := by
  cases result with
  | ok made => exact settles.1 ▸ List.prefix_rfl
  | error error => exact settles.1

/-- If what was done for a job starts what settles it well, nothing more is to be done for it. -/
theorem Settles.eq_of_append {pieces : List α} {rest : List (Deed α β ε)} {made : List β}
    {result : Except ε (List β)} (settles : Settles pieces deeds result)
    (all : Settles pieces (deeds ++ rest) (.ok made)) : result = .ok made ∧ rest = [] := by
  obtain ⟨pieces_eq, outcomes⟩ := all
  cases result with
  | error error =>
    obtain ⟨-, own, failed⟩ := settles
    have bad : .error error ∈ made.map Except.ok := by
      rw [← outcomes, List.map_append, failed]
      simp
    obtain ⟨_, -, impossible⟩ := List.mem_map.1 bad
    contradiction
  | ok own =>
    obtain ⟨own_eq, own_outcomes⟩ := settles
    have nothing : rest = [] := by
      rw [List.map_append, own_eq] at pieces_eq
      simpa using pieces_eq
    rw [nothing, List.append_nil, own_outcomes] at outcomes
    exact ⟨congrArg _ (List.map_injective_iff.2 (fun _ _ => Except.ok.inj) outcomes), nothing⟩

/-- A pool that succeeds has performed all pieces of all jobs. -/
theorem exists_performed {schedule : Schedule} {all : List β}
    (gathered : collect (value (runJobs schedule perform jobs) before) = .ok all) :
    ∃ deeds, Performed perform before deeds (final (runJobs schedule perform jobs) before) ∧
      Known jobs deeds ∧ (∀ deed ∈ deeds, deed.job < jobs.length) ∧
      ∀ job pieces, jobs[job]? = some pieces →
        ∃ made, (value (runJobs schedule perform jobs) before)[job]? = some (.ok made) ∧
          Settles pieces (deedsFor job deeds) (.ok made) := by
  obtain ⟨deeds, trace, numbers, -, settled⟩ := runJobs_spec schedule perform jobs before
  obtain ⟨made, results, -⟩ := collect_eq_ok gathered
  have allSettled : ∀ job pieces, jobs[job]? = some pieces →
      ∃ made, (value (runJobs schedule perform jobs) before)[job]? = some (.ok made) ∧
        Settles pieces (deedsFor job deeds) (.ok made) := by
    intro job pieces isJob
    obtain ⟨result, isResult, settles⟩ := settled job pieces isJob
    obtain ⟨own, -, rfl⟩ := List.mem_map.1 (results ▸ List.mem_of_getElem? isResult)
    exact ⟨own, isResult, settles⟩
  have own : ∀ deed ∈ deeds, ∃ made, IsPiece jobs deed.job deed.piece ∧ deed.outcome = .ok made := by
    intro deed member
    have isJob := List.getElem?_eq_getElem (numbers deed member)
    obtain ⟨made, -, pieces, outcomes⟩ := allSettled _ _ isJob
    have isOutcome : deed.outcome ∈ made.map .ok :=
      outcomes ▸ List.mem_map_of_mem (mem_deedsFor member)
    obtain ⟨result, -, same⟩ := List.mem_map.1 isOutcome
    exact ⟨result, ⟨_, isJob, pieces ▸ List.mem_map_of_mem (mem_deedsFor member)⟩, same.symm⟩
  refine ⟨deeds, trace.performed fun deed member => ?_, fun deed member => ?_, numbers, allSettled⟩
  · obtain ⟨made, -, isMade⟩ := own deed member
    exact ⟨made, isMade⟩
  · obtain ⟨made, isPiece, -⟩ := own deed member
    exact isPiece

section

variable {alike : σ → σ → Prop} [IsEquiv σ alike] {ready : σ → Prop}
  (commuting : Commuting alike ready perform jobs)

include commuting

/-- A pool whose pieces commute and that succeeds under one schedule succeeds under every one, with
the same results and alike states. -/
theorem runJobs_confluent (first second : Schedule) (same : alike before other)
    (isReady : ready before) {all : List β}
    (gathered : collect (value (runJobs first perform jobs) before) = .ok all) :
    value (runJobs second perform jobs) other = value (runJobs first perform jobs) before ∧
      alike (final (runJobs first perform jobs) before)
        (final (runJobs second perform jobs) other) := by
  obtain ⟨todo, performed, known, numbers, done⟩ := exists_performed gathered
  obtain ⟨last, performed, alikeLast⟩ := performed.of_alike commuting same
  obtain ⟨deeds, trace, deedNumbers, length, settled⟩ := runJobs_spec second perform jobs other
  have part : ∀ job, (deedsFor job deeds).map (·.piece) <+: (deedsFor job todo).map (·.piece) := by
    intro job
    cases isJob : jobs[job]? with
    | none =>
      rw [deedsFor_eq_nil deedNumbers (List.getElem?_eq_none_iff.1 isJob)]
      exact List.nil_prefix
    | some pieces =>
      obtain ⟨made, -, pieces_eq, -⟩ := done job pieces isJob
      obtain ⟨result, -, settles⟩ := settled job pieces isJob
      rw [pieces_eq]
      exact settles.isPrefix
  obtain ⟨rest, later, more, alikeLater, -, -, split⟩ :=
    trace.completes commuting performed known (commuting.together same isReady) part
  have finished : ∀ job pieces, jobs[job]? = some pieces →
      (value (runJobs second perform jobs) other)[job]? =
          (value (runJobs first perform jobs) before)[job]? ∧ deedsFor job rest = [] := by
    intro job pieces isJob
    obtain ⟨made, isMade, all⟩ := done job pieces isJob
    obtain ⟨result, isResult, settles⟩ := settled job pieces isJob
    obtain ⟨rfl, nothing⟩ := settles.eq_of_append (split job ▸ all)
    exact ⟨isResult.trans isMade.symm, nothing⟩
  have nothing : rest = [] := by
    refine List.eq_nil_iff_forall_not_mem.2 fun deed member => ?_
    have isTodo : deed ∈ todo := by
      have isOwn := List.mem_append_right (deedsFor deed.job deeds) (mem_deedsFor member)
      rw [← split] at isOwn
      exact List.mem_of_mem_filter isOwn
    have none := (finished _ _ (List.getElem?_eq_getElem (numbers deed isTodo))).2
    exact List.not_mem_nil (none ▸ mem_deedsFor member)
  subst nothing
  cases more
  refine ⟨List.ext_getElem? fun job => ?_, trans_of alike alikeLast alikeLater⟩
  cases isJob : jobs[job]? with
  | some pieces => exact (finished job pieces isJob).1
  | none =>
    rw [List.getElem?_eq_none_iff] at isJob
    obtain ⟨_, -, -, firstLength, -⟩ := runJobs_spec first perform jobs before
    rw [List.getElem?_eq_none (length ▸ isJob), List.getElem?_eq_none (firstLength ▸ isJob)]

/-- A pool whose pieces commute and that succeeds does what is done by performing the jobs one
after the other. -/
theorem runJobs_in_order {schedule : Schedule} (isReady : ready before) {all : List β}
    (gathered : collect (value (runJobs schedule perform jobs) before) = .ok all) :
    ∃ deeds last, Performed perform before deeds last ∧ deeds.map (·.piece) = jobs.flatten ∧
      alike (final (runJobs schedule perform jobs) before) last := by
  obtain ⟨deeds, performed, known, numbers, done⟩ := exists_performed gathered
  let order := jobs.zipIdx.flatMap fun entry => deedsFor entry.2 deeds
  have same : ∀ job, deedsFor job deeds = deedsFor job order := by
    intro job
    have picked := deedsFor_flatMap (List.nodup_range' (s := 0) (n := jobs.length)) deeds job
    rw [← List.zipIdx_map_snd, List.flatMap_map] at picked
    rw [picked]
    split
    · rfl
    · rename_i outside
      refine deedsFor_eq_nil numbers (Nat.not_lt.1 fun inside => outside ?_)
      rw [List.zipIdx_map_snd, List.mem_range']
      exact ⟨job, inside, by omega⟩
  obtain ⟨last, performed, alikeLast⟩ := performed.reorder commuting known isReady same
  refine ⟨order, last, performed, ?_, alikeLast⟩
  have pieces : jobs.zipIdx.map (fun entry => (deedsFor entry.2 deeds).map (·.piece)) =
      jobs.zipIdx.map (·.1) := by
    refine List.map_congr_left fun entry member => ?_
    obtain ⟨_, -, settles⟩ := done _ _ (List.mk_mem_zipIdx_iff_getElem?.1 member)
    exact settles.1
  rw [List.map_flatMap, List.flatMap_def, pieces, List.zipIdx_map_fst]

end

/-- Pieces that succeed wherever something holds, and keep it, have all succeeded. -/
theorem Trace.succeeds {holds : σ → Prop} {known : α → Prop}
    (each : ∀ piece state, known piece → holds state →
      (∃ made, value (perform piece) state = .ok made) ∧ holds (final (perform piece) state))
    (trace : Trace perform before deeds after) (allKnown : ∀ deed ∈ deeds, known deed.piece)
    (start : holds before) :
    (∀ deed ∈ deeds, ∃ made, deed.outcome = .ok made) ∧ holds after := by
  induction trace with
  | nil => exact ⟨nofun, start⟩
  | concat _ job piece ih =>
    obtain ⟨earlierKnown, lastKnown⟩ := List.forall_mem_append.1 allKnown
    obtain ⟨earlier, reached⟩ := ih earlierKnown
    obtain ⟨succeeds, stays⟩ := each piece _ (lastKnown _ (List.mem_singleton_self _)) reached
    exact ⟨List.forall_mem_append.2 ⟨earlier, List.forall_mem_singleton.2 succeeds⟩, stays⟩

/-- A pool all of whose pieces succeed wherever something holds, and keep it, succeeds. -/
theorem runJobs_succeeds {holds : σ → Prop} {known : α → Prop}
    (each : ∀ piece state, known piece → holds state →
      (∃ made, value (perform piece) state = .ok made) ∧ holds (final (perform piece) state))
    (schedule : Schedule) (allKnown : ∀ piece ∈ jobs.flatten, known piece) (start : holds before) :
    (∃ all, collect (value (runJobs schedule perform jobs) before) = .ok all) ∧
      holds (final (runJobs schedule perform jobs) before) := by
  obtain ⟨deeds, trace, numbers, length, settled⟩ := runJobs_spec schedule perform jobs before
  have pieces : ∀ deed ∈ deeds, known deed.piece := by
    intro deed member
    have isJob := List.getElem?_eq_getElem (numbers deed member)
    obtain ⟨result, -, settles⟩ := settled _ _ isJob
    have isPiece := settles.isPrefix.subset (List.mem_map_of_mem (mem_deedsFor member))
    exact allKnown _ (List.mem_flatten.2 ⟨_, List.getElem_mem _, isPiece⟩)
  obtain ⟨good, reached⟩ := trace.succeeds each pieces start
  refine ⟨?_, reached⟩
  cases gathered : collect (value (runJobs schedule perform jobs) before) with
  | ok all => exact ⟨all, rfl⟩
  | error error =>
    obtain ⟨deed, isDeed, isError⟩ := exists_failed length settled gathered
    obtain ⟨_, isGood⟩ := good deed isDeed
    cases isError.symm.trans isGood

end PhysicsPrefab.Pool
