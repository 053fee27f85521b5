import Mathlib.Data.List.Forall2
import Mathlib.Data.List.Perm.Basic

/-!
# Answers

What is known of an answer that is put together from others: it is good if all of them are
(`bind_eq_ok`, `forall₂_of_mapM_eq_ok`), and otherwise the first bad one counts
(`mapM_eq_error`).
-/

namespace PhysicsPrefab.Answer

variable {α β ε : Type}

/-- Answers one after the other are good if each is. -/
theorem bind_eq_ok {answer : Except ε α} {next : α → Except ε β} {result : β} :
    answer.bind next = .ok result ↔ ∃ made, answer = .ok made ∧ next made = .ok result := by
  cases answer with
  | error error => simp [Except.bind]
  | ok made => simp [Except.bind]

/-- A changed answer is there if the answer is. -/
theorem map_eq_ok {answer : Except ε α} {change : α → β} {result : β} :
    answer.map change = .ok result ↔ ∃ made, answer = .ok made ∧ change made = result := by
  cases answer with
  | error error => exact iff_of_false nofun fun ⟨_, same, _⟩ => nomatch same
  | ok made =>
    change Except.ok (change made) = _ ↔ _
    simp

/-- An answer that passes a test is good. -/
theorem exists_of_any {answer : Except ε α} {test : α → Bool}
    (passes : answer.toOption.any test = true) : ∃ made, answer = .ok made ∧ test made = true := by
  cases answer with
  | error error => contradiction
  | ok made => exact ⟨made, rfl, passes⟩

/-- All answers are there if the list of them is. -/
theorem forall₂_of_mapM_eq_ok {answer : α → Except ε β} {items : List α}
    {made : List β} (gathered : items.mapM answer = .ok made) :
    List.Forall₂ (fun item result => answer item = .ok result) items made := by
  induction items generalizing made with
  | nil =>
    obtain rfl := Except.ok.inj gathered
    exact .nil
  | cons item rest ih =>
    rw [List.mapM_cons] at gathered
    cases first : answer item with
    | error error => simp [first, bind, Except.bind] at gathered
    | ok result =>
      cases more : rest.mapM answer with
      | error error => simp [first, more, bind, Except.bind] at gathered
      | ok others =>
        simp only [first, more, bind, Except.bind, pure, Except.pure, Except.ok.injEq] at gathered
        subst gathered
        exact .cons first (ih more)

/-- Every result is that of an item. -/
theorem exists_of_mem_right {related : α → β → Prop} {items : List α} {made : List β}
    (all : List.Forall₂ related items made) {result : β} (member : result ∈ made) :
    ∃ item ∈ items, related item result := by
  induction all with
  | nil => contradiction
  | cons first _ ih =>
    rcases List.mem_cons.1 member with rfl | later
    · exact ⟨_, List.mem_cons_self, first⟩
    · obtain ⟨item, isItem, isRelated⟩ := ih later
      exact ⟨item, List.mem_cons_of_mem _ isItem, isRelated⟩

/-- Every item has a result. -/
theorem exists_of_mem_left {related : α → β → Prop} {items : List α} {made : List β}
    (all : List.Forall₂ related items made) {item : α} (member : item ∈ items) :
    ∃ result ∈ made, related item result :=
  exists_of_mem_right all.flip member

/-- Items in another order are related to the results in some other order. -/
theorem forall₂_of_perm {related : α → β → Prop} {items others : List α} {made : List β}
    (all : List.Forall₂ related items made) (perm : items.Perm others) :
    ∃ permuted, made.Perm permuted ∧ List.Forall₂ related others permuted := by
  obtain ⟨permuted, othersAll, samePerm⟩ := List.perm_comp_forall₂ perm.symm all
  exact ⟨permuted, samePerm.symm, othersAll⟩

/-- The results of one list after another are those of the one after those of the other. -/
theorem forall₂_append {related : α → β → Prop} {before after : List α} {made : List β}
    (all : List.Forall₂ related (before ++ after) made) : ∃ first second,
      made = first ++ second ∧ List.Forall₂ related before first ∧ List.Forall₂ related after second := by
  induction before generalizing made with
  | nil => exact ⟨[], made, rfl, .nil, all⟩
  | cons item before ih =>
    cases all with
    | cons isRelated rest =>
      obtain ⟨first, second, rfl, firstAll, secondAll⟩ := ih rest
      exact ⟨_ :: first, second, rfl, .cons isRelated firstAll, secondAll⟩

/-- The result of an item in the middle stands in the middle of the results. -/
theorem forall₂_middle {related : α → β → Prop} {before after : List α} {item : α} {made : List β}
    (all : List.Forall₂ related (before ++ item :: after) made) : ∃ first result second,
      made = first ++ result :: second ∧ List.Forall₂ related before first ∧ related item result ∧
        List.Forall₂ related after second := by
  obtain ⟨first, second, rfl, firstAll, secondAll⟩ := forall₂_append all
  cases secondAll with
  | cons isRelated rest => exact ⟨first, _, _, rfl, firstAll, isRelated, rest⟩

/-- An item may be replaced by one that is related to the same results. -/
theorem forall₂_replace {related : α → β → Prop} {before after : List α} {item other : α}
    {made : List β} (all : List.Forall₂ related (before ++ item :: after) made)
    (follows : ∀ result, related item result → related other result) :
    List.Forall₂ related (before ++ other :: after) made := by
  obtain ⟨first, result, second, rfl, firstAll, isRelated, secondAll⟩ := forall₂_middle all
  exact List.rel_append firstAll (.cons (follows result isRelated) secondAll)

/-- A result stands beside an item if it is the only one that is related to it. -/
theorem mem_zip_iff {related : α → β → Prop} {items : List α} {made : List β}
    (all : List.Forall₂ related items made)
    (unique : ∀ item first second, related item first → related item second → first = second)
    {item : α} {result : β} : (item, result) ∈ items.zip made ↔ item ∈ items ∧ related item result := by
  induction all with
  | nil => simp
  | cons first _ ih =>
    rw [List.zip_cons_cons, List.mem_cons, List.mem_cons, ih, Prod.mk.injEq]
    constructor
    · rintro (⟨rfl, rfl⟩ | ⟨isLater, isRelated⟩)
      · exact ⟨.inl rfl, first⟩
      · exact ⟨.inr isLater, isRelated⟩
    · rintro ⟨rfl | isLater, isRelated⟩
      · exact .inl ⟨rfl, unique _ _ _ isRelated first⟩
      · exact .inr ⟨isLater, isRelated⟩

/-- If every item is related to something, the items are related to some list. -/
theorem exists_forall₂ {related : α → β → Prop} {items : List α}
    (each : ∀ item ∈ items, ∃ result, related item result) : ∃ made, List.Forall₂ related items made := by
  induction items with
  | nil => exact ⟨[], .nil⟩
  | cons item rest ih =>
    obtain ⟨⟨first, isFirst⟩, others⟩ := List.forall_mem_cons.1 each
    obtain ⟨made, areMade⟩ := ih others
    exact ⟨first :: made, .cons isFirst areMade⟩

/-- Answers that are all good are gathered. -/
theorem mapM_eq_ok {answer : α → Except ε β} {items : List α} {made : List β}
    (answers : items.map answer = made.map .ok) : items.mapM answer = .ok made := by
  induction items generalizing made with
  | nil =>
    obtain rfl := List.map_eq_nil_iff.1 answers.symm
    rfl
  | cons item rest ih =>
    cases made with
    | nil => contradiction
    | cons first others =>
      simp only [List.map_cons, List.cons.injEq] at answers
      rw [List.mapM_cons, answers.1, ih answers.2]
      rfl

/-- Gathered answers are there if and only if each answer is. -/
theorem mapM_eq_ok_iff {answer : α → Except ε β} {items : List α} {made : List β} :
    items.mapM answer = .ok made ↔
      List.Forall₂ (fun item result => answer item = .ok result) items made := by
  refine ⟨forall₂_of_mapM_eq_ok, fun each => mapM_eq_ok ?_⟩
  induction each with
  | nil => rfl
  | cons first _ ih => rw [List.map_cons, List.map_cons, first, ih]

/-- The first bad answer counts. -/
theorem mapM_eq_error {answer : α → Except ε β} {items more : List α} {made : List β} {error : ε}
    (answers : items.map answer = made.map .ok ++ [.error error]) :
    (items ++ more).mapM answer = .error error := by
  induction items generalizing made with
  | nil => simp at answers
  | cons item rest ih =>
    cases made with
    | nil =>
      simp only [List.map_cons, List.map_nil, List.nil_append, List.cons.injEq] at answers
      rw [List.cons_append, List.mapM_cons, answers.1]
      rfl
    | cons first others =>
      simp only [List.map_cons, List.cons_append, List.cons.injEq] at answers
      rw [List.cons_append, List.mapM_cons, answers.1, ih answers.2]
      rfl

/-- The bad answer that all good ones come before counts. -/
theorem mapM_of_first_error {answer : α → Except ε β} {earlier later : List α} {item : α}
    {error : ε} (good : ∀ other ∈ earlier, ∃ made, answer other = .ok made)
    (bad : answer item = .error error) :
    (earlier ++ item :: later).mapM answer = .error error := by
  induction earlier with
  | nil =>
    rw [List.nil_append, List.mapM_cons, bad]
    rfl
  | cons first rest ih =>
    obtain ⟨⟨made, isMade⟩, others⟩ := List.forall_mem_cons.1 good
    rw [List.cons_append, List.mapM_cons, isMade, ih others]
    rfl

end PhysicsPrefab.Answer
