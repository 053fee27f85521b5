import PhysicsPrefab.Proofs.Emit.Stamping

/-!
# Filling in templates

A template is filled in by a single pass over its text: wherever a placeholder stands, the value of
its variable is put, and what came from a value is never looked at again (`fill`). The emitter
replaces the placeholders of one variable after the other in the text as it has become so far, and so
it may take a text that came from a value for a placeholder. That cannot happen if no value can take
part in the placeholder of a later variable, and if one can, there is a template in which it does
(`substitute_eq_fill`).
-/

namespace PhysicsPrefab.Template

variable {values : List (String × String)} {name value : String}

/-- The variable whose placeholder begins a text. -/
def leading? (values : List (String × String)) (text : List Char) : Option (String × String) :=
  values.find? fun entry => (placeholder entry.1).isPrefixOf text

/-- Put the values of variables where their placeholders stand, in one pass from the left; `skip`
characters belong to a placeholder whose value has been put. -/
def fillFrom (values : List (String × String)) : Nat → List Char → List Char
  | _, [] => []
  | skip + 1, _ :: rest => fillFrom values skip rest
  | 0, character :: rest =>
    match leading? values (character :: rest) with
    | some (name, value) => value.toList ++ fillFrom values ((placeholder name).length - 1) rest
    | none => character :: fillFrom values 0 rest

/-- A template with the values of all variables put where their placeholders stand. -/
def fill (template : String) (values : List (String × String)) : String :=
  String.ofList (fillFrom values 0 template.toList)

/-- Variables with different names without braces. -/
structure AreNamed (values : List (String × String)) : Prop where
  /-- No name is used twice. -/
  distinct : (values.map (·.1)).Nodup
  /-- No name holds a brace. -/
  noBraces : ∀ entry ∈ values, '\x7b' ∉ entry.1.toList ∧ '\x7d' ∉ entry.1.toList

instance (values : List (String × String)) : Decidable (AreNamed values) :=
  decidable_of_iff ((values.map (·.1)).Nodup ∧
      ∀ entry ∈ values, '\x7b' ∉ entry.1.toList ∧ '\x7d' ∉ entry.1.toList)
    ⟨fun ⟨distinct, noBraces⟩ => ⟨distinct, noBraces⟩,
      fun named => ⟨named.distinct, named.noBraces⟩⟩

/-- Whether a value can take no part in a pattern: between a beginning and an end of the pattern,
neither of them all of it, the value makes up no pattern. -/
def IsApart (value pattern : List Char) : Prop :=
  ∀ start finish, start <+: pattern → start ≠ pattern → finish <:+ pattern → finish ≠ pattern →
    ¬ pattern <:+: start ++ value ++ finish

instance (value pattern : List Char) : Decidable (IsApart value pattern) :=
  decidable_of_iff (∀ start ∈ pattern.inits, ∀ finish ∈ pattern.tails, start ≠ pattern →
      finish ≠ pattern → ¬ pattern <:+: start ++ value ++ finish) <| by
    simp only [List.mem_inits, List.mem_tails]
    exact ⟨fun apart start finish isStart proper isFinish => apart start isStart finish isFinish proper,
      fun apart start isStart finish isFinish proper => apart start finish isStart proper isFinish⟩

/-- A pattern that begins a text in two parts begins the first or goes on into the second. -/
theorem prefix_append_cases {pattern first second : List Char} (begins : pattern <+: first ++ second) :
    pattern <+: first ∨ ∃ more ≠ [], pattern = first ++ more ∧ more <+: second := by
  rcases List.prefix_or_prefix_of_prefix begins (List.prefix_append _ _) with inside | ⟨more, rfl⟩
  · exact .inl inside
  · by_cases empty : more = []
    · exact .inl (by simp [empty])
    · exact .inr ⟨more, empty, rfl, (List.prefix_append_right_inj first).1 begins⟩

/-- Two placeholders that begin one text are those of one variable. -/
theorem eq_of_placeholders {other : String} {text : List Char} (noEnd : '\x7d' ∉ name.toList)
    (otherNoEnd : '\x7d' ∉ other.toList) (first : placeholder name <+: text)
    (second : placeholder other <+: text) : name = other := by
  obtain ⟨after, rfl⟩ := first
  obtain ⟨otherAfter, same⟩ := second
  simp only [placeholder, List.cons_append, List.append_assoc, List.cons.injEq, true_and,
    List.nil_append] at same
  rw [← String.toList_inj]
  rcases List.append_eq_append_iff.1 same with ⟨more, longer, ends⟩ | ⟨more, longer, ends⟩
  · cases more with
    | nil => rw [longer, List.append_nil]
    | cons character more =>
      obtain ⟨rfl, -⟩ := List.cons.inj ends
      exact absurd (longer ▸ List.mem_append_right _ List.mem_cons_self) noEnd
  · cases more with
    | nil => rw [longer, List.append_nil]
    | cons character more =>
      obtain ⟨rfl, -⟩ := List.cons.inj ends
      exact absurd (longer ▸ List.mem_append_right _ List.mem_cons_self) otherNoEnd

/-- No placeholder begins inside of another. -/
theorem not_prefix_inside {other : String} (noStart : '\x7b' ∉ other.toList) {part : List Char}
    (isPart : part <:+ placeholder other) (nonempty : part ≠ []) (inside : part ≠ placeholder other)
    (text : List Char) : ¬ placeholder name <+: part ++ text := by
  intro begins
  rcases List.suffix_cons_iff.1 isPart with rfl | isPart
  · exact inside rfl
  rcases List.suffix_cons_iff.1 isPart with rfl | isPart
  · simp [placeholder] at begins
  change part <:+ other.toList ++ ['\x7d'] at isPart
  match part with
  | [] => exact nonempty rfl
  | [only] =>
    obtain rfl := List.singleton_suffix_append_singleton_iff.1 isPart
    simp [placeholder] at begins
  | first :: second :: more =>
    obtain ⟨-, begins⟩ := List.cons_prefix_cons.1 begins
    obtain ⟨rfl, -⟩ := List.cons_prefix_cons.1 begins
    have inOther : '\x7b' ∈ other.toList ++ ['\x7d'] := isPart.subset (by simp)
    simp [noStart] at inOther

/-- No placeholder reaches from before another placeholder into it. -/
theorem not_prefix_across {other : String} (noStart : '\x7b' ∉ name.toList) {part : List Char}
    (noEnd : '\x7d' ∉ part) (nonempty : part ≠ []) (text : List Char) :
    ¬ placeholder name <+: part ++ (placeholder other ++ text) := by
  intro begins
  rcases prefix_append_cases begins with inside | ⟨more, some, whole, reaches⟩
  · exact noEnd (inside.subset (by simp [placeholder]))
  obtain ⟨first, others, rfl⟩ := List.exists_cons_of_ne_nil nonempty
  obtain ⟨-, whole⟩ := List.cons.inj whole
  match more with
  | [] => exact some rfl
  | [only] =>
    obtain ⟨rfl, -⟩ := List.cons_prefix_cons.1 reaches
    exact absurd (List.append_inj' whole rfl).2 (by decide)
  | sign :: brace :: after =>
    obtain ⟨rfl, begins⟩ := List.cons_prefix_cons.1 reaches
    obtain ⟨rfl, -⟩ := List.cons_prefix_cons.1 begins
    cases others with
    | nil => simp at whole
    | cons second others =>
      obtain ⟨-, whole⟩ := List.cons.inj whole
      change name.toList ++ ['\x7d'] = _ at whole
      have inName : '\x7b' ∈ name.toList ++ ['\x7d'] := by simp [whole]
      simp [noStart] at inName

namespace IsApart

variable {value pattern : List Char}

/-- The pattern does not begin in the value. -/
theorem not_prefix_of_tail (apart : IsApart value pattern) (proper : pattern ≠ []) {tail : List Char}
    (isTail : tail <:+ value) (nonempty : tail ≠ []) (text : List Char) :
    ¬ pattern <+: tail ++ text := by
  intro begins
  obtain ⟨front, rfl⟩ := isTail
  rcases prefix_append_cases begins with inside | ⟨finish, -, rfl, -⟩
  · refine apart [] [] List.nil_prefix proper.symm List.nil_suffix proper.symm ?_
    rw [List.nil_append, List.append_nil]
    exact inside.isInfix.trans List.infix_append_right
  · have smaller : finish ≠ tail ++ finish := by simpa using nonempty
    refine apart [] finish List.nil_prefix proper.symm (List.suffix_append _ _) smaller ?_
    rw [List.nil_append, List.append_assoc]
    exact List.infix_append_right

/-- The pattern does not reach from before the value to the value or across it. -/
theorem prefix_before (apart : IsApart value pattern) {before : List Char} (nonempty : before ≠ [])
    {text : List Char} (begins : pattern <+: before ++ (value ++ text)) : pattern <+: before := by
  rcases prefix_append_cases begins with inside | ⟨more, some, rfl, reaches⟩
  · exact inside
  have smaller : before ≠ before ++ more := by simpa using some
  have none : [] ≠ before ++ more := by simp [nonempty]
  rcases prefix_append_cases reaches with inside | ⟨finish, -, rfl, -⟩
  · refine absurd ?_ (apart before [] (List.prefix_append _ _) smaller List.nil_suffix none)
    rw [List.append_nil]
    exact ((List.prefix_append_right_inj before).2 inside).isInfix
  · have isFinish : finish <:+ before ++ (value ++ finish) :=
      (List.suffix_append _ _).trans (List.suffix_append _ _)
    have notAll : finish ≠ before ++ (value ++ finish) := by
      simpa [← List.append_assoc] using fun empty _ => nonempty empty
    refine absurd ?_ (apart before finish (List.prefix_append _ _) smaller isFinish notAll)
    rw [List.append_assoc]

end IsApart

/-- No variable is found where no placeholder begins. -/
theorem leading?_eq_none {text : List Char} :
    leading? values text = none ↔ ∀ entry ∈ values, ¬ placeholder entry.1 <+: text := by
  simp [leading?, List.find?_eq_none]

/-- The variable whose placeholder begins a text is found. -/
theorem leading?_eq_some (named : AreNamed values) {text : List Char} {entry : String × String} :
    leading? values text = some entry ↔ entry ∈ values ∧ placeholder entry.1 <+: text := by
  constructor
  · intro found
    exact ⟨List.mem_of_find?_eq_some found, by simpa using List.find?_some found⟩
  · rintro ⟨member, begins⟩
    cases found : leading? values text with
    | none => exact absurd begins (leading?_eq_none.1 found entry member)
    | some other =>
      have isOther := List.mem_of_find?_eq_some found
      have otherBegins : placeholder other.1 <+: text := by simpa using List.find?_some found
      have sameName := eq_of_placeholders (named.noBraces other isOther).2
        (named.noBraces entry member).2 otherBegins begins
      rw [List.inj_on_of_nodup_map named.distinct isOther member sameName]

/-- Characters of a placeholder are skipped. -/
theorem fillFrom_skip (start rest : List Char) :
    fillFrom values start.length (start ++ rest) = fillFrom values 0 rest := by
  induction start with
  | nil => rfl
  | cons character more ih => rw [List.length_cons, List.cons_append, fillFrom, ih]

/-- A value is put where the placeholder stands. -/
theorem fillFrom_placeholder (named : AreNamed values) (member : (name, value) ∈ values)
    (rest : List Char) :
    fillFrom values 0 (placeholder name ++ rest) = value.toList ++ fillFrom values 0 rest := by
  obtain ⟨more, isCons⟩ : ∃ more, placeholder name = '#' :: more := ⟨_, rfl⟩
  have found : leading? values ('#' :: (more ++ rest)) = some (name, value) :=
    (leading?_eq_some named).2 ⟨member, by simp [isCons]⟩
  rw [isCons, List.cons_append, fillFrom, found]
  simp only [isCons, List.length_cons, Nat.add_sub_cancel, fillFrom_skip]

/-- A character stays where no placeholder begins. -/
theorem fillFrom_cons {character : Char} {rest : List Char}
    (passed : ∀ entry ∈ values, ¬ placeholder entry.1 <+: character :: rest) :
    fillFrom values 0 (character :: rest) = character :: fillFrom values 0 rest := by
  rw [fillFrom, leading?_eq_none.2 passed]

/-- A text stays in which no placeholder begins. -/
theorem fillFrom_append {part rest : List Char}
    (passed : ∀ tail, tail <:+ part → tail ≠ [] → ∀ entry ∈ values,
      ¬ placeholder entry.1 <+: tail ++ rest) :
    fillFrom values 0 (part ++ rest) = part ++ fillFrom values 0 rest := by
  induction part with
  | nil => rfl
  | cons character more ih =>
    have first := passed _ (List.suffix_refl _) (List.cons_ne_nil character more)
    have later := ih fun tail isTail => passed tail (isTail.trans (List.suffix_cons character more))
    rw [List.cons_append] at first
    rw [List.cons_append, fillFrom_cons first, later, List.cons_append]

/-- Names stay different in another order. -/
theorem AreNamed.perm (named : AreNamed values) {reordered : List (String × String)}
    (perm : values.Perm reordered) : AreNamed reordered :=
  ⟨(perm.map _).nodup_iff.1 named.distinct,
    fun entry member => named.noBraces entry (perm.mem_iff.2 member)⟩

/-- The order of the variables does not matter to a single pass. -/
theorem fillFrom_perm (named : AreNamed values) {reordered : List (String × String)}
    (perm : values.Perm reordered) (skip : Nat) (text : List Char) :
    fillFrom reordered skip text = fillFrom values skip text := by
  have renamed := named.perm perm
  have sameLeading (text : List Char) : leading? reordered text = leading? values text := by
    refine Option.ext fun entry => ?_
    simp only [leading?_eq_some named, leading?_eq_some renamed, perm.mem_iff]
  induction text generalizing skip with
  | nil => simp [fillFrom]
  | cons character rest ih =>
    cases skip with
    | succ skip => exact ih skip
    | zero => simp only [fillFrom, sameLeading, ih]

/-- Replacing a placeholder is a pass with one variable. -/
theorem replaceFrom_eq_fillFrom (name value : String) (skip : Nat) (text : List Char) :
    replaceFrom (placeholder name) value.toList skip text = fillFrom [(name, value)] skip text := by
  induction text generalizing skip with
  | nil => simp [replaceFrom, fillFrom]
  | cons character rest ih =>
    cases skip with
    | succ skip => exact ih skip
    | zero =>
      rw [replaceFrom, fillFrom, leading?, List.find?_singleton]
      split <;> simp only [ih]

/-- A text has no placeholder of a variable, or it has a first one. -/
theorem fillFrom_cases (named : AreNamed [(name, value)]) (text : List Char) :
    (¬ placeholder name <:+: text ∧ fillFrom [(name, value)] 0 text = text) ∨ ∃ before after,
      text = before ++ (placeholder name ++ after) ∧ fillFrom [(name, value)] 0 text =
        before ++ (value.toList ++ fillFrom [(name, value)] 0 after) := by
  induction text with
  | nil => exact .inl ⟨by simp [placeholder], rfl⟩
  | cons character rest ih =>
    by_cases begins : placeholder name <+: character :: rest
    · obtain ⟨after, same⟩ := begins
      refine .inr ⟨[], after, same.symm, ?_⟩
      rw [← same, fillFrom_placeholder named List.mem_cons_self, List.nil_append]
    · rw [fillFrom_cons (by simpa using begins)]
      rcases ih with ⟨absent, same⟩ | ⟨before, after, split, same⟩
      · exact .inl ⟨by simp [List.infix_cons_iff, begins, absent], by rw [same]⟩
      · exact .inr ⟨character :: before, after, by rw [split, List.cons_append],
          by rw [same, List.cons_append]⟩

/-- A pattern in which a value takes no part stands at the beginning of a text if it does so after
the value has been put, unless the placeholder stands there. -/
theorem prefix_of_prefix_fillFrom {pattern text : List Char} (named : AreNamed [(name, value)])
    (apart : IsApart value.toList pattern) (passed : ¬ placeholder name <+: text)
    (begins : pattern <+: fillFrom [(name, value)] 0 text) : pattern <+: text := by
  rcases fillFrom_cases named text with ⟨-, same⟩ | ⟨before, after, rfl, same⟩
  · rwa [same] at begins
  · rw [same] at begins
    have nonempty : before ≠ [] := by
      rintro rfl
      exact passed (List.prefix_append _ _)
    exact (apart.prefix_before nonempty begins).trans (List.prefix_append _ _)

/-- Putting one value first and the others after it is a single pass, if the value takes no part in
the placeholders of the others. -/
theorem fillFrom_fillFrom {rest : List (String × String)} (named : AreNamed ((name, value) :: rest))
    (apart : ∀ entry ∈ rest, IsApart value.toList (placeholder entry.1)) (text : List Char) :
    fillFrom rest 0 (fillFrom [(name, value)] 0 text) = fillFrom ((name, value) :: rest) 0 text := by
  have first : AreNamed [(name, value)] :=
    ⟨List.nodup_singleton _, fun entry member => named.noBraces entry (by simp_all)⟩
  have others : AreNamed rest := ⟨(List.nodup_cons.1 named.distinct).2,
    fun entry member => named.noBraces entry (List.mem_cons_of_mem _ member)⟩
  match text with
  | [] => rfl
  | character :: more =>
    by_cases begins : ∃ entry ∈ (name, value) :: rest, placeholder entry.1 <+: character :: more
    case pos =>
      obtain ⟨entry, member, after, same⟩ := begins
      have shorter : after.length ≤ more.length := by
        have lengths := congrArg List.length same
        simp only [placeholder, List.length_append, List.length_cons] at lengths
        omega
      rw [← same, fillFrom_placeholder named member]
      rcases List.mem_cons.1 member with rfl | isOther
      · rw [fillFrom_placeholder first List.mem_cons_self, fillFrom_append,
          fillFrom_fillFrom named apart after]
        intro tail isTail nonempty entry isEntry
        exact (apart entry isEntry).not_prefix_of_tail (List.cons_ne_nil _ _) isTail nonempty _
      · have kept : fillFrom [(name, value)] 0 (placeholder entry.1 ++ after) =
            placeholder entry.1 ++ fillFrom [(name, value)] 0 after := by
          refine fillFrom_append fun tail isTail nonempty found isFound begins => ?_
          obtain rfl := List.mem_singleton.1 isFound
          by_cases whole : tail = placeholder entry.1
          · subst whole
            have same := eq_of_placeholders (named.noBraces _ List.mem_cons_self).2
              (named.noBraces entry member).2 begins (List.prefix_append _ _)
            exact (List.nodup_cons.1 named.distinct).1 (List.mem_map.2 ⟨entry, isOther, same.symm⟩)
          · exact not_prefix_inside (named.noBraces entry member).1 isTail nonempty whole _ begins
        rw [kept, fillFrom_placeholder others isOther, fillFrom_fillFrom named apart after]
    case neg =>
      have passed : ∀ entry ∈ (name, value) :: rest, ¬ placeholder entry.1 <+: character :: more :=
        fun entry member found => begins ⟨entry, member, found⟩
      obtain ⟨firstPassed, othersPassed⟩ := List.forall_mem_cons.1 passed
      have stays : fillFrom [(name, value)] 0 (character :: more) =
          character :: fillFrom [(name, value)] 0 more := fillFrom_cons (by simpa using firstPassed)
      rw [fillFrom_cons passed, stays, fillFrom_cons, fillFrom_fillFrom named apart more]
      intro entry isEntry found
      rw [← stays] at found
      exact othersPassed entry isEntry
        (prefix_of_prefix_fillFrom first (apart entry isEntry) firstPassed found)
termination_by text.length

/-- Replacing one variable after the other is a single pass, if no value takes part in the
placeholder of a later variable. -/
theorem substitute_eq_of_apart (named : AreNamed values)
    (apart : values.Pairwise fun earlier later => IsApart earlier.2.toList (placeholder later.1))
    (template : String) : substitute template values = fill template values := by
  induction values generalizing template with
  | nil =>
    have kept : fillFrom [] 0 template.toList = template.toList := by
      have passed := @fillFrom_append [] template.toList [] (fun _ _ _ => nofun)
      rwa [List.append_nil, fillFrom, List.append_nil] at passed
    rw [substitute_nil, fill, kept, String.ofList_toList]
  | cons entry rest ih =>
    obtain ⟨name, value⟩ := entry
    obtain ⟨firstApart, othersApart⟩ := List.pairwise_cons.1 apart
    have others : AreNamed rest := ⟨(List.nodup_cons.1 named.distinct).2,
      fun entry member => named.noBraces entry (List.mem_cons_of_mem _ member)⟩
    rw [substitute_cons, ih others othersApart, fill, fill, toList_substitute, replaceFrom_eq_fillFrom,
      fillFrom_fillFrom named firstApart]

/-- Nothing grows longer when nothing is put. -/
theorem length_fillFrom_le (name : String) (skip : Nat) (text : List Char) :
    (fillFrom [(name, "")] skip text).length ≤ text.length := by
  induction text generalizing skip with
  | nil => simp [fillFrom]
  | cons character rest ih =>
    rw [List.length_cons]
    cases skip with
    | succ skip => exact (ih skip).trans (Nat.le_succ _)
    | zero =>
      rw [← replaceFrom_eq_fillFrom, replaceFrom]
      split
      · rw [replaceFrom_eq_fillFrom]
        exact (ih _).trans (Nat.le_succ _)
      · rw [replaceFrom_eq_fillFrom, List.length_cons]
        exact Nat.succ_le_succ (ih 0)

/-- A text with a placeholder grows shorter when nothing is put. -/
theorem length_fillFrom_lt (named : AreNamed [(name, "")]) {text : List Char}
    (stands : placeholder name <:+: text) : (fillFrom [(name, "")] 0 text).length < text.length := by
  rcases fillFrom_cases named text with ⟨absent, -⟩ | ⟨before, after, rfl, same⟩
  · exact absurd stands absent
  · have rest := length_fillFrom_le name 0 after
    have pattern : 0 < (placeholder name).length := by simp [placeholder]
    have none : "".toList.length = 0 := rfl
    rw [same]
    simp only [List.length_append, none]
    omega

/-- Where a value takes part in the placeholder of a later variable, a template can be made in which
it is taken for one. -/
theorem exists_substitute_ne_fill {other : String} (named : AreNamed [(name, value), (other, "")])
    (meets : ¬ IsApart value.toList (placeholder other)) :
    ∃ template, substitute template [(name, value), (other, "")] ≠
      fill template [(name, value), (other, "")] := by
  have noBraces := named.noBraces (name, value) (by simp)
  have otherNoBraces := named.noBraces (other, "") (by simp)
  simp only [IsApart, not_forall, not_not] at meets
  obtain ⟨start, finish, isStart, properStart, isFinish, properFinish, stands⟩ := meets
  have noEnd : '\x7d' ∉ start := by
    intro member
    have isFront : start <+: '#' :: '\x7b' :: other.toList :=
      (List.prefix_concat_iff.1 isStart).resolve_left properStart
    simpa [otherNoBraces.2] using isFront.subset member
  have filled (values : List (String × String)) (named : AreNamed values)
      (member : (name, value) ∈ values) :
      fillFrom values 0 (start ++ (placeholder name ++ finish)) = start ++ (value.toList ++ finish) := by
    have finishStays : fillFrom values 0 (finish ++ []) = finish ++ [] := by
      refine fillFrom_append fun tail isTail nonempty entry _ => ?_
      have inside : tail ≠ placeholder other := by
        rintro rfl
        exact properFinish (isFinish.eq_of_length_le isTail.length_le)
      exact not_prefix_inside otherNoBraces.1 (isTail.trans isFinish) nonempty inside []
    rw [List.append_nil] at finishStays
    rw [fillFrom_append, fillFrom_placeholder named member, finishStays]
    exact fun tail isTail nonempty entry isEntry => not_prefix_across (named.noBraces entry isEntry).1
      (fun isEnd => noEnd (isTail.subset isEnd)) nonempty finish
  have single : AreNamed [(name, value)] :=
    ⟨List.nodup_singleton _, List.forall_mem_singleton.2 noBraces⟩
  have otherSingle : AreNamed [(other, "")] :=
    ⟨List.nodup_singleton _, List.forall_mem_singleton.2 otherNoBraces⟩
  refine ⟨String.ofList (start ++ (placeholder name ++ finish)), fun same => ?_⟩
  have texts := congrArg (fun text => text.toList.length) same
  rw [substitute_cons, fill] at texts
  simp only [toList_substitute, replaceFrom_eq_fillFrom, String.toList_ofList,
    filled _ single List.mem_cons_self, filled _ named List.mem_cons_self] at texts
  rw [List.append_assoc] at stands
  exact absurd texts (length_fillFrom_lt otherSingle stands).ne

/-- No value takes part in the placeholder of a later variable. -/
def AreApart (values : List (String × String)) : Prop :=
  values.Pairwise fun earlier later => IsApart earlier.2.toList (placeholder later.1)

instance (values : List (String × String)) : Decidable (AreApart values) :=
  inferInstanceAs (Decidable (values.Pairwise _))

/-- Replacing one variable after the other is a single pass over the template, whatever the template,
if no value takes part in the placeholder of a later variable; and so it does not matter in which
order the variables are replaced, if this holds of both orders, as it does not matter to the single
pass. For two variables no less will do. -/
theorem substitute_eq_fill (values : List (String × String)) (named : AreNamed values) :
    (AreApart values → ∀ template, substitute template values = fill template values) ∧
    (∀ reordered, values.Perm reordered →
      (∀ template, fill template reordered = fill template values) ∧
      (AreApart values → AreApart reordered →
        ∀ template, substitute template reordered = substitute template values)) ∧
    ∀ name value other text, values = [(name, value), (other, text)] →
      ((∀ template later, substitute template [(name, value), (other, later)] =
        fill template [(name, value), (other, later)]) ↔
      IsApart value.toList (placeholder other)) := by
  refine ⟨substitute_eq_of_apart named, ?reorder, ?two⟩
  case reorder =>
    intro reordered perm
    have renamed : AreNamed reordered := named.perm perm
    have sameFill (template : String) : fill template reordered = fill template values := by
      rw [fill, fill, fillFrom_perm named perm]
    refine ⟨sameFill, fun apart reorderedApart template => ?_⟩
    rw [substitute_eq_of_apart renamed reorderedApart, sameFill,
      substitute_eq_of_apart named apart]
  case two =>
    rintro name value other text rfl
    have namedAlike (later : String) : AreNamed [(name, value), (other, later)] :=
      ⟨named.distinct, by simpa using named.noBraces⟩
    constructor
    · intro same
      by_contra meets
      obtain ⟨template, differs⟩ := exists_substitute_ne_fill (namedAlike "") meets
      exact differs (same template "")
    · intro apart template later
      have apartAlike : AreApart [(name, value), (other, later)] := by simpa [AreApart] using apart
      exact substitute_eq_of_apart (namedAlike later) apartAlike template

/-- The files of a runner are filled in, whichever of its two ids is replaced first. -/
theorem substitute_eq_fill_sledge :
    AreNamed [("prefab", "sledge"), ("body", "left runner")] ∧
      AreApart [("prefab", "sledge"), ("body", "left runner")] ∧
      AreApart [("body", "left runner"), ("prefab", "sledge")] ∧
      ∀ template, substitute template [("prefab", "sledge"), ("body", "left runner")] =
          fill template [("prefab", "sledge"), ("body", "left runner")] ∧
        substitute template [("body", "left runner"), ("prefab", "sledge")] =
          substitute template [("prefab", "sledge"), ("body", "left runner")] := by
  have named : AreNamed [("prefab", "sledge"), ("body", "left runner")] := by decide
  have apart : AreApart [("prefab", "sledge"), ("body", "left runner")] := by decide +kernel
  have reorderedApart : AreApart [("body", "left runner"), ("prefab", "sledge")] := by decide +kernel
  have perm := List.Perm.swap ("body", "left runner") ("prefab", "sledge") []
  exact ⟨named, apart, reorderedApart, fun template =>
    ⟨(substitute_eq_fill _ named).1 apart template,
      ((substitute_eq_fill _ named).2.1 _ perm).2 apart reorderedApart template⟩⟩

/-- An id of a prefab that looks like the placeholder of the body is replaced in its turn, unless the
body comes first. -/
theorem substitute_ne_fill_lid :
    AreNamed [("prefab", "#\x7bbody\x7d"), ("body", "lid")] ∧
      substitute "#\x7bprefab\x7d.#\x7bbody\x7d" [("prefab", "#\x7bbody\x7d"), ("body", "lid")] =
        "lid.lid" ∧
      fill "#\x7bprefab\x7d.#\x7bbody\x7d" [("prefab", "#\x7bbody\x7d"), ("body", "lid")] =
        "#\x7bbody\x7d.lid" ∧
      substitute "#\x7bprefab\x7d.#\x7bbody\x7d" [("body", "lid"), ("prefab", "#\x7bbody\x7d")] =
        "#\x7bbody\x7d.lid" := by
  decide +kernel

end PhysicsPrefab.Template
