import Mathlib.Algebra.Order.Ring.Nat
import Mathlib.Data.Finset.Card
import Mathlib.Order.Bounds.Defs
import PhysicsPrefab.Proofs.Script.Freshness

/-!
# Trying names

The search for a variable as a loop: a name is put into the set of taken names, and if it was there
before, the base with the next number is tried. The numbers have 32 bits, and after the greatest one
a program is stopped or goes on with the least one. Up to then the loop stops after at most one try
more than there are taken names, with the first free name, which is the fresh name; and calls one
after the other on one set give different names, those of one pass over their bases (`tries_stop`).
-/

namespace PhysicsPrefab.Identifier

/-- How a program counts on after the greatest number. -/
inductive Counting where
  /-- The program is stopped. -/
  | checked
  /-- It goes on with the least number. -/
  | wrapping

namespace Counting

/-- The number after one, unless the program is stopped there. -/
def next? : Counting → Int32 → Option Int32
  | checked, number => if number = Int32.maxValue then none else some (number + 1)
  | wrapping, number => some (number + 1)

/-- How many candidates are tried before there is no number for one more. Where the numbers are
checked the greatest one is never tried, as the one after it is counted first. -/
def limit : Counting → Nat
  | checked => 2 ^ 31 - 2
  | wrapping => 2 ^ 31 - 1

/-- The candidates that are tried before there is no number for one more. -/
def supply (counting : Counting) (base : String) : Finset String :=
  (Finset.range counting.limit).image (candidate base)

/-- All candidates of a supply are different. -/
theorem card_supply (counting : Counting) (base : String) :
    (counting.supply base).card = counting.limit := by
  rw [supply, Finset.card_image_of_injective _ (candidate_injective base), Finset.card_range]

/-- A supply is used up exactly if all of its candidates are taken. -/
theorem supply_subset_iff {counting : Counting} {base : String} {taken : Finset String} :
    counting.supply base ⊆ taken ↔ ∀ number < counting.limit, candidate base number ∈ taken := by
  simp [supply, Finset.subset_iff]

/-- No supply is used up by fewer names than it has. -/
theorem not_supply_subset {counting : Counting} {base : String} {taken : Finset String}
    (few : taken.card < counting.limit) : ¬ counting.supply base ⊆ taken := by
  intro used
  have card := Finset.card_le_card used
  rw [card_supply] at card
  omega

/-- Before the last candidate of a supply there is a next number. -/
theorem next?_ofNat (counting : Counting) {number : Nat} (below : number + 1 < counting.limit) :
    counting.next? (Int32.ofNat (number + 2)) = some (Int32.ofNat (number + 3)) := by
  have following : Int32.ofNat (number + 2) + 1 = Int32.ofNat (number + 3) :=
    (Int32.ofNat_add (number + 2) 1).symm
  cases counting with
  | checked =>
    have inRange : number + 2 < 2 ^ 31 - 1 := by
      have bound : number + 1 < 2 ^ 31 - 2 := below
      omega
    have different : Int32.ofNat (number + 2) ≠ Int32.maxValue := by
      intro same
      have values := congrArg Int32.toInt same
      have greatest : Int32.maxValue.toInt = 2 ^ 31 - 1 := by decide
      rw [Int32.toInt_ofNat_of_lt (by omega), greatest] at values
      omega
    rw [next?, if_neg different, following]
  | wrapping => rw [next?, following]

end Counting

/-- A base with a number behind it. -/
def numbered (base : String) (number : Int32) : String := s!"{base}_{number}"

/-- A base with a number from two to the greatest one is a candidate. -/
theorem numbered_ofNat (base : String) {number : Nat} (inRange : number + 2 < 2 ^ 31) :
    numbered base (Int32.ofNat (number + 2)) = candidate base (number + 1) := by
  have digits : toString (Int32.ofNat (number + 2)) = toString (number + 2) := by
    change toString (Int32.ofNat (number + 2)).toInt = _
    rw [Int32.toInt_ofNat_of_lt inRange]
    rfl
  rw [numbered, candidate, digits]

/-- A base with the least number is no candidate, as it has a sign. -/
theorem numbered_minValue_ne (base : String) (number : Nat) :
    numbered base Int32.minValue ≠ candidate base number := by
  have least : (numbered base Int32.minValue).toList =
      base.toList ++ '_' :: '-' :: "2147483648".toList := by
    have digits : toString Int32.minValue = "-2147483648" := by decide +kernel
    change (base ++ "_" ++ toString Int32.minValue).toList = _
    rw [digits]
    simp
  intro same
  have texts := congrArg String.toList same
  rw [least] at texts
  cases number with
  | zero => simp [candidate] at texts
  | succ number =>
    rw [toList_candidate_succ, List.append_cancel_left_eq, List.cons.injEq] at texts
    have member : '-' ∈ Nat.toDigits 10 (number + 2) := texts.2 ▸ List.mem_cons_self
    have isDigit := Nat.isDigit_of_mem_toDigits (by decide) (by decide) member
    exact absurd isDigit (by decide)

/-- How a search for a name ends. -/
inductive Outcome where
  /-- It stops with a name, and with the names that are taken then. -/
  | found (name : String) (taken : Finset String)
  /-- The program is stopped, because there is no next number. -/
  | overflow

/-- The loop from the name that is tried next and the number that comes after it, with the tries
that it takes and how it ends. -/
inductive Tries (counting : Counting) (base : String) (taken : Finset String) :
    String → Int32 → Nat → Outcome → Prop where
  /-- A free name is taken, and the loop stops. -/
  | stop {name : String} {number : Int32} (free : name ∉ taken) :
      Tries counting base taken name number 1 (.found name (insert name taken))
  /-- After a name that is taken the base with the number is tried. -/
  | next {name : String} {number following : Int32} {tries : Nat} {outcome : Outcome}
      (isTaken : name ∈ taken) (counted : counting.next? number = some following)
      (later : Tries counting base taken (numbered base number) following tries outcome) :
      Tries counting base taken name number (tries + 1) outcome
  /-- After a name that is taken there is no number to go on with. -/
  | overflow {name : String} {number : Int32} (isTaken : name ∈ taken)
      (stopped : counting.next? number = none) :
      Tries counting base taken name number 1 .overflow

/-- A call of the loop: it starts with the base itself, and the first number is two. -/
abbrev Call (counting : Counting) (base : String) (taken : Finset String) :
    Nat → Outcome → Prop :=
  Tries counting base taken base 2

/-- Calls one after the other on one set, with the names that they give and the names that are taken
at the end. -/
inductive Calls (counting : Counting) :
    Finset String → List String → List String → Finset String → Prop where
  /-- Without a call nothing happens. -/
  | nil (taken : Finset String) : Calls counting taken [] [] taken
  /-- A call takes its name before the next one. -/
  | cons {taken middle after : Finset String} {base name : String} {bases names : List String}
      {tries : Nat} (call : Call counting base taken tries (.found name middle))
      (rest : Calls counting middle bases names after) :
      Calls counting taken (base :: bases) (name :: names) after

section

variable {counting : Counting} {base name : String} {taken : Finset String}
  {number following : Int32} {tries : Nat} {outcome : Outcome}

/-- At a free name the loop stops with it. -/
theorem tries_of_free (free : name ∉ taken) :
    Tries counting base taken name number tries outcome ↔
      tries = 1 ∧ outcome = .found name (insert name taken) := by
  constructor
  · intro loop
    cases loop with
    | stop => exact ⟨rfl, rfl⟩
    | next isTaken => exact absurd isTaken free
    | overflow isTaken => exact absurd isTaken free
  · rintro ⟨rfl, rfl⟩
    exact .stop free

/-- At a name that is taken the loop goes on if there is a next number. -/
theorem tries_of_counted (isTaken : name ∈ taken)
    (counted : counting.next? number = some following) :
    Tries counting base taken name number tries outcome ↔ ∃ later, tries = later + 1 ∧
      Tries counting base taken (numbered base number) following later outcome := by
  constructor
  · intro loop
    cases loop with
    | stop free => exact absurd isTaken free
    | next _ alsoCounted later =>
      rw [counted] at alsoCounted
      obtain rfl := Option.some.inj alsoCounted
      exact ⟨_, rfl, later⟩
    | overflow _ stopped => exact nomatch stopped.symm.trans counted
  · rintro ⟨later, rfl, loop⟩
    exact .next isTaken counted loop

/-- At a name that is taken the program is stopped if there is no next number. -/
theorem tries_of_stopped (isTaken : name ∈ taken) (stopped : counting.next? number = none) :
    Tries counting base taken name number tries outcome ↔ tries = 1 ∧ outcome = .overflow := by
  constructor
  · intro loop
    cases loop with
    | stop free => exact absurd isTaken free
    | next _ counted => exact nomatch stopped.symm.trans counted
    | overflow => exact ⟨rfl, rfl⟩
  · rintro ⟨rfl, rfl⟩
    exact .overflow isTaken stopped

/-- A call gets past the candidates that are taken, as long as there are numbers. -/
theorem call_iff_later {gap : Nat} (below : gap < counting.limit)
    (earlier : ∀ before < gap, candidate base before ∈ taken) :
    Call counting base taken tries outcome ↔ ∃ later, tries = later + gap ∧
      Tries counting base taken (candidate base gap) (Int32.ofNat (gap + 2)) later outcome := by
  induction gap generalizing tries with
  | zero => simp [candidate, Int32.reduceOfNat]
  | succ gap ih =>
    have isTaken : candidate base gap ∈ taken := earlier gap (Nat.lt_succ_self gap)
    have inRange : gap + 2 < 2 ^ 31 := by
      have bound : counting.limit ≤ 2 ^ 31 - 1 := by cases counting <;> decide
      omega
    have counted := counting.next?_ofNat below
    rw [ih (by omega) fun before smaller => earlier before (by omega)]
    simp only [tries_of_counted isTaken counted, numbered_ofNat base inRange]
    constructor
    · rintro ⟨_, rfl, later, rfl, loop⟩
      exact ⟨later, by omega, loop⟩
    · rintro ⟨later, rfl, loop⟩
      exact ⟨later + 1, by omega, later, rfl, loop⟩

/-- A call stops with the first candidate that is free, if it comes to it. -/
theorem call_iff_found {gap : Nat} (below : gap < counting.limit)
    (free : candidate base gap ∉ taken)
    (earlier : ∀ before < gap, candidate base before ∈ taken) :
    Call counting base taken tries outcome ↔ tries = gap + 1 ∧
      outcome = .found (candidate base gap) (insert (candidate base gap) taken) := by
  rw [call_iff_later below earlier]
  simp only [tries_of_free free]
  constructor
  · rintro ⟨_, rfl, rfl, rfl⟩
    exact ⟨by omega, rfl⟩
  · rintro ⟨rfl, rfl⟩
    exact ⟨1, by omega, rfl, rfl⟩

/-- What a call gives if its supply is used up: where numbers are checked the program is stopped
after the last candidate, and else the base with the least number comes after it. -/
def Counting.exhausted (base : String) (taken : Finset String) : Counting → Nat × Outcome
  | checked => (limit checked, .overflow)
  | wrapping => (limit wrapping + 1,
      .found (numbered base Int32.minValue) (insert (numbered base Int32.minValue) taken))

/-- Where numbers wrap, a supply that is used up leaves no room for the base with the least number
among fewer than `2 ^ 31` names. -/
theorem numbered_minValue_not_mem (few : taken.card < 2 ^ 31)
    (used : Counting.wrapping.supply base ⊆ taken) : numbered base Int32.minValue ∉ taken := by
  intro isTaken
  have fresh : numbered base Int32.minValue ∉ Counting.wrapping.supply base := by
    intro member
    obtain ⟨number, -, same⟩ := Finset.mem_image.1 member
    exact numbered_minValue_ne base number same.symm
  have card := Finset.card_le_card (Finset.insert_subset isTaken used)
  rw [Finset.card_insert_of_notMem fresh, Counting.card_supply, Counting.limit] at card
  omega

/-- What a call gives if its supply is used up by fewer than `2 ^ 31` names. -/
theorem call_iff_exhausted (few : taken.card < 2 ^ 31) (used : counting.supply base ⊆ taken) :
    Call counting base taken tries outcome ↔
      (tries, outcome) = counting.exhausted base taken := by
  have earlier := Counting.supply_subset_iff.1 used
  have positive : 0 < counting.limit := by cases counting <;> decide
  have last : candidate base (counting.limit - 1) ∈ taken := earlier _ (by omega)
  have later := @call_iff_later counting base taken tries outcome (counting.limit - 1) (by omega)
    fun before smaller => earlier before (by omega)
  cases counting with
  | checked =>
    have greatest : Int32.ofNat (Counting.checked.limit - 1 + 2) = Int32.maxValue := by decide
    have stopped : Counting.checked.next? Int32.maxValue = none := rfl
    rw [greatest] at later
    simp only [later, tries_of_stopped last stopped, Counting.exhausted, Prod.mk.injEq]
    constructor
    · rintro ⟨_, rfl, rfl, rfl⟩
      exact ⟨rfl, rfl⟩
    · rintro ⟨rfl, rfl⟩
      exact ⟨1, rfl, rfl, rfl⟩
  | wrapping =>
    have least : Int32.ofNat (Counting.wrapping.limit - 1 + 2) = Int32.minValue := by decide
    rw [least] at later
    have counted : Counting.wrapping.next? Int32.minValue = some (Int32.minValue + 1) := rfl
    have free := numbered_minValue_not_mem few used
    simp only [later, tries_of_counted last counted, tries_of_free free, Counting.exhausted,
      Prod.mk.injEq]
    constructor
    · rintro ⟨_, rfl, _, rfl, rfl, rfl⟩
      exact ⟨rfl, rfl⟩
    · rintro ⟨rfl, rfl⟩
      exact ⟨2, rfl, 1, rfl, rfl, rfl⟩

/-- A name that the loop stops with was free, and it is the one that is taken as well. -/
theorem Tries.free {found : String} {after : Finset String}
    (loop : Tries counting base taken name number tries (.found found after)) :
    found ∉ taken ∧ after = insert found taken := by
  generalize ending : Outcome.found found after = outcome at loop
  induction loop with
  | stop free =>
    cases ending
    exact ⟨free, rfl⟩
  | next _ _ _ ih => exact ih ending
  | overflow => nomatch ending

end

/-- A free name for a base: the base itself if it is free, and else the base with the least number
from two on with which it is. -/
def IsFirstFree (taken : Finset String) (base name : String) : Prop :=
  (base ∉ taken → name = base) ∧
    (base ∈ taken →
      ∃ number : Nat, IsLeast {number | 2 ≤ number ∧ s!"{base}_{number}" ∉ taken} number ∧
        name = s!"{base}_{number}")

/-- The first candidate that is free is the first free name. -/
theorem isFirstFree_candidate {base : String} {taken : Finset String} {number : Nat}
    (free : candidate base number ∉ taken)
    (earlier : ∀ before < number, candidate base before ∈ taken) :
    IsFirstFree taken base (candidate base number) := by
  cases number with
  | zero => exact ⟨fun _ => rfl, fun isTaken => absurd isTaken free⟩
  | succ number =>
    have isTaken : base ∈ taken := earlier 0 (Nat.succ_pos number)
    refine ⟨fun baseFree => absurd isTaken baseFree, fun _ => ⟨number + 2, ⟨⟨by omega, free⟩, ?_⟩,
      rfl⟩⟩
    rintro other ⟨fromTwo, otherFree⟩
    obtain ⟨index, rfl⟩ := Nat.exists_eq_add_of_le' fromTwo
    by_contra smaller
    exact otherFree (earlier (index + 1) (by omega))

/-- If all candidates before a number are taken, there are as many taken names. -/
theorem le_card_of_taken {base : String} {taken : Finset String} {number : Nat}
    (earlier : ∀ before < number, candidate base before ∈ taken) : number ≤ taken.card := by
  have inside : (Finset.range number).image (candidate base) ⊆ taken := by
    intro name member
    obtain ⟨before, smaller, rfl⟩ := Finset.mem_image.1 member
    exact earlier before (Finset.mem_range.1 smaller)
  calc number
      = ((Finset.range number).image (candidate base)).card := by
        rw [Finset.card_image_of_injective _ (candidate_injective base), Finset.card_range]
    _ ≤ taken.card := Finset.card_le_card inside

section

variable {counting : Counting}

/-- Unless its supply is used up, a call stops with the fresh name. -/
theorem exists_call {taken : List String} {base : String}
    (unused : ¬ counting.supply base ⊆ taken.toFinset) :
    ∃ number ≤ taken.toFinset.card,
      (∀ tries outcome, Call counting base taken.toFinset tries outcome ↔ tries = number + 1 ∧
        outcome = .found (fresh taken base) (insert (fresh taken base) taken.toFinset)) ∧
      IsFirstFree taken.toFinset base (fresh taken base) := by
  obtain ⟨number, -, same, notTaken, before⟩ := fresh_spec taken base
  have free : candidate base number ∉ taken.toFinset := by rwa [List.mem_toFinset]
  have earlier : ∀ other < number, candidate base other ∈ taken.toFinset := fun other smaller =>
    List.mem_toFinset.2 (before other smaller)
  have below : number < counting.limit := by
    by_contra beyond
    exact unused (Counting.supply_subset_iff.2 fun other smaller => earlier other (by omega))
  rw [same]
  exact ⟨number, le_card_of_taken earlier, fun tries outcome => call_iff_found below free earlier,
    isFirstFree_candidate free earlier⟩

/-- Calls one after the other give different names, and none that was taken. -/
theorem Calls.distinct {taken after : Finset String} {bases names : List String}
    (calls : Calls counting taken bases names after) :
    names.length = bases.length ∧ names.Nodup ∧ (∀ name ∈ names, name ∉ taken) ∧
      after = taken ∪ names.toFinset := by
  induction calls with
  | nil taken => simp
  | @cons taken middle after base name bases names tries call _ ih =>
    obtain ⟨free, rfl⟩ := call.free
    obtain ⟨length, distinct, apart, rfl⟩ := ih
    have fresh : name ∉ names := fun member => apart name member (Finset.mem_insert_self _ _)
    refine ⟨congrArg Nat.succ length, List.nodup_cons.2 ⟨fresh, distinct⟩, ?_, ?_⟩
    · intro other member
      rcases List.mem_cons.1 member with rfl | isLater
      · exact free
      · exact fun isTaken => apart other isLater (Finset.mem_insert_of_mem isTaken)
    · rw [List.toFinset_cons, Finset.insert_union, Finset.union_insert]

/-- As long as there are numbers, calls one after the other give what a pass over their bases
gives. -/
theorem calls_iff {taken bases : List String}
    (enough : taken.toFinset.card + bases.length ≤ counting.limit) {names : List String}
    {after : Finset String} :
    Calls counting taken.toFinset bases names after ↔
      names = (freshAll taken bases).1 ∧ after = (freshAll taken bases).2.toFinset := by
  induction bases generalizing taken names with
  | nil =>
    constructor
    · intro calls
      cases calls
      exact ⟨rfl, rfl⟩
    · rintro ⟨rfl, rfl⟩
      exact .nil _
  | cons base rest ih =>
    rw [List.length_cons] at enough
    have few : taken.toFinset.card < counting.limit := by omega
    have unused : ¬ counting.supply base ⊆ taken.toFinset := Counting.not_supply_subset few
    obtain ⟨number, -, call, -⟩ := exists_call unused
    have card := Finset.card_insert_le (fresh taken base) taken.toFinset
    have later := fun names => @ih (fresh taken base :: taken) (by
      rw [List.toFinset_cons]
      omega) names
    rw [List.toFinset_cons] at later
    constructor
    · intro calls
      cases calls with
      | cons first others =>
        obtain ⟨-, ending⟩ := (call _ _).1 first
        cases ending
        obtain ⟨rfl, rfl⟩ := (later _).1 others
        exact ⟨rfl, rfl⟩
    · rintro ⟨rfl, rfl⟩
      exact .cons ((call _ _).2 ⟨rfl, rfl⟩) ((later _).2 ⟨rfl, rfl⟩)

end

/-- Among fewer than `2 ^ 31` taken names a call for any id stops after at most one try more than
there are taken names, and in one way only: with the first free name, which is the fresh name and the
one that is taken then as well. It does so unless all names are taken that it can try before its
numbers come to their end, which needs as many taken names; and then either the program is stopped
or a negative number is tried. Calls one after the other give different names, none of them taken
before, however often an id comes up, and while there are numbers these are the names of one pass. -/
theorem tries_stop (counting : Counting) (taken : List String)
    (few : taken.toFinset.card < 2 ^ 31) :
    (∀ first id, let base := first ++ sanitize id
      (taken.toFinset.card < counting.limit → ¬ counting.supply base ⊆ taken.toFinset) ∧
      (¬ counting.supply base ⊆ taken.toFinset → ∃ number ≤ taken.toFinset.card,
        (∀ tries outcome, Call counting base taken.toFinset tries outcome ↔ tries = number + 1 ∧
          outcome = .found (fresh taken base) (insert (fresh taken base) taken.toFinset)) ∧
        IsFirstFree taken.toFinset base (fresh taken base)) ∧
      (counting.supply base ⊆ taken.toFinset → ∀ tries outcome,
        Call counting base taken.toFinset tries outcome ↔
          (tries, outcome) = counting.exhausted base taken.toFinset)) ∧
    ∀ ids : List (String × String), let bases := ids.map fun entry => entry.1 ++ sanitize entry.2
      (∀ names after, Calls counting taken.toFinset bases names after →
        names.length = ids.length ∧ names.Nodup ∧ (∀ name ∈ names, name ∉ taken) ∧
          after = taken.toFinset ∪ names.toFinset) ∧
      (taken.toFinset.card + ids.length ≤ counting.limit → ∀ names after,
        Calls counting taken.toFinset bases names after ↔
          names = (freshAll taken bases).1 ∧ after = (freshAll taken bases).2.toFinset) := by
  constructor
  · intro first id base
    exact ⟨Counting.not_supply_subset, exists_call, fun used _ _ => call_iff_exhausted few used⟩
  · intro ids bases
    have length : bases.length = ids.length := List.length_map _
    constructor
    · intro names after calls
      have distinct := calls.distinct
      simpa only [length, List.mem_toFinset] using distinct
    · intro enough names after
      exact calls_iff (length ▸ enough)

/-- An id whose first two names are taken gets the third one, and when it comes up again the fourth
one. -/
theorem tries_stop_arm :
    let taken := ["bodyarm_l", "bodyarm_l_2"]
    taken.toFinset.card < 2 ^ 31 ∧
      ¬ Counting.checked.supply ("body" ++ sanitize "arm-l") ⊆ taken.toFinset ∧
      (∃ tries ≤ 3, Call .checked ("body" ++ sanitize "arm-l") taken.toFinset tries
        (.found "bodyarm_l_3" (insert "bodyarm_l_3" taken.toFinset))) ∧
      IsFirstFree taken.toFinset ("body" ++ sanitize "arm-l") "bodyarm_l_3" ∧
      ∃ after, Calls .checked taken.toFinset ["bodyarm_l", "bodyarm_l"]
        ["bodyarm_l_3", "bodyarm_l_4"] after := by
  intro taken
  have card : taken.toFinset.card = 2 := by decide
  have few : taken.toFinset.card < 2 ^ 31 := by omega
  obtain ⟨single, several⟩ := tries_stop .checked taken few
  obtain ⟨unused, stops, -⟩ := single "body" "arm-l"
  have free := unused (by rw [card]; decide)
  have third : fresh taken ("body" ++ sanitize "arm-l") = "bodyarm_l_3" := by decide +kernel
  obtain ⟨number, bound, call, first⟩ := stops free
  rw [third] at call first
  have pass := (several [("body", "arm-l"), ("body", "arm_l")]).2 (by rw [card]; decide)
  exact ⟨few, free, ⟨number + 1, by omega, (call _ _).2 ⟨rfl, rfl⟩⟩, first, _,
    (pass _ _).2 ⟨by decide +kernel, rfl⟩⟩

/-- After all names of a supply a checked program is stopped, though fewer than `2 ^ 31` names are
taken, and a wrapping one gives a name with a negative number, which is not the first free name. -/
theorem supply_exhausted :
    let base := "body" ++ sanitize "arm-l"
    let taken := Counting.wrapping.supply base
    taken.card < 2 ^ 31 ∧
      (∀ tries found after, ¬ Call .checked base taken tries (.found found after)) ∧
      ∃ tries name after, Call .wrapping base taken tries (.found name after) ∧
        ¬ IsFirstFree taken base name := by
  intro base taken
  have few : taken.card < 2 ^ 31 := by
    rw [Counting.card_supply]
    decide
  have checkedUsed : Counting.checked.supply base ⊆ taken :=
    Finset.image_subset_image (Finset.range_mono (by decide))
  refine ⟨few, fun tries found after call => ?_, _, _, _,
    (call_iff_exhausted few (Finset.Subset.refl taken)).2 rfl, fun first => ?_⟩
  · exact nomatch (call_iff_exhausted few checkedUsed).1 call
  · have isTaken : base ∈ taken :=
      Counting.supply_subset_iff.1 (Finset.Subset.refl taken) 0 (by decide)
    obtain ⟨number, ⟨⟨fromTwo, -⟩, -⟩, same⟩ := first.2 isTaken
    obtain ⟨index, rfl⟩ := Nat.exists_eq_add_of_le' fromTwo
    exact numbered_minValue_ne base (index + 1) same

/-- A number that another id has brought along is passed over. -/
example : (freshAll [] ["bodyarm_l", "bodyarm_l_2", "bodyarm_l"]).1 =
    ["bodyarm_l", "bodyarm_l_2", "bodyarm_l_3"] := by
  decide +kernel

end PhysicsPrefab.Identifier
