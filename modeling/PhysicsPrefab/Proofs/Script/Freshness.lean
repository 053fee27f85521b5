import Mathlib.Data.List.Nodup
import Mathlib.Data.List.Perm.Subperm
import PhysicsPrefab.Script.Identifier

/-!
# Freshness of variable names

The candidates for a name are pairwise different, because a number is read back from its digits.
One more candidate than there are taken names is therefore enough to find a free one
(`fresh_spec`), and a pass over many names never gives one twice (`freshAll_nodup`), whatever the
names and however often they repeat.
-/

namespace PhysicsPrefab.Identifier

/-- A numbered candidate is the base, an underscore and the digits of the number. -/
theorem toList_candidate_succ (base : String) (number : Nat) :
    (candidate base (number + 1)).toList =
      base.toList ++ '_' :: Nat.toDigits 10 (number + 2) := by
  change (base ++ "_" ++ toString (number + 2)).toList = _
  simp

/-- The first candidate is no numbered one. -/
theorem candidate_zero_ne_succ (base : String) (number : Nat) :
    candidate base 0 ≠ candidate base (number + 1) := by
  intro same
  have texts := congrArg String.toList same
  rw [toList_candidate_succ] at texts
  simp [candidate] at texts

/-- Every candidate starts with its base. -/
theorem prefix_candidate (base : String) (number : Nat) :
    base.toList <+: (candidate base number).toList := by
  cases number with
  | zero => exact List.prefix_rfl
  | succ number => exact ⟨_, (toList_candidate_succ base number).symm⟩

/-- Two candidates of one base are different. -/
theorem candidate_injective (base : String) : Function.Injective (candidate base) := by
  intro left right same
  cases left with
  | zero =>
    cases right with
    | zero => rfl
    | succ right => exact absurd same (candidate_zero_ne_succ base right)
  | succ left =>
    cases right with
    | zero => exact absurd same.symm (candidate_zero_ne_succ base left)
    | succ right =>
      have texts := congrArg String.toList same
      simp only [toList_candidate_succ, List.append_cancel_left_eq, List.cons.injEq,
        true_and] at texts
      have numbers := congrArg (fun digits => Nat.ofDigitChars 10 digits 0) texts
      simpa only [Nat.ofDigitChars_ten_toDigits, Nat.add_right_cancel_iff] using numbers

/-- Among one more candidate than there are taken names, one is free. -/
theorem exists_candidate_not_mem (taken : List String) (base : String) :
    ∃ number ≤ taken.length, candidate base number ∉ taken := by
  by_contra none
  push Not at none
  let tried := (List.range (taken.length + 1)).map (candidate base)
  have nodup : tried.Nodup := List.nodup_range.map (candidate_injective base)
  have inside : tried ⊆ taken := by
    intro name member
    obtain ⟨number, inRange, rfl⟩ := List.mem_map.1 member
    exact none number (Nat.le_of_lt_succ (List.mem_range.1 inRange))
  have short := (nodup.subperm inside).length_le
  simp only [tried, List.length_map, List.length_range] at short
  omega

/-- The fresh name is the first candidate that is free; it is found among as many tries as there
are taken names and one more. -/
theorem fresh_spec (taken : List String) (base : String) :
    ∃ number ≤ taken.length, fresh taken base = candidate base number ∧
      candidate base number ∉ taken ∧
      ∀ earlier < number, candidate base earlier ∈ taken := by
  obtain ⟨free, bound, notTaken⟩ := exists_candidate_not_mem taken base
  have inRange : free ∈ List.range (taken.length + 1) := List.mem_range.2 (by omega)
  cases found : (List.range (taken.length + 1)).find? fun number =>
      !taken.contains (candidate base number) with
  | none =>
    have absent := List.find?_eq_none.1 found free inRange
    simp [notTaken] at absent
  | some number =>
    obtain ⟨isFree, tried, earlier⟩ := List.find?_range_eq_some.1 found
    refine ⟨number, Nat.le_of_lt_succ (List.mem_range.1 tried), ?_, by simpa using isFree, ?_⟩
    · simp only [fresh, List.find?_map, Function.comp_def, found, Option.map_some,
        Option.getD_some]
    · intro before smaller
      simpa using earlier before smaller

/-- The fresh name is a candidate of its base. -/
theorem exists_fresh_eq_candidate (taken : List String) (base : String) :
    ∃ number, fresh taken base = candidate base number := by
  obtain ⟨number, _, same, _⟩ := fresh_spec taken base
  exact ⟨number, same⟩

/-- The fresh name is not taken. -/
theorem fresh_not_mem (taken : List String) (base : String) : fresh taken base ∉ taken := by
  obtain ⟨number, _, same, free, _⟩ := fresh_spec taken base
  exact same ▸ free

/-- A pass gives one name for each base. -/
@[simp] theorem length_freshAll (taken bases : List String) :
    (freshAll taken bases).1.length = bases.length := by
  induction bases generalizing taken with
  | nil => rfl
  | cons base rest ih => simp [freshAll, ih]

/-- What is taken after a pass is what was taken before and what the pass gave. -/
theorem mem_taken_freshAll {taken bases : List String} {name : String} :
    name ∈ (freshAll taken bases).2 ↔ name ∈ (freshAll taken bases).1 ∨ name ∈ taken := by
  induction bases generalizing taken with
  | nil => simp [freshAll]
  | cons base rest ih =>
    simp only [freshAll, ih, List.mem_cons]
    tauto

/-- A pass gives no name that was taken before. -/
theorem not_mem_taken_of_mem_freshAll {taken bases : List String} {name : String}
    (member : name ∈ (freshAll taken bases).1) : name ∉ taken := by
  induction bases generalizing taken with
  | nil => simp [freshAll] at member
  | cons base rest ih =>
    simp only [freshAll] at member
    rcases List.mem_cons.1 member with rfl | later
    · exact fresh_not_mem taken base
    · exact fun before => ih later (List.mem_cons_of_mem _ before)

/-- A pass gives no name twice. -/
theorem freshAll_nodup (taken bases : List String) : (freshAll taken bases).1.Nodup := by
  induction bases generalizing taken with
  | nil => simp [freshAll]
  | cons base rest ih =>
    simp only [freshAll, List.nodup_cons]
    refine ⟨fun member => ?_, ih _⟩
    exact not_mem_taken_of_mem_freshAll member List.mem_cons_self

/-- Every name of a pass is a candidate of one of the bases. -/
theorem exists_candidate_of_mem_freshAll {taken bases : List String} {name : String}
    (member : name ∈ (freshAll taken bases).1) :
    ∃ base ∈ bases, ∃ number, name = candidate base number := by
  induction bases generalizing taken with
  | nil => simp [freshAll] at member
  | cons base rest ih =>
    simp only [freshAll] at member
    rcases List.mem_cons.1 member with rfl | later
    · exact ⟨base, List.mem_cons_self, exists_fresh_eq_candidate taken base⟩
    · obtain ⟨other, inRest, isCandidate⟩ := ih later
      exact ⟨other, List.mem_cons_of_mem _ inRest, isCandidate⟩

/-- The characters of a variable: letters, digits, the underscore and the dollar sign. -/
def IsPlain (characters : List Char) : Prop := ∀ character ∈ characters, isAllowed character

instance (characters : List Char) : Decidable (IsPlain characters) :=
  List.decidableBAll _ characters

/-- A digit may stand in a variable. -/
theorem isAllowed_of_isDigit {character : Char} (digit : character.isDigit) :
    isAllowed character := by
  simp [isAllowed, Char.isAlphanum, digit]

/-- A sanitized name holds only characters that may stand in a variable. -/
theorem sanitize_isPlain (name : String) : IsPlain (sanitize name).toList := by
  have replaced : IsPlain (name.toList.map fun character =>
      if isAllowed character then character else '_') := by
    intro character member
    obtain ⟨original, -, rfl⟩ := List.mem_map.1 member
    split
    · assumption
    · decide
  intro character member
  simp only [sanitize, sanitizeCharacters, String.toList_ofList] at member
  split at member
  · split at member
    · rcases List.mem_cons.1 member with rfl | later
      · decide
      · exact replaced character later
    · exact replaced character member
  · simp at member

/-- A candidate holds only characters that may stand in a variable if its base does. -/
theorem candidate_isPlain {base : String} (plain : IsPlain base.toList) (number : Nat) :
    IsPlain (candidate base number).toList := by
  cases number with
  | zero => exact plain
  | succ number =>
    intro character member
    rw [toList_candidate_succ] at member
    rcases List.mem_append.1 member with inBase | inNumber
    · exact plain character inBase
    · rcases List.mem_cons.1 inNumber with rfl | inDigits
      · decide
      · exact isAllowed_of_isDigit
          (Nat.isDigit_of_mem_toDigits (by decide) (by decide) inDigits)

end PhysicsPrefab.Identifier
