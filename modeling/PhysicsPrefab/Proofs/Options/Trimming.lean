import Mathlib.Data.List.Induction
import PhysicsPrefab.Options.Grammar

/-!
# Trimming

A name is its trimmed form with separators at its end (`exists_padding`), and separators at the end
of a name do not change its trimmed form (`trim_padded`). So two names that differ only in the
separators at their end are trimmed to the same, those that consist of separators included
(`trim_eq_of_padded`).
-/

namespace PhysicsPrefab.Options

variable {name : List Char}

/-- A name with separators added at its end. -/
def padded (name : String) (padding : Nat) : String :=
  name ++ String.ofList (List.replicate padding '_')

/-- The characters of a name with separators added at its end. -/
theorem toList_padded (name : String) (padding : Nat) :
    (padded name padding).toList = name.toList ++ List.replicate padding '_' := by
  rw [padded, String.toList_append, String.toList_ofList]

/-- A name that does not end with a separator is trimmed already. -/
theorem trimCharacters_of_ends (ends : name.getLast? ≠ some '_') : trimCharacters name = name := by
  have kept : name.reverse.dropWhile isSeparator = name.reverse := by
    cases reversed : name.reverse with
    | nil => rfl
    | cons last rest =>
      have isLast : name.getLast? = some last := by
        rw [← List.head?_reverse, reversed]
        rfl
      refine List.dropWhile_cons_of_neg fun separates => ends ?_
      rw [isLast, of_decide_eq_true separates]
  rw [trimCharacters, kept, List.reverse_reverse]
  split
  · rename_i empty
    rw [List.isEmpty_iff.1 empty]
    rfl
  · rfl

/-- A further separator at the end of a name is trimmed. -/
theorem trimCharacters_append_separator (proper : name ≠ []) :
    trimCharacters (name ++ ['_']) = trimCharacters name := by
  have dropped : (name ++ ['_']).reverse.dropWhile isSeparator =
      name.reverse.dropWhile isSeparator := by
    rw [List.reverse_append]
    rfl
  have first : (name ++ ['_']).take 1 = name.take 1 :=
    List.take_append_of_le_length (List.length_pos_iff.2 proper)
  rw [trimCharacters, trimCharacters, dropped, first]

/-- Further separators at the end of a name are trimmed. -/
theorem trimCharacters_append_padding (proper : name ≠ []) (padding : Nat) :
    trimCharacters (name ++ List.replicate padding '_') = trimCharacters name := by
  induction padding with
  | zero => rw [List.replicate_zero, List.append_nil]
  | succ padding ih =>
    rw [List.replicate_succ', ← List.append_assoc,
      trimCharacters_append_separator (List.append_ne_nil_of_left_ne_nil proper _), ih]

/-- A name of separators is trimmed to one of them. -/
theorem trimCharacters_replicate (padding : Nat) :
    trimCharacters (List.replicate (padding + 1) '_') = ['_'] :=
  trimCharacters_append_padding (List.cons_ne_nil '_' []) padding

/-- A name is its trimmed form with separators at its end. -/
theorem exists_padding (name : List Char) :
    ∃ padding, name = trimCharacters name ++ List.replicate padding '_' := by
  induction name using List.reverseRecOn with
  | nil => exact ⟨0, rfl⟩
  | append_singleton front last ih =>
    by_cases separates : last = '_'
    · subst separates
      by_cases empty : front = []
      · subst empty
        exact ⟨0, rfl⟩
      · obtain ⟨padding, same⟩ := ih
        refine ⟨padding + 1, ?_⟩
        rw [trimCharacters_append_separator empty, List.replicate_succ', ← List.append_assoc,
          ← same]
    · refine ⟨0, ?_⟩
      rw [trimCharacters_of_ends (by simpa using separates), List.replicate_zero, List.append_nil]

/-- A name is trimmed already unless it ends with a separator; one separator alone is kept. -/
theorem trimCharacters_eq_self_iff :
    trimCharacters name = name ↔ name = ['_'] ∨ name.getLast? ≠ some '_' := by
  constructor
  · intro same
    by_contra neither
    obtain ⟨notOne, ends⟩ := not_or.1 neither
    obtain ⟨front, rfl⟩ := List.getLast?_eq_some_iff.1 (not_not.1 ends)
    have proper : front ≠ [] := by
      rintro rfl
      exact notOne rfl
    obtain ⟨padding, whole⟩ := exists_padding front
    rw [trimCharacters_append_separator proper] at same
    have shorter := congrArg List.length whole
    have longer := congrArg List.length same
    rw [List.length_append] at shorter longer
    rw [List.length_singleton] at longer
    omega
  · rintro (rfl | ends)
    · rfl
    · exact trimCharacters_of_ends ends

variable {text : String}

/-- Separators at the end of a text are trimmed. -/
theorem trim_padded (proper : text ≠ "") (padding : Nat) :
    trim (padded text padding) = trim text := by
  rw [trim, trim, toList_padded, trimCharacters_append_padding]
  simpa using proper

/-- Separators alone are trimmed to one of them. -/
theorem trim_padded_empty (padding : Nat) : trim (padded "" (padding + 1)) = "_" := by
  rw [trim, toList_padded]
  exact congrArg String.ofList (trimCharacters_replicate padding)

/-- Texts that differ only in the separators at their end are trimmed to the same, if none of them
is empty. -/
theorem trim_eq_of_padded {stem : String} {first second : Nat}
    (firstProper : padded stem first ≠ "") (secondProper : padded stem second ≠ "") :
    trim (padded stem first) = trim (padded stem second) := by
  by_cases empty : stem = ""
  · subst empty
    cases first with
    | zero => exact absurd rfl firstProper
    | succ first =>
      cases second with
      | zero => exact absurd rfl secondProper
      | succ second => rw [trim_padded_empty, trim_padded_empty]
  · rw [trim_padded empty, trim_padded empty]

/-- Something is left of a text when it is trimmed. -/
theorem trim_ne_empty (proper : text ≠ "") : trim text ≠ "" := by
  obtain ⟨padding, whole⟩ := exists_padding text.toList
  intro empty
  have nothing : trimCharacters text.toList = [] := by
    rwa [trim, ← String.toList_inj, String.toList_ofList] at empty
  rw [nothing, List.nil_append] at whole
  cases padding with
  | zero => exact proper (String.toList_inj.1 whole)
  | succ padding =>
    rw [whole, trimCharacters_replicate] at nothing
    cases nothing

/-- A text is trimmed already unless it ends with a separator; one separator alone is kept. -/
theorem trim_eq_self_iff : trim text = text ↔ text = "_" ∨ text.toList.getLast? ≠ some '_' := by
  rw [trim, ← String.toList_inj, String.toList_ofList, trimCharacters_eq_self_iff,
    ← String.toList_inj]
  rfl

end PhysicsPrefab.Options
