import Mathlib.Data.List.Basic
import PhysicsPrefab.Options.Lookup
import PhysicsPrefab.Proofs.Options.Separators
import PhysicsPrefab.Proofs.Options.Trimming

/-!
# Declared options

The value of an option is what follows its key in the least of the names that declare it, trimmed
(`IsFirst.value_lookup`).
-/

namespace PhysicsPrefab.Options

variable {β : Type} {locators : NameMap β} {key written : String}

/-- The name by which an option is set to a value. -/
def declaring (key value : String) : String := key ++ "_" ++ value

/-- The characters of such a name. -/
theorem toList_declaring (key value : String) :
    (declaring key value).toList = key.toList ++ '_' :: value.toList := by
  simp [declaring]

/-- The least name that declares an option sets it to a value. -/
structure IsFirst (locators : NameMap β) (key written : String) : Prop where
  /-- There is such a name. -/
  listed : declaring key written ∈ locators.names
  /-- No other name that declares the option is before it. -/
  least : ∀ other, declaring key other ∈ locators.names →
    declaring key written ≤ declaring key other

/-- A name declares an option exactly if it is made of the key and a value. -/
theorem valueAfter?_eq_some {name value : String} :
    valueAfter? key name = some value ↔ name = declaring key value := by
  rw [valueAfter?, Option.map_eq_some_iff]
  simp only [List.isPrefixOf?_eq_some_iff_append_eq]
  constructor
  · rintro ⟨characters, split, rfl⟩
    rw [← String.toList_inj, toList_declaring, ← split, String.toList_ofList]
    simp
  · rintro rfl
    exact ⟨value.toList, by simp [toList_declaring], String.ofList_toList⟩

/-- The least name that declares an option is the first one. -/
theorem IsFirst.given_eq (first : IsFirst locators key written) :
    ∃ others, given locators.names key = written :: others := by
  have own : valueAfter? key (declaring key written) = some written := valueAfter?_eq_some.2 rfl
  cases values : given locators.names key with
  | nil =>
    have absent := List.filterMap_eq_nil_iff.1 values _ first.listed
    rw [own] at absent
    cases absent
  | cons value others =>
    obtain ⟨before, name, after, names, none, declares, -⟩ := List.filterMap_eq_cons_iff.1 values
    have ordered : locators.names.Pairwise (· < ·) := List.pairwise_map.2 locators.sorted
    have listed := first.listed
    rw [names] at ordered listed
    obtain rfl := valueAfter?_eq_some.1 declares
    have notLess := first.least value (names ▸ by simp)
    refine ⟨others, ?_⟩
    rcases List.mem_append.1 listed with early | late
    · rw [none _ early] at own
      cases own
    · rcases List.mem_cons.1 late with same | later
      · rw [same, declares] at own
        rw [Option.some.inj own]
      · have less := (List.pairwise_cons.1 (List.pairwise_append.1 ordered).2.1).1 _ later
        exact absurd less (String.not_lt.2 notLess)

/-- An option is set to what the least name that declares it says, trimmed, unless that is empty. -/
theorem IsFirst.value_lookup (first : IsFirst locators key written) :
    (lookup locators key).value = if written = "" then none else some (trim written) := by
  obtain ⟨others, values⟩ := first.given_eq
  have value : (lookup locators key).value =
      if (trim written).isEmpty then none else some (trim written) := by
    rw [lookup, values]
    cases others with
    | nil => rfl
    | cons ignored others => rfl
  rw [value]
  by_cases empty : written = ""
  · rw [if_pos empty, empty]
    rfl
  · rw [if_neg empty, if_neg (by simpa using trim_ne_empty empty)]

/-- The only name that declares an option is the first one. -/
theorem isFirst_of_only (listed : declaring key written ∈ locators.names)
    (only : ∀ other, declaring key other ∈ locators.names → other = written) :
    IsFirst locators key written := by
  refine ⟨listed, fun other member => ?_⟩
  obtain rfl := only other member
  exact String.le_refl _

/-- An option that no name declares is not set. -/
theorem value_lookup_of_undeclared (absent : ∀ value, declaring key value ∉ locators.names) :
    (lookup locators key).value = none := by
  have nothing : given locators.names key = [] := by
    refine List.filterMap_eq_nil_iff.2 fun name member => ?_
    cases declares : valueAfter? key name with
    | none => rfl
    | some value => exact absurd (valueAfter?_eq_some.1 declares ▸ member) (absent value)
  rw [lookup, nothing]
  rfl

/-- A key and its value are known from the name, if the key is a word. -/
theorem declaring_inj {other value text : String} (isWord : IsWord key.toList)
    (otherWord : IsWord other.toList) :
    declaring key value = declaring other text ↔ key = other ∧ value = text := by
  constructor
  · intro same
    rw [← String.toList_inj, toList_declaring, toList_declaring] at same
    have front := congrArg beforeSeparator same
    rw [beforeSeparator_append, beforeSeparator_append, isWord.beforeSeparator_eq,
      otherWord.beforeSeparator_eq] at front
    rw [front, List.append_cancel_left_eq, List.cons_inj_right] at same
    exact ⟨String.toList_inj.1 front, String.toList_inj.1 same⟩
  · rintro ⟨rfl, rfl⟩
    rfl

/-- Names that declare options of different keys are different. -/
theorem declaring_ne {other : String} (isWord : IsWord key.toList) (otherWord : IsWord other.toList)
    (differs : key ≠ other) (value text : String) : declaring key value ≠ declaring other text :=
  fun same => differs ((declaring_inj isWord otherWord).1 same).1

/-- The only name of a map is the first one that declares its option. -/
theorem isFirst_insert (key written : String) (value : β) :
    IsFirst (NameMap.empty.insert (declaring key written) value) key written := by
  have names : (NameMap.empty.insert (declaring key written) value).names =
      [declaring key written] := rfl
  refine isFirst_of_only (names ▸ List.mem_singleton_self _) fun other member => ?_
  rw [names, List.mem_singleton, declaring, declaring] at member
  exact (String.append_right_inj _).1 member

end PhysicsPrefab.Options
