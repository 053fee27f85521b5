import Mathlib.Data.List.TakeWhile
import PhysicsPrefab.Options.Grammar

/-!
# Separators

A text is a word up to its first separator (`split_at_separator`). What is added behind a separator
does not change the part before the first one (`beforeSeparator_append`), and in the part after it
everything that was there stays in front (`afterSeparator_append`).
-/

namespace PhysicsPrefab.Options

variable {front : List Char}

/-- A text without a separator. -/
def IsWord (characters : List Char) : Prop :=
  ∀ character ∈ characters, isSeparator character = false

/-- Digits do not separate. -/
theorem isWord_of_digits {digits : List Char}
    (areDigits : ∀ character ∈ digits, isDecimalDigit character = true) : IsWord digits := by
  intro character member
  have isDigit := areDigits character member
  refine decide_eq_false ?_
  rintro rfl
  exact absurd isDigit (by decide)

/-- A word does not start with a separator. -/
theorem IsWord.head?_append (isWord : IsWord front) (proper : front ≠ []) (rest : List Char) :
    (front ++ rest).head? ≠ some '_' := by
  obtain ⟨first, others, rfl⟩ := List.exists_cons_of_ne_nil proper
  intro isFirst
  cases isWord '_' (Option.some.inj isFirst ▸ List.mem_cons_self)

/-- What is before the first separator holds none. -/
theorem isWord_beforeSeparator (characters : List Char) : IsWord (beforeSeparator characters) := by
  intro character member
  simpa using List.mem_takeWhile_imp member

/-- A text without a separator is all before the first one. -/
theorem IsWord.beforeSeparator_eq (isWord : IsWord front) : beforeSeparator front = front :=
  List.takeWhile_eq_self_iff.2 fun character member => by rw [isWord character member]; rfl

/-- A text without a separator has nothing after the first one. -/
theorem IsWord.afterSeparator_eq (isWord : IsWord front) : afterSeparator front = [] := by
  have nothing : front.dropWhile (fun character => !isSeparator character) = [] :=
    List.dropWhile_eq_nil_iff.2 fun character member => by rw [isWord character member]; rfl
  rw [afterSeparator, nothing]
  rfl

/-- What follows a separator does not change what is before the first one. -/
theorem beforeSeparator_append (front rest : List Char) :
    beforeSeparator (front ++ '_' :: rest) = beforeSeparator front := by
  induction front with
  | nil => rfl
  | cons character front ih =>
    simp only [beforeSeparator, List.cons_append, List.takeWhile_cons] at ih ⊢
    rw [ih]

/-- What follows a text without a separator and a separator is after the first one. -/
theorem IsWord.afterSeparator_append (isWord : IsWord front) (rest : List Char) :
    afterSeparator (front ++ '_' :: rest) = rest := by
  rw [afterSeparator, List.dropWhile_append_of_pos fun character member => by
    rw [isWord character member]; rfl]
  rfl

/-- A text is all before its first separator, or what is before it, the separator and what is
after it. -/
theorem split_at_separator (characters : List Char) :
    characters = beforeSeparator characters ∧ afterSeparator characters = [] ∨
      characters = beforeSeparator characters ++ '_' :: afterSeparator characters := by
  have parts := (List.takeWhile_append_dropWhile (p := fun c => !isSeparator c)
    (l := characters)).symm
  cases rest : characters.dropWhile (fun character => !isSeparator character) with
  | nil =>
    rw [rest, List.append_nil] at parts
    refine .inl ⟨parts, ?_⟩
    rw [afterSeparator, rest]
    rfl
  | cons character after =>
    have separates : isSeparator character = true := by
      have stopped := List.head?_dropWhile_not (fun character => !isSeparator character) characters
      rw [rest] at stopped
      simpa using stopped
    obtain rfl : character = '_' := of_decide_eq_true separates
    rw [rest] at parts
    refine .inr ?_
    rw [afterSeparator, rest]
    exact parts

/-- What is added behind a separator is after the first one, and so is all that was there before. -/
theorem afterSeparator_append (front : List Char) :
    (afterSeparator front = [] ∧ ∀ rest, afterSeparator (front ++ '_' :: rest) = rest) ∨
      ∀ rest, afterSeparator (front ++ '_' :: rest) = afterSeparator front ++ '_' :: rest := by
  have isWord := isWord_beforeSeparator front
  rcases split_at_separator front with ⟨same, nothing⟩ | split
  · rw [← same] at isWord
    exact .inl ⟨nothing, isWord.afterSeparator_append⟩
  · refine .inr fun rest => ?_
    generalize afterSeparator front = after at split ⊢
    rw [split, List.append_assoc, List.cons_append]
    exact isWord.afterSeparator_append _

end PhysicsPrefab.Options
