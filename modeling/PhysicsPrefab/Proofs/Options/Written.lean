import PhysicsPrefab.Proofs.Options.Declared
import PhysicsPrefab.Proofs.Options.Numbers

/-!
# Numbers and vectors as they are written

A number that is written with all its digits is a number of the grammar (`Written.isNumber`), and
three of them with double separators between them are taken apart again (`splitDouble_vectorText`),
whatever their signs and fractions. So an option that is set to one of these has the value that was
written (`lookup_written`).
-/

namespace PhysicsPrefab.Options

open Rounding (IsNearest overflow)

/-- A number as it is written: it has a digit before the point, and after the point if there is
one. -/
structure Written extends Numeral where
  /-- There are digits before the point. -/
  proper : whole ≠ []
  /-- They are decimal digits, and so are those after it. -/
  digits : ∀ character ∈ whole ++ fraction, isDecimalDigit character = true
  /-- No power of ten is written. -/
  unscaled : exponent = 0

namespace Written

variable (number : Written)

/-- What is written for the point and the digits after it. -/
def point : List Char := if number.fraction = [] then [] else '_' :: number.fraction

/-- What is written for the sign. -/
def sign : List Char := if number.negative then ['_'] else []

/-- The characters that are written. -/
def characters : List Char := number.sign ++ (number.whole ++ number.point)

/-- The text that is written. -/
def text : String := String.ofList number.characters

/-- The digits before the point hold no separator. -/
theorem isWord_whole : IsWord number.whole :=
  isWord_of_digits fun character member => number.digits character (List.mem_append_left _ member)

/-- The digits after the point hold no separator. -/
theorem isWord_fraction : IsWord number.fraction :=
  isWord_of_digits fun character member => number.digits character (List.mem_append_right _ member)

/-- The digits before the point do not start with a separator. -/
theorem head?_whole (rest : List Char) : (number.whole ++ rest).head? ≠ some '_' :=
  number.isWord_whole.head?_append number.proper rest

/-- What is written is a number of the grammar, with the same parts. -/
theorem isNumber : IsNumber number.toNumeral number.characters := by
  have unsigned : IsUnsigned number.whole number.fraction (number.whole ++ number.point) := by
    unfold point
    split
    · rename_i none
      rw [none, List.append_nil]
      exact .integer
    · exact .decimal _
  have proper := List.append_ne_nil_of_left_ne_nil number.proper number.fraction
  unfold characters sign
  cases negative : number.negative with
  | true =>
    exact ⟨by simp [negative], by simpa [negative] using unsigned, number.digits, proper,
      number.unscaled⟩
  | false =>
    have noSign := number.head?_whole number.point
    exact ⟨by simpa [negative] using noSign, by simpa [negative] using unsigned, number.digits,
      proper, number.unscaled⟩

/-- What is written ends with a character that does not separate. -/
theorem getLast?_characters (front : List Char) :
    ∃ last ∈ (front ++ number.characters).getLast?, last ≠ '_' := by
  have ends (front word : List Char) (proper : word ≠ []) (isWord : IsWord word) :
      ∃ last ∈ (front ++ word).getLast?, last ≠ '_' := by
    refine ⟨word.getLast proper, ?_, of_decide_eq_false (isWord _ (List.getLast_mem proper))⟩
    rw [List.getLast?_append_of_ne_nil _ proper]
    exact List.getLast?_eq_some_getLast proper
  rw [characters, ← List.append_assoc, ← List.append_assoc]
  unfold point
  split
  · rw [List.append_nil]
    exact ends _ _ number.proper number.isWord_whole
  · rename_i hasFraction
    rw [List.append_cons]
    exact ends _ _ hasFraction number.isWord_fraction

end Written

section Parts

variable {word rest head : List Char} {tail : List (List Char)}

/-- A word belongs to the first part of a text. -/
theorem IsWord.splitDouble_append (isWord : IsWord word) (parts : splitDouble rest = head :: tail) :
    splitDouble (word ++ rest) = (word ++ head) :: tail := by
  induction word with
  | nil => exact parts
  | cons character word ih =>
    have notSeparator : character ≠ '_' := of_decide_eq_false (isWord _ List.mem_cons_self)
    have later := ih fun other member => isWord other (List.mem_cons_of_mem _ member)
    rw [List.cons_append, splitDouble, later]
    · rfl
    · exact fun _ isSeparator _ => notSeparator isSeparator

/-- One separator belongs to the first part of a text. -/
theorem splitDouble_separator (single : rest.head? ≠ some '_')
    (parts : splitDouble rest = head :: tail) :
    splitDouble ('_' :: rest) = ('_' :: head) :: tail := by
  rw [splitDouble, parts]
  rintro others - rfl
  exact single rfl

/-- A number as it is written belongs to the first part of a text. -/
theorem Written.splitDouble_append (number : Written) (parts : splitDouble rest = head :: tail) :
    splitDouble (number.characters ++ rest) = (number.characters ++ head) :: tail := by
  have point : splitDouble (number.point ++ rest) = (number.point ++ head) :: tail := by
    unfold Written.point
    split
    · exact parts
    · rename_i hasFraction
      exact splitDouble_separator (number.isWord_fraction.head?_append hasFraction rest)
        (number.isWord_fraction.splitDouble_append parts)
  have whole := number.isWord_whole.splitDouble_append point
  simp only [Written.characters, Written.sign, List.append_assoc]
  split
  · exact splitDouble_separator (number.head?_whole _) whole
  · exact whole

end Parts

/-- The text of a vector: its numbers with double separators between them. -/
def vectorText (x y z : Written) : String := x.text ++ "__" ++ y.text ++ "__" ++ z.text

/-- The characters of a vector. -/
theorem toList_vectorText (x y z : Written) : (vectorText x y z).toList =
    x.characters ++ '_' :: '_' :: (y.characters ++ '_' :: '_' :: z.characters) := by
  simp [vectorText, Written.text]

/-- Numbers with double separators between them are taken apart again. -/
theorem splitDouble_vectorText (x y z : Written) :
    splitDouble (vectorText x y z).toList = [x.characters, y.characters, z.characters] := by
  have third : splitDouble z.characters = [z.characters] := by
    have parts := z.splitDouble_append (rfl : splitDouble [] = [] :: [])
    rwa [List.append_nil] at parts
  have second : splitDouble (y.characters ++ '_' :: '_' :: z.characters) =
      [y.characters, z.characters] := by
    have parts := y.splitDouble_append (rfl : splitDouble ('_' :: '_' :: z.characters) = [] :: _)
    rwa [List.append_nil, third] at parts
  have first := x.splitDouble_append
    (rfl : splitDouble ('_' :: '_' :: (y.characters ++ '_' :: '_' :: z.characters)) = [] :: _)
  rwa [List.append_nil, second, ← toList_vectorText] at first

example : splitDouble "_1_5___2__3".toList = ["_1_5".toList, "_2".toList, "3".toList] := rfl

variable {β : Type} {locators : NameMap β} {key : String} {padding : Nat}

/-- A number as it is written is read as the double nearest to it, with its sign. -/
theorem Written.decodeCharacters_eq (number : Written) (inRange : number.magnitude < overflow) :
    ∃ magnitude, IsNearest number.magnitude magnitude ∧
      decodeCharacters number.characters = some (signed number.negative magnitude) := by
  rw [decodeCharacters, readNumeral_eq_some.2 number.isNumber, Option.bind_some]
  obtain ⟨value, read⟩ := Option.isSome_iff_exists.1 (Numeral.isSome_ofNumeral.2 inRange)
  obtain ⟨magnitude, nearest, rfl⟩ := Numeral.ofNumeral_eq_some.1 read
  exact ⟨magnitude, nearest, read⟩

/-- An option is set to the text that is written for it, whatever separators are added to its
name. -/
theorem IsFirst.value_lookup_padded {text : String}
    (ends : ∃ last ∈ text.toList.getLast?, last ≠ '_')
    (first : IsFirst locators key (padded text padding)) :
    (lookup locators key).value = some text := by
  obtain ⟨last, isLast, notSeparator⟩ := ends
  have proper : text ≠ "" := by
    rintro rfl
    cases isLast
  have trimmed : trim text = text := by
    refine trim_eq_self_iff.2 (.inr fun separator => notSeparator ?_)
    exact Option.some.inj (isLast.symm.trans separator)
  have notEmpty : padded text padding ≠ "" := by
    rw [padded]
    simp [proper]
  rw [first.value_lookup, if_neg notEmpty, trim_padded proper, trimmed]

/-- An option that is set to a number as it is written has this number as its value, and one that is
set to three of them has the vector of the three, whatever separators are added to its name. -/
theorem lookup_written (locators : NameMap β) (key : String) (padding : Nat) :
    (∀ number : Written, number.magnitude < overflow →
      IsFirst locators key (padded number.text padding) →
      ∃ magnitude, IsNearest number.magnitude magnitude ∧
        (lookup locators key).value.bind decodeNumber = some (signed number.negative magnitude)) ∧
    ∀ x y z : Written,
      x.magnitude < overflow → y.magnitude < overflow → z.magnitude < overflow →
      IsFirst locators key (padded (vectorText x y z) padding) →
      ∃ first second third, IsNearest x.magnitude first ∧ IsNearest y.magnitude second ∧
        IsNearest z.magnitude third ∧
        (lookup locators key).value.bind decodeVec3 =
          some ⟨signed x.negative first, signed y.negative second, signed z.negative third⟩ := by
  constructor
  · intro number inRange first
    have isValue : (lookup locators key).value = some number.text := by
      refine first.value_lookup_padded ?_
      rw [Written.text, String.toList_ofList]
      exact number.getLast?_characters []
    obtain ⟨magnitude, nearest, read⟩ := number.decodeCharacters_eq inRange
    refine ⟨magnitude, nearest, ?_⟩
    rw [isValue, Option.bind_some, decodeNumber, Written.text, String.toList_ofList, read]
  · intro x y z xInRange yInRange zInRange first
    have isValue : (lookup locators key).value = some (vectorText x y z) := by
      refine first.value_lookup_padded ?_
      have ends := z.getLast?_characters
        (x.characters ++ '_' :: '_' :: (y.characters ++ ['_', '_']))
      rw [toList_vectorText]
      simpa only [List.append_assoc, List.cons_append, List.nil_append] using ends
    obtain ⟨first, firstNearest, firstRead⟩ := x.decodeCharacters_eq xInRange
    obtain ⟨second, secondNearest, secondRead⟩ := y.decodeCharacters_eq yInRange
    obtain ⟨third, thirdNearest, thirdRead⟩ := z.decodeCharacters_eq zInRange
    refine ⟨first, second, third, firstNearest, secondNearest, thirdNearest, ?_⟩
    rw [isValue, Option.bind_some, decodeVec3, splitDouble_vectorText]
    simp [firstRead, secondRead, thirdRead]

/-- An angle of minus one half with two more separators, and an axis of three such numbers with one
more. -/
theorem lookup_written_half :
    let half : Written := ⟨⟨true, ['0'], ['5'], 0⟩, by decide, List.all_eq_true.1 rfl, rfl⟩
    (∃ magnitude, IsNearest half.magnitude magnitude ∧
      (lookup (NameMap.empty.insert "angle__0_5__" ()) "angle").value.bind decodeNumber =
        some (-magnitude)) ∧
    ∃ first second third, IsNearest half.magnitude first ∧ IsNearest half.magnitude second ∧
      IsNearest half.magnitude third ∧
      (lookup (NameMap.empty.insert "axisa__0_5___0_5___0_5_" ()) "axisa").value.bind decodeVec3 =
        some ⟨-first, -second, -third⟩ := by
  intro half
  have inRange : half.magnitude < overflow := Numeral.isSome_ofNumeral.1 (by decide +kernel)
  exact ⟨(lookup_written _ "angle" 2).1 half inRange (isFirst_insert "angle" "_0_5__" ()),
    (lookup_written _ "axisa" 1).2 half half half inRange inRange inRange
      (isFirst_insert "axisa" "_0_5___0_5___0_5_" ())⟩

end PhysicsPrefab.Options
