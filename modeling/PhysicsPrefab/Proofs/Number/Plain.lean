import PhysicsPrefab.Proofs.Json.Numbers

/-!
# Numbers in scripts

A number in a script is written with digits, a point between digits and a sign, and never with a
power of ten (`render_plain`). Numbers that are not finite have a word each. So nothing in the text
of a number can end a line or open a quote (`IsPlainNumber.character`).
-/

namespace PhysicsPrefab

open Json (NumberText)
open Json.NumberText (AreDigits fractionCharacters)

/-- The words for numbers that are not finite. -/
def wordsOfNumbers : List String := ["inf", "-inf", "NaN"]

/-- The text of a number in a script. -/
inductive IsPlainNumber : List Char → Prop where
  /-- Digits, or digits with a point between them, with or without a minus sign. -/
  | decimal (negative : Bool) {whole : List Char} {fraction : Option (List Char)}
      (wholeDigits : AreDigits whole) (fractionDigits : ∀ digits ∈ fraction, AreDigits digits) :
      IsPlainNumber ((if negative then ['-'] else []) ++ (whole ++ fractionCharacters fraction))
  /-- A word. -/
  | word (word : String) (known : word ∈ wordsOfNumbers) : IsPlainNumber word.toList

/-- The characters of numbers. -/
def numberCharacters : List Char :=
  ['0', '1', '2', '3', '4', '5', '6', '7', '8', '9', '-', '.', 'i', 'n', 'f', 'N', 'a']

/-- Every character of a number is one of a few. -/
theorem IsPlainNumber.character {characters : List Char} (number : IsPlainNumber characters)
    {character : Char} (member : character ∈ characters) : character ∈ numberCharacters := by
  have digit {digits : List Char} (areDigits : AreDigits digits) (inside : character ∈ digits) :
      character ∈ numberCharacters :=
    List.mem_append_left ['-', '.', 'i', 'n', 'f', 'N', 'a']
      (Json.mem_digits_of_isDecimalDigit (areDigits.digit character inside))
  cases number with
  | @decimal negative whole fraction wholeDigits fractionDigits =>
    rcases List.mem_append.1 member with sign | inDigits
    · have minus : character = '-' := by
        cases negative with
        | false => cases sign
        | true => exact List.mem_singleton.1 sign
      exact minus ▸ by decide
    · rcases List.mem_append.1 inDigits with inWhole | inFraction
      · exact digit wholeDigits inWhole
      · cases fraction with
        | none => cases inFraction
        | some digits =>
          rcases List.mem_cons.1 inFraction with rfl | inDigits
          · decide
          · exact digit (fractionDigits digits rfl) inDigits
  | word word known =>
    have words : ∀ word ∈ wordsOfNumbers, ∀ character ∈ word.toList,
        character ∈ numberCharacters := by
      simp [wordsOfNumbers, numberCharacters]
    exact words word known character member

namespace NumberStyle

/-- Digits with a point are digits, or digits on both sides of the point. -/
theorem placePoint_plain {digits : List Char} (areDigits : AreDigits digits) (whole : Int) :
    ∃ before fraction, AreDigits before ∧ (∀ after ∈ fraction, AreDigits after) ∧
      plain.placePoint digits whole = before ++ fractionCharacters fraction := by
  obtain ⟨nonempty, allDigits⟩ := areDigits
  have zeros {count : Nat} : ∀ character ∈ List.replicate count '0',
      isDecimalDigit character = true := fun character member =>
    (List.mem_replicate.1 member).2 ▸ rfl
  by_cases small : whole ≤ 0
  · have fraction : AreDigits (List.replicate (-whole).toNat '0' ++ digits) := by
      refine ⟨List.append_ne_nil_of_right_ne_nil _ nonempty, fun character member => ?_⟩
      exact (List.mem_append.1 member).elim (zeros character) (allDigits character)
    have zero : AreDigits ['0'] :=
      ⟨List.cons_ne_nil _ _, List.forall_mem_singleton.2 rfl⟩
    refine ⟨['0'], some _, zero, fun after same => Option.some.inj same ▸ fraction, ?_⟩
    rw [placePoint, if_pos small]
    rfl
  · by_cases few : digits.length ≤ whole.toNat
    · refine ⟨digits ++ List.replicate (whole.toNat - digits.length) '0', none, ⟨?_, ?_⟩,
        by simp, ?_⟩
      · exact List.append_ne_nil_of_left_ne_nil nonempty _
      · intro character member
        exact (List.mem_append.1 member).elim (allDigits character) (zeros character)
      · rw [placePoint, if_neg small]
        simp only [few, if_true]
        rfl
    · have before : AreDigits (digits.take whole.toNat) := by
        refine ⟨?_, fun character member => allDigits character (List.mem_of_mem_take member)⟩
        simp only [ne_eq, List.take_eq_nil_iff, nonempty, or_false]
        omega
      have after : AreDigits (digits.drop whole.toNat) := by
        refine ⟨?_, fun character member => allDigits character (List.mem_of_mem_drop member)⟩
        simp only [ne_eq, List.drop_eq_nil_iff]
        omega
      refine ⟨_, some _, before, fun digits same => Option.some.inj same ▸ after, ?_⟩
      rw [placePoint, if_neg small]
      simp only [few, if_false]
      rfl

/-- Every number in a script has the text of a number. -/
theorem render_plain (value : Float) : IsPlainNumber (plain.render value) := by
  have decimal (negative : Bool) (decimal : Decimal) :
      IsPlainNumber ((if negative then ['-'] else []) ++ plain.ofDecimal decimal) := by
    obtain ⟨before, fraction, beforeDigits, fractionDigits, same⟩ :=
      placePoint_plain (areDigits_toDigits decimal.coefficient)
        (decimal.exponent + (Nat.toDigits 10 decimal.coefficient).length - 1 + 1)
    have text : plain.ofDecimal decimal = before ++ fractionCharacters fraction := same
    rw [text]
    exact .decimal negative beforeDigits fractionDigits
  unfold render
  split
  · exact IsPlainNumber.word "NaN" (by decide)
  · dsimp only
    split
    · split
      · exact IsPlainNumber.word "-inf" (by decide)
      · exact IsPlainNumber.word "inf" (by decide)
    · split
      · exact decimal true _
      · exact decimal false _

end NumberStyle

end PhysicsPrefab
