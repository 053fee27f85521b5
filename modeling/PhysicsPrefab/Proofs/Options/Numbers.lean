import PhysicsPrefab.Proofs.Number.Numerals
import PhysicsPrefab.Proofs.Options.Separators
import PhysicsPrefab.Proofs.Options.Trimming

/-!
# Numbers in option values

The texts that are read as numbers are those of a grammar (`IsNumber`), and each is read as the
double nearest to what it says (`decodeNumber_correct`). What follows the second separator after the
sign changes nothing, and neither do separators at the end.
-/

namespace PhysicsPrefab.Options

open Rounding (IsNearest overflow)

variable {unsigned raw whole fraction : List Char}

/-- A text without a sign has these digits before the point and after it: the point and the digits
after it may be left out, and after a further separator there may be anything. -/
inductive IsUnsigned (whole : List Char) : List Char → List Char → Prop
  | integer : IsUnsigned whole [] whole
  | decimal (fraction : List Char) : IsUnsigned whole fraction (whole ++ '_' :: fraction)
  | further (fraction ignored : List Char) :
    IsUnsigned whole fraction (whole ++ '_' :: (fraction ++ '_' :: ignored))

/-- A text is a number of the grammar, and these are its parts. -/
structure IsNumber (numeral : Numeral) (raw : List Char) : Prop where
  /-- A separator in front is the sign. -/
  sign : numeral.negative = true ↔ raw.head? = some '_'
  /-- The digits stand around the point. -/
  parts : IsUnsigned numeral.whole numeral.fraction (if numeral.negative then raw.tail else raw)
  /-- They are decimal digits. -/
  digits : ∀ character ∈ numeral.whole ++ numeral.fraction, isDecimalDigit character = true
  /-- There is at least one. -/
  proper : numeral.whole ++ numeral.fraction ≠ []
  /-- No power of ten can be written. -/
  unscaled : numeral.exponent = 0

/-- The numeral that follows a sign. -/
def readUnsigned (negative : Bool) (unsigned : List Char) : Option Numeral :=
  let whole := beforeSeparator unsigned
  let fraction := beforeSeparator (afterSeparator unsigned)
  if whole.isEmpty && fraction.isEmpty then none
  else if whole.all isDecimalDigit && fraction.all isDecimalDigit then
    some { negative, whole, fraction }
  else none

/-- A numeral is what follows its sign, if it has one. -/
theorem readNumeral_eq (raw : List Char) :
    readNumeral raw = readUnsigned (raw.head? == some '_')
      (if raw.head? == some '_' then raw.tail else raw) := by
  cases raw with
  | nil => rfl
  | cons character rest =>
    by_cases sign : character = '_'
    · subst sign
      rfl
    · have noSign : ¬((character :: rest).head? == some '_') = true := by simpa using sign
      rw [if_neg noSign, Bool.eq_false_of_not_eq_true noSign]
      simp [readNumeral, readUnsigned, sign]

/-- The parts of a text without a sign are those before and after its first separator. -/
theorem isUnsigned_iff (wholeWord : IsWord whole) (fractionWord : IsWord fraction) :
    IsUnsigned whole fraction unsigned ↔
      beforeSeparator unsigned = whole ∧ beforeSeparator (afterSeparator unsigned) = fraction := by
  constructor
  · rintro (_ | _ | ⟨_, ignored⟩)
    · exact ⟨wholeWord.beforeSeparator_eq, by rw [wholeWord.afterSeparator_eq]; rfl⟩
    · rw [beforeSeparator_append, wholeWord.afterSeparator_append]
      exact ⟨wholeWord.beforeSeparator_eq, fractionWord.beforeSeparator_eq⟩
    · rw [beforeSeparator_append, wholeWord.afterSeparator_append, beforeSeparator_append]
      exact ⟨wholeWord.beforeSeparator_eq, fractionWord.beforeSeparator_eq⟩
  · rintro ⟨rfl, rfl⟩
    rcases split_at_separator unsigned with ⟨same, nothing⟩ | split
    · rw [nothing, ← same]
      exact .integer
    · generalize beforeSeparator unsigned = whole at split
      generalize afterSeparator unsigned = rest at split
      rw [split]
      rcases split_at_separator rest with ⟨same, -⟩ | further
      · rw [← same]
        exact .decimal rest
      · generalize beforeSeparator rest = fraction at further
        rw [further]
        exact .further fraction _

/-- What follows a sign is read by its two parts. -/
theorem readUnsigned_eq_some {negative : Bool} {numeral : Numeral} :
    readUnsigned negative unsigned = some numeral ↔
      numeral.negative = negative ∧ IsUnsigned numeral.whole numeral.fraction unsigned ∧
      (∀ character ∈ numeral.whole ++ numeral.fraction, isDecimalDigit character = true) ∧
      numeral.whole ++ numeral.fraction ≠ [] ∧ numeral.exponent = 0 := by
  constructor
  · intro read
    have wholeWord := isWord_beforeSeparator unsigned
    have fractionWord := isWord_beforeSeparator (afterSeparator unsigned)
    have parts := (isUnsigned_iff wholeWord fractionWord).2 ⟨rfl, rfl⟩
    unfold readUnsigned at read
    generalize beforeSeparator unsigned = whole at read parts
    generalize beforeSeparator (afterSeparator unsigned) = fraction at read parts
    dsimp only at read
    split at read
    · contradiction
    · rename_i notEmpty
      split at read
      · rename_i digits
        obtain rfl := Option.some.inj read
        refine ⟨rfl, parts, ?_, ?_, rfl⟩
        · simpa [or_imp, forall_and] using digits
        · simpa using notEmpty
      · contradiction
  · rintro ⟨rfl, parts, digits, proper, unscaled⟩
    have wholeWord : IsWord numeral.whole := isWord_of_digits fun character member =>
      digits character (List.mem_append_left _ member)
    have fractionWord : IsWord numeral.fraction := isWord_of_digits fun character member =>
      digits character (List.mem_append_right _ member)
    obtain ⟨isWhole, isFraction⟩ := (isUnsigned_iff wholeWord fractionWord).1 parts
    have notEmpty : ¬(numeral.whole.isEmpty && numeral.fraction.isEmpty) = true := by
      simpa using proper
    have allDigits : (numeral.whole.all isDecimalDigit && numeral.fraction.all isDecimalDigit) =
        true := by
      simpa [or_imp, forall_and] using digits
    rw [readUnsigned, isWhole, isFraction, if_neg notEmpty, if_pos allDigits]
    cases numeral
    cases unscaled
    rfl

/-- The texts that are read as numerals are those of the grammar. -/
theorem readNumeral_eq_some {numeral : Numeral} :
    readNumeral raw = some numeral ↔ IsNumber numeral raw := by
  rw [readNumeral_eq, readUnsigned_eq_some]
  constructor
  · rintro ⟨isSign, parts, digits, proper, unscaled⟩
    rw [← isSign] at parts
    exact ⟨by rw [isSign, beq_iff_eq], parts, digits, proper, unscaled⟩
  · rintro ⟨sign, parts, digits, proper, unscaled⟩
    have isSign : numeral.negative = (raw.head? == some '_') := by
      rw [Bool.eq_iff_iff, sign, beq_iff_eq]
    rw [isSign] at parts
    exact ⟨isSign, parts, digits, proper, unscaled⟩

/-- Two texts with the same parts are read the same. -/
theorem readUnsigned_congr {negative : Bool} {other : List Char}
    (sameWhole : beforeSeparator unsigned = beforeSeparator other)
    (sameFraction : beforeSeparator (afterSeparator unsigned) =
      beforeSeparator (afterSeparator other)) :
    readUnsigned negative unsigned = readUnsigned negative other := by
  rw [readUnsigned, readUnsigned, sameWhole, sameFraction]

/-- The first character is the sign or belongs to the number. -/
theorem readNumeral_cons (character : Char) (rest : List Char) :
    readNumeral (character :: rest) =
      if character = '_' then readUnsigned true rest
      else readUnsigned false (character :: rest) := by
  by_cases sign : character = '_'
  · rw [if_pos sign, sign]
    rfl
  · have noSign : (some character == some '_') = false := by simpa using sign
    rw [if_neg sign, readNumeral_eq, List.head?_cons, noSign]
    rfl

/-- What follows the second separator after the sign does not change a reading. -/
theorem readNumeral_further (character : Char) (before after ignored : List Char) :
    readNumeral (character :: before ++ '_' :: (after ++ '_' :: ignored)) =
      readNumeral (character :: before ++ '_' :: after) := by
  have further (negative : Bool) (before : List Char) :
      readUnsigned negative (before ++ '_' :: (after ++ '_' :: ignored)) =
        readUnsigned negative (before ++ '_' :: after) := by
    refine readUnsigned_congr ?_ ?_
    · rw [beforeSeparator_append, beforeSeparator_append]
    · rcases afterSeparator_append before with ⟨-, same⟩ | same
      · rw [same, same, beforeSeparator_append]
      · rw [same, same, beforeSeparator_append, beforeSeparator_append]
  rw [List.cons_append, List.cons_append, readNumeral_cons, readNumeral_cons]
  split
  · exact further true before
  · exact further false (character :: before)

/-- Separators at the end do not change a reading. -/
theorem readNumeral_append_padding (raw : List Char) (padding : Nat) :
    readNumeral (raw ++ List.replicate padding '_') = readNumeral raw := by
  have trailing (negative : Bool) (unsigned : List Char) :
      readUnsigned negative (unsigned ++ ['_']) = readUnsigned negative unsigned := by
    refine readUnsigned_congr (beforeSeparator_append unsigned []) ?_
    rcases afterSeparator_append unsigned with ⟨nothing, same⟩ | same
    · rw [same, nothing]
    · rw [same, beforeSeparator_append]
  have one (raw : List Char) : readNumeral (raw ++ ['_']) = readNumeral raw := by
    cases raw with
    | nil => rfl
    | cons character rest =>
      rw [List.cons_append, readNumeral_cons, readNumeral_cons]
      split
      · exact trailing true rest
      · exact trailing false (character :: rest)
  induction padding with
  | zero => rw [List.replicate_zero, List.append_nil]
  | succ padding ih => rw [List.replicate_succ', ← List.append_assoc, one, ih]

/-- Trimming does not change a reading. -/
theorem readNumeral_trimCharacters (raw : List Char) :
    readNumeral (trimCharacters raw) = readNumeral raw := by
  obtain ⟨padding, whole⟩ := exists_padding raw
  conv_rhs => rw [whole]
  exact (readNumeral_append_padding _ padding).symm

/-- A text is read as a number exactly if it is one of the grammar and in range. The number is the
double nearest to its digits around the point, and it is negative exactly if a separator stands in
front. What follows the second separator after the sign does not count, and trimming does not
either. -/
theorem decodeNumber_correct (raw : String) :
    ((decodeNumber raw : Option Float).isSome = true ↔
      ∃ numeral, IsNumber numeral raw.toList ∧ numeral.magnitude < overflow) ∧
    (∀ value : Float, decodeNumber raw = some value ↔ ∃ numeral magnitude,
      IsNumber numeral raw.toList ∧ IsNearest numeral.magnitude magnitude ∧
        value = signed numeral.negative magnitude) ∧
    (∀ character before after ignored,
      (decodeNumber (String.ofList (character :: before ++ '_' :: (after ++ '_' :: ignored))) :
        Option Float) = decodeNumber (String.ofList (character :: before ++ '_' :: after))) ∧
    (decodeNumber (trim raw) : Option Float) = decodeNumber raw := by
  refine ⟨?_, ?_, ?_, ?_⟩
  · simp only [decodeNumber, decodeCharacters, Option.isSome_bind, ← readNumeral_eq_some]
    cases readNumeral raw.toList with
    | none => simp
    | some numeral => simp [Numeral.isSome_ofNumeral]
  · intro value
    simp only [decodeNumber, decodeCharacters, Option.bind_eq_some_iff, readNumeral_eq_some,
      Numeral.ofNumeral_eq_some, exists_and_left]
  · intro character before after ignored
    rw [decodeNumber, decodeNumber, String.toList_ofList, String.toList_ofList, decodeCharacters,
      decodeCharacters, readNumeral_further]
  · rw [decodeNumber, decodeNumber, trim, String.toList_ofList, decodeCharacters, decodeCharacters,
      readNumeral_trimCharacters]

end PhysicsPrefab.Options
