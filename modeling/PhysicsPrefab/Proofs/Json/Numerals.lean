import PhysicsPrefab.Json.Token

/-!
# Texts of numbers

The text of a number is put together from its parts (`NumberText.characters`), and the scanner takes
it apart again: it comes to the last part with all of them read (`run_characters`). What follows a
number must not go on with it.
-/

namespace PhysicsPrefab.Json

namespace NumberText

/-- A sequence of decimal digits, at least one. -/
structure AreDigits (digits : List Char) : Prop where
  /-- There is a digit. -/
  nonempty : digits ≠ []
  /-- There is nothing else. -/
  digit : ∀ character ∈ digits, isDecimalDigit character = true

/-- The parts of a number are as a data file has them: there are digits wherever there must be, and
no digit follows a leading zero. -/
structure IsProper (parts : NumberText) : Prop where
  /-- There are digits before the point. -/
  whole : AreDigits parts.whole
  /-- A leading zero stands alone. -/
  leading : parts.whole.head? = some '0' → parts.whole = ['0']
  /-- There are digits after the point. -/
  fraction : ∀ digits ∈ parts.fraction, AreDigits digits
  /-- The power of ten has digits. -/
  power : ∀ power ∈ parts.power, AreDigits power.2

/-- The characters of the part after the point. -/
def fractionCharacters : Option (List Char) → List Char
  | some digits => '.' :: digits
  | none => []

/-- The characters of the power of ten. -/
def powerCharacters : Option (Bool × List Char) → List Char
  | some (negative, digits) => 'e' :: (if negative then '-' else '+') :: digits
  | none => []

/-- The characters of a number. -/
def characters (parts : NumberText) : List Char :=
  (if parts.negative then ['-'] else []) ++ parts.whole ++ fractionCharacters parts.fraction ++
    powerCharacters parts.power

/-- The part of a number that is read last. -/
def lastPart (parts : NumberText) : NumberPart :=
  if parts.power.isSome then .powerDigits
  else if parts.fraction.isSome then .fraction
  else if parts.whole = ['0'] then .zero
  else .whole

/-- A number may end after its last part. -/
theorem isComplete_lastPart (parts : NumberText) : Scan.isComplete parts.lastPart = true := by
  unfold lastPart
  split
  · rfl
  · split
    · rfl
    · split <;> rfl

end NumberText

/-- The ten digits are known by name. -/
theorem mem_digits_of_isDecimalDigit {character : Char} (digit : isDecimalDigit character = true) :
    character ∈ ['0', '1', '2', '3', '4', '5', '6', '7', '8', '9'] := by
  rw [isDecimalDigit, Bool.and_eq_true, decide_eq_true_eq, decide_eq_true_eq] at digit
  have low : 48 ≤ character.toNat := UInt32.le_iff_toNat_le.1 (Char.le_def.1 digit.1)
  have high : character.toNat ≤ 57 := UInt32.le_iff_toNat_le.1 (Char.le_def.1 digit.2)
  have known : ∀ number < 58, 48 ≤ number →
      Char.ofNat number ∈ ['0', '1', '2', '3', '4', '5', '6', '7', '8', '9'] := by
    decide
  simpa using known character.toNat (by omega) low

namespace Scan

open NumberText

/-- A character that goes on with a number is read into it. -/
theorem run_extend {part next : NumberPart} {read longer : NumberText} {character : Char}
    (goesOn : extend part read character = some (next, longer)) (rest : List Char) :
    run (numeral part read) (character :: rest) = run (numeral next longer) rest := by
  simp [run, step, goesOn]

/-- A digit goes on with the digits before the point. -/
theorem extend_whole (read : NumberText) (digit : Char) (isDigit : isDecimalDigit digit = true) :
    extend .whole read digit = some (.whole, addWhole read digit) := by
  simp [extend, isDigit]

/-- A digit goes on with the digits after the point. -/
theorem extend_fraction (read : NumberText) (digit : Char) (isDigit : isDecimalDigit digit = true) :
    extend .fraction read digit = some (.fraction, addFraction read digit) := by
  simp [extend, isDigit]

/-- A digit goes on with the digits of the power of ten. -/
theorem extend_powerDigits (read : NumberText) (digit : Char)
    (isDigit : isDecimalDigit digit = true) :
    extend .powerDigits read digit = some (.powerDigits, addPower read digit) := by
  simp [extend, isDigit]

/-- Digits are read into the part of a number that they belong to. -/
theorem run_digits {part : NumberPart} {add : NumberText → Char → NumberText}
    (goesOn : ∀ read character, isDecimalDigit character = true →
      extend part read character = some (part, add read character))
    {digits : List Char} (areDigits : ∀ character ∈ digits, isDecimalDigit character = true)
    (read : NumberText) (rest : List Char) :
    run (numeral part read) (digits ++ rest) = run (numeral part (digits.foldl add read)) rest := by
  induction digits generalizing read with
  | nil => rfl
  | cons digit more ih =>
    obtain ⟨isDigit, moreDigits⟩ := List.forall_mem_cons.1 areDigits
    rw [List.cons_append, run_extend (goesOn read digit isDigit), ih moreDigits, List.foldl_cons]

/-- Digits before the point are gathered. -/
theorem foldl_addWhole (digits : List Char) (read : NumberText) :
    digits.foldl addWhole read = { read with whole := read.whole ++ digits } := by
  induction digits generalizing read with
  | nil => simp
  | cons digit more ih => simp [ih, addWhole]

/-- Digits after the point are gathered. -/
theorem foldl_addFraction {digits : List Char} (nonempty : digits ≠ []) (read : NumberText) :
    digits.foldl addFraction read =
      { read with fraction := some (read.fraction.getD [] ++ digits) } := by
  induction digits generalizing read with
  | nil => contradiction
  | cons digit more ih =>
    cases more with
    | nil => rfl
    | cons second later =>
      rw [List.foldl_cons, ih (List.cons_ne_nil _ _)]
      simp [addFraction]

/-- Digits of the power of ten are gathered. -/
theorem foldl_addPower (digits : List Char) (read : NumberText) :
    digits.foldl addPower read =
      { read with power := read.power.map fun (negative, before) => (negative, before ++ digits) } := by
  induction digits generalizing read with
  | nil => simp
  | cons digit more ih =>
    rw [List.foldl_cons, ih]
    simp [addPower, Function.comp_def]

/-- The sign and the first digit of a number begin it. -/
theorem run_begin (negative : Bool) {digit : Char} (isDigit : isDecimalDigit digit = true)
    (rest : List Char) :
    run between ((if negative then ['-'] else []) ++ digit :: rest) =
      run (numeral (if digit = '0' then .zero else .whole) ⟨negative, [digit], none, none⟩) rest := by
  have known := mem_digits_of_isDecimalDigit isDigit
  simp only [List.mem_cons, List.not_mem_nil, or_false] at known
  cases negative <;> rcases known with rfl | rfl | rfl | rfl | rfl | rfl | rfl | rfl | rfl | rfl <;> rfl

/-- The part after the point is read after the part before it. -/
theorem run_fraction {part : NumberPart} {read : NumberText} (isWhole : part ∈ [.zero, .whole])
    (none : read.fraction = none) {fraction : Option (List Char)}
    (proper : ∀ digits ∈ fraction, AreDigits digits) (rest : List Char) :
    run (numeral part read) (fractionCharacters fraction ++ rest) =
      run (numeral (if fraction.isSome then .fraction else part) { read with fraction }) rest := by
  cases fraction with
  | none => cases read; cases none; rfl
  | some digits =>
    obtain ⟨nonempty, areDigits⟩ := proper digits rfl
    obtain ⟨digit, more, rfl⟩ := List.exists_cons_of_ne_nil nonempty
    obtain ⟨isDigit, moreDigits⟩ := List.forall_mem_cons.1 areDigits
    have point : extend part read '.' = some (.point, read) := by
      simp only [List.mem_cons, List.not_mem_nil, or_false] at isWhole
      rcases isWhole with rfl | rfl <;> rfl
    have first : extend .point read digit = some (.fraction, addFraction read digit) := by
      simp [extend, isDigit]
    rw [fractionCharacters, List.cons_append, List.cons_append, run_extend point, run_extend first,
      run_digits extend_fraction moreDigits, ← List.foldl_cons, foldl_addFraction nonempty, none]
    rfl

/-- The power of ten is read after the digits. -/
theorem run_power {part : NumberPart} {read : NumberText}
    (isDigits : part ∈ [.zero, .whole, .fraction]) (none : read.power = none)
    {power : Option (Bool × List Char)} (proper : ∀ given ∈ power, AreDigits given.2)
    (rest : List Char) :
    run (numeral part read) (powerCharacters power ++ rest) =
      run (numeral (if power.isSome then .powerDigits else part) { read with power }) rest := by
  cases power with
  | none => cases read; cases none; rfl
  | some given =>
    obtain ⟨negative, digits⟩ := given
    obtain ⟨nonempty, areDigits⟩ := proper _ rfl
    obtain ⟨digit, more, rfl⟩ := List.exists_cons_of_ne_nil nonempty
    obtain ⟨isDigit, moreDigits⟩ := List.forall_mem_cons.1 areDigits
    have letter : extend part read 'e' = some (.power, { read with power := some (false, []) }) := by
      simp only [List.mem_cons, List.not_mem_nil, or_false] at isDigits
      rcases isDigits with rfl | rfl | rfl <;> rfl
    have sign : extend .power { read with power := some (false, []) } (if negative then '-' else '+') =
        some (.powerSign, { read with power := some (negative, []) }) := by
      cases negative <;> rfl
    have first (read : NumberText) :
        extend .powerSign read digit = some (.powerDigits, addPower read digit) := by
      simp [extend, isDigit]
    rw [powerCharacters, List.cons_append, List.cons_append, List.cons_append, run_extend letter,
      run_extend sign, run_extend (first _), run_digits extend_powerDigits moreDigits,
      ← List.foldl_cons, foldl_addPower]
    rfl

/-- The scanner comes to the last part of a number with all parts read. -/
theorem run_characters {parts : NumberText} (proper : parts.IsProper) (rest : List Char) :
    run between (parts.characters ++ rest) = run (numeral parts.lastPart parts) rest := by
  obtain ⟨negative, whole, fraction, power⟩ := parts
  obtain ⟨⟨nonempty, areDigits⟩, leading, properFraction, properPower⟩ := proper
  obtain ⟨digit, more, rfl⟩ := List.exists_cons_of_ne_nil nonempty
  obtain ⟨isDigit, moreDigits⟩ := List.forall_mem_cons.1 areDigits
  have wholeRead (rest : List Char) : run between ((if negative then ['-'] else []) ++
      digit :: more ++ rest) = run (numeral (if digit :: more = ['0'] then .zero else .whole)
        ⟨negative, digit :: more, none, none⟩) rest := by
    rw [List.append_assoc, List.cons_append, run_begin negative isDigit]
    by_cases isZero : digit = '0'
    · obtain rfl : more = [] := by simpa [isZero] using leading (congrArg some isZero)
      simp [isZero]
    · rw [if_neg isZero, if_neg (by simp [isZero]), run_digits extend_whole moreDigits,
        foldl_addWhole]
      rfl
  have isWhole : (if digit :: more = ['0'] then NumberPart.zero else .whole) ∈
      [NumberPart.zero, .whole] := by
    split <;> simp
  have isDigits {part : NumberPart} (isWhole : part ∈ [NumberPart.zero, .whole]) :
      (if fraction.isSome then .fraction else part) ∈ [NumberPart.zero, .whole, .fraction] := by
    split
    · simp
    · exact List.mem_append_left [NumberPart.fraction] isWhole
  rw [characters, List.append_assoc, List.append_assoc, wholeRead,
    run_fraction isWhole rfl properFraction, run_power (isDigits isWhole) rfl properPower]
  rfl

end Scan

end PhysicsPrefab.Json
