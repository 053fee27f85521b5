import PhysicsPrefab.Proofs.Json.Numerals
import PhysicsPrefab.Proofs.Number.Decimals
import PhysicsPrefab.Proofs.Number.Rounding

/-!
# Written numbers can be read

Every number that is written can be read again, as a number or, if it is a double that is not
finite, as `null` (`run_render`). For the largest doubles this is not plain to see, as the reading
rounds three times on its way to a double; the six largest are tried one by one.
-/

namespace PhysicsPrefab

open Json

/-- The two ways to tell digits agree. -/
theorem isDecimalDigit_of_isDigit {character : Char} (digit : character.isDigit = true) :
    isDecimalDigit character = true := by
  simpa [isDecimalDigit, Char.isDigit, Char.le_def] using digit

/-- The digits of a natural number are digits. -/
theorem areDigits_toDigits (number : Nat) : NumberText.AreDigits (Nat.toDigits 10 number) :=
  ⟨Nat.toDigits_ne_nil, fun _ member => isDecimalDigit_of_isDigit
    (Nat.isDigit_of_mem_toDigits (by decide) (by decide) member)⟩

/-- The digits of a positive number do not begin with a zero. -/
theorem head?_toDigits_ne_zero {number : Nat} (positive : 0 < number) :
    (Nat.toDigits 10 number).head? ≠ some '0' := by
  induction number using Nat.strong_induction_on with
  | _ number ih =>
    rw [Nat.toDigits_eq_if (by decide)]
    split
    · have known : ∀ digit < 10, 0 < digit → Nat.digitChar digit ≠ '0' := by decide
      simpa using known number ‹_› positive
    · obtain ⟨digit, more, isCons⟩ := List.exists_cons_of_ne_nil
        (Nat.toDigits_ne_nil : Nat.toDigits 10 (number / 10) ≠ [])
      have earlier := ih (number / 10) (by omega) (by omega)
      rw [isCons] at earlier ⊢
      exact earlier

/-- The value of digits is less than a power of ten. -/
theorem ofDigitChars_lt {digits : List Char}
    (areDigits : ∀ character ∈ digits, isDecimalDigit character = true) :
    Nat.ofDigitChars 10 digits 0 < 10 ^ digits.length := by
  induction digits with
  | nil => simp
  | cons digit more ih =>
    obtain ⟨isDigit, moreDigits⟩ := List.forall_mem_cons.1 areDigits
    have small : digit.toNat - '0'.toNat ≤ 9 := by
      have member := mem_digits_of_isDecimalDigit isDigit
      simp only [List.mem_cons, List.not_mem_nil, or_false] at member
      rcases member with rfl | rfl | rfl | rfl | rfl | rfl | rfl | rfl | rfl | rfl <;> decide
    have rest := ih moreDigits
    rw [Nat.ofDigitChars_cons, Nat.mul_zero, Nat.zero_add, Nat.ofDigitChars_eq_ofDigitChars_zero,
      List.length_cons, Nat.pow_succ]
    have := Nat.mul_le_mul_left (10 ^ more.length) small
    omega

namespace NumberStyle

/-- The parts of digits with a point after `whole` of them. -/
def pointParts (negative : Bool) (digits : List Char) (whole : Int) : NumberText :=
  if whole ≤ 0 then
    ⟨negative, ['0'], some (List.replicate (-whole).toNat '0' ++ digits), none⟩
  else if digits.length ≤ whole.toNat then
    ⟨negative, digits ++ List.replicate (whole.toNat - digits.length) '0', some ['0'], none⟩
  else ⟨negative, digits.take whole.toNat, some (digits.drop whole.toNat), none⟩

/-- The parts of digits with a power of ten. -/
def scientificParts (negative : Bool) (digits : List Char) (exponent : Int) : NumberText :=
  ⟨negative, digits.take 1, if digits.length ≤ 1 then none else some (digits.drop 1),
    some (exponent < 0, Nat.toDigits 10 exponent.natAbs)⟩

/-- The parts of a decimal in a data file. -/
def parts (negative : Bool) (decimal : Decimal) : NumberText :=
  let digits := Nat.toDigits 10 decimal.coefficient
  let leading := decimal.exponent + digits.length - 1
  if data.positional leading then pointParts negative digits (leading + 1)
  else scientificParts negative digits leading

/-- A decimal in a data file is written as its parts say. -/
theorem characters_parts (negative : Bool) (decimal : Decimal) :
    (parts negative decimal).characters =
      (if negative then ['-'] else []) ++ data.ofDecimal decimal := by
  obtain ⟨digit, more, isCons⟩ := List.exists_cons_of_ne_nil
    (areDigits_toDigits decimal.coefficient).nonempty
  simp only [parts, ofDecimal]
  split
  · simp only [pointParts, placePoint]
    split
    · simp [NumberText.characters, NumberText.fractionCharacters, NumberText.powerCharacters]
    · split
      · simp [NumberText.characters, NumberText.fractionCharacters, NumberText.powerCharacters, data]
      · simp [NumberText.characters, NumberText.fractionCharacters, NumberText.powerCharacters]
  · rw [isCons]
    simp only [scientificParts, scientific]
    cases more <;> simp [NumberText.characters, NumberText.fractionCharacters,
      NumberText.powerCharacters]

/-- Digits with a point are as a data file has them, if no digit follows a leading zero. -/
theorem pointParts_isProper (negative : Bool) {digits : List Char} {whole : Int}
    (areDigits : NumberText.AreDigits digits)
    (leading : digits.head? = some '0' → digits = ['0'] ∧ whole ≤ 1) :
    (pointParts negative digits whole).IsProper := by
  obtain ⟨nonempty, allDigits⟩ := areDigits
  have zeros {count : Nat} : ∀ character ∈ List.replicate count '0',
      isDecimalDigit character = true := fun character member =>
    (List.mem_replicate.1 member).2 ▸ rfl
  have zero : NumberText.AreDigits ['0'] :=
    ⟨List.cons_ne_nil _ _, List.forall_mem_singleton.2 rfl⟩
  rw [pointParts]
  split
  case isTrue =>
    refine ⟨zero, fun _ => rfl, ?_, nofun⟩
    rintro _ ⟨⟩
    exact ⟨List.append_ne_nil_of_right_ne_nil _ nonempty,
      List.forall_mem_append.2 ⟨zeros, allDigits⟩⟩
  case isFalse =>
    split
    case isTrue enough =>
      refine ⟨⟨List.append_ne_nil_of_left_ne_nil nonempty _,
        List.forall_mem_append.2 ⟨allDigits, zeros⟩⟩, fun begins => ?_, ?_, nofun⟩
      · obtain ⟨digit, more, rfl⟩ := List.exists_cons_of_ne_nil nonempty
        obtain ⟨same, few⟩ := leading begins
        dsimp only
        rw [same, show whole.toNat - ['0'].length = 0 by simp; omega]
        rfl
      · rintro _ ⟨⟩
        exact zero
    case isFalse notEnough =>
      refine ⟨⟨by simp [nonempty]; omega,
        fun character member => allDigits character (List.mem_of_mem_take member)⟩,
        fun begins => ?_, ?_, nofun⟩
      · dsimp only at begins
        rw [List.head?_take, if_neg (by omega)] at begins
        obtain ⟨rfl, -⟩ := leading begins
        exact absurd (by simp; omega) notEnough
      · rintro _ ⟨⟩
        exact ⟨by simpa using notEnough,
          fun character member => allDigits character (List.mem_of_mem_drop member)⟩

/-- Digits with a power of ten are as a data file has them. -/
theorem scientificParts_isProper (negative : Bool) {digits : List Char} (exponent : Int)
    (areDigits : NumberText.AreDigits digits) :
    (scientificParts negative digits exponent).IsProper := by
  obtain ⟨nonempty, allDigits⟩ := areDigits
  obtain ⟨digit, more, rfl⟩ := List.exists_cons_of_ne_nil nonempty
  obtain ⟨isDigit, moreDigits⟩ := List.forall_mem_cons.1 allDigits
  refine ⟨⟨List.cons_ne_nil _ _, List.forall_mem_singleton.2 isDigit⟩,
    fun begins => congrArg ([·]) (Option.some.inj begins), fun fraction given => ?_, ?_⟩
  · cases more with
    | nil => exact absurd given nofun
    | cons second later =>
      obtain rfl := Option.some.inj given
      exact ⟨List.cons_ne_nil _ _, moreDigits⟩
  · intro power given
    obtain rfl := Option.some.inj given
    exact areDigits_toDigits _

/-- The parts of a decimal are as a data file has them. -/
theorem parts_isProper (negative : Bool) {decimal : Decimal}
    (plain : 0 < decimal.coefficient ∨ decimal = ⟨0, 0⟩) : (parts negative decimal).IsProper := by
  simp only [parts]
  split
  · refine pointParts_isProper negative (areDigits_toDigits _) fun begins => ?_
    rcases plain with positive | rfl
    · exact absurd begins (head?_toDigits_ne_zero positive)
    · exact ⟨rfl, by decide⟩
  · exact scientificParts_isProper negative _ (areDigits_toDigits _)

end NumberStyle

namespace Json.NumberText

/-- The digits that are taken are those in front, and fit in 64 bits. -/
theorem takeDigits_spec (digits : List Char) {significand : Nat} (fits : significand < 2 ^ 64) :
    ∃ taken left, digits = taken ++ left ∧
      takeDigits significand digits = (Nat.ofDigitChars 10 taken significand, left) ∧
      Nat.ofDigitChars 10 taken significand < 2 ^ 64 := by
  induction digits generalizing significand with
  | nil => exact ⟨[], [], rfl, by rw [Nat.ofDigitChars_nil]; rfl, by rwa [Nat.ofDigitChars_nil]⟩
  | cons digit more ih =>
    simp only [takeDigits]
    split
    case isTrue fits =>
      obtain ⟨taken, left, rfl, isTaken, takenFits⟩ := ih fits
      refine ⟨digit :: taken, left, rfl, ?_, ?_⟩
      · rw [isTaken, Nat.ofDigitChars_cons, Nat.mul_comm]
      · rwa [Nat.ofDigitChars_cons, Nat.mul_comm]
    case isFalse =>
      exact ⟨[], digit :: more, rfl, by rw [Nat.ofDigitChars_nil], by rwa [Nat.ofDigitChars_nil]⟩

/-- All digits are taken if they fit in 64 bits. -/
theorem takeDigits_of_lt {digits : List Char} {significand : Nat}
    (fits : Nat.ofDigitChars 10 digits significand < 2 ^ 64) :
    takeDigits significand digits = (Nat.ofDigitChars 10 digits significand, []) := by
  induction digits generalizing significand with
  | nil => rw [Nat.ofDigitChars_nil]; rfl
  | cons digit more ih =>
    rw [Nat.ofDigitChars_cons, Nat.mul_comm] at fits
    have grows : Nat.ofDigitChars 10 more (significand * 10 + (digit.toNat - '0'.toNat)) = _ :=
      Nat.ofDigitChars_eq_ofDigitChars_zero
    have first : significand * 10 + (digit.toNat - '0'.toNat) < UInt64.size := by
      change _ < 2 ^ 64
      have := Nat.le_mul_of_pos_left (significand * 10 + (digit.toNat - '0'.toNat))
        (Nat.pow_pos (n := more.length) (by decide : 0 < 10))
      omega
    simp only [takeDigits, first, ↓reduceIte]
    rw [ih fits, Nat.ofDigitChars_cons, Nat.mul_comm]

/-- Dividing by a power of ten always has a value. -/
theorem isSome_scale_of_neg (value : Float) {place : Int} (negative : place < 0) :
    (scale value place).isSome = true := by
  induction size : (-place).toNat using Nat.strong_induction_on generalizing value place with
  | _ size ih =>
    rw [scale]
    split
    · split
      · rfl
      · exact ih (-(place + 308)).toNat (by omega) _ (by omega) rfl
    · rw [if_neg (by omega), if_neg (by omega)]
      rfl

/-- The double zero is no more than zero after multiplying by a power of ten. -/
theorem isInf_zero_mul {place : Nat} (inRange : place ≤ 308) :
    ((0 : Nat).toUInt64.toFloat * Float.ofScientific 1 false place).isInf = false := by
  obtain ⟨_, _, _, unpacked, -⟩ := Rounding.exists_of_isNear (Rounding.isNear_powerOfTen inRange)
  have zero : (0 : Nat).toUInt64.toFloat.toModel.unpack = .zero .positive := rfl
  change (Float.Model.pack (Float.Model.UnpackedFloat.mul .binary64 _ _)).unpack.isInf = false
  rw [zero, unpacked]
  change (Float.Model.pack (.zero .positive)).unpack.isInf = false
  decide +kernel

/-- Multiplying by a power of ten has a value if there is room for three roundings. -/
theorem isSome_scale {significand : Nat} {place : Int} (fits : significand < 2 ^ 64)
    (room : 0 ≤ place →
      significand * 10 ^ place.toNat * (2 ^ 52 + 1) ^ 3 < 2 ^ 1024 * 2 ^ 156) :
    (scale significand.toUInt64.toFloat place).isSome = true := by
  by_cases negative : place < 0
  · exact isSome_scale_of_neg _ negative
  rw [scale, if_neg (by omega)]
  rcases Nat.eq_zero_or_pos significand with rfl | positive
  · split
    · rfl
    · rw [if_pos (by omega)]
      dsimp only
      rw [isInf_zero_mul (by omega)]
      rfl
  · have near : Rounding.isNear significand.toUInt64.toFloat significand = true := by
      have same : significand.toUInt64.toNat = significand := Nat.mod_eq_of_lt fits
      have near := Rounding.isNear_toFloat (by omega : 0 < significand.toUInt64.toNat)
      rwa [same] at near
    have inRange : place ≤ 308 := by
      by_contra tooHigh
      obtain ⟨most, isMost⟩ : ∃ most : Nat, most = 309 := ⟨_, rfl⟩
      have enough : 10 ^ most * (2 ^ 52 + 1) ^ 3 ≤
          significand * 10 ^ place.toNat * (2 ^ 52 + 1) ^ 3 := by
        refine Nat.mul_le_mul_right _ (Nat.le_trans ?_ (Nat.le_mul_of_pos_left _ positive))
        exact Nat.pow_le_pow_right (by decide) (by omega)
      have tooMuch : 2 ^ 1024 * 2 ^ 156 < 10 ^ most * (2 ^ 52 + 1) ^ 3 := by
        rw [isMost]
        decide +kernel
      exact lt_irrefl _ ((tooMuch.trans_le enough).trans (room (by omega)))
    rw [if_neg (by omega), if_pos (by omega)]
    dsimp only
    rw [Rounding.isInf_mul near (Rounding.isNear_powerOfTen (by omega)) (room (by omega))]
    rfl

/-- The value of a whole number that fits in 64 bits. -/
theorem value?_whole (negative : Bool) {digits : List Char}
    (fits : Nat.ofDigitChars 10 digits 0 < 2 ^ 64) :
    value? ⟨negative, digits, none, none⟩ =
      some (wholeNumber negative (Nat.ofDigitChars 10 digits 0)) := by
  rw [value?, takeDigits_of_lt fits]
  rfl

/-- The value of another number comes down to one multiplication or division. -/
theorem exists_isSome_value? {parts : NumberText}
    (fits : Nat.ofDigitChars 10 parts.whole 0 < 2 ^ 64)
    (notWhole : (parts.fraction.isNone && parts.power.isNone) = false) :
    ∃ taken left, parts.fraction.getD [] = taken ++ left ∧
      Nat.ofDigitChars 10 (parts.whole ++ taken) 0 < 2 ^ 64 ∧
      parts.value?.isSome = (scale (Nat.ofDigitChars 10 (parts.whole ++ taken) 0).toUInt64.toFloat
        (powerValue parts.power - taken.length)).isSome := by
  obtain ⟨taken, left, isFraction, isTaken, takenFits⟩ :=
    takeDigits_spec (parts.fraction.getD []) fits
  rw [← Nat.ofDigitChars_append] at isTaken takenFits
  refine ⟨taken, left, isFraction, takenFits, ?_⟩
  rw [value?, takeDigits_of_lt fits]
  dsimp only
  rw [notWhole, Bool.false_and, if_neg Bool.false_ne_true, isTaken, Option.isSome_map, isFraction]
  congr 2
  simp only [List.length_append, List.length_nil]
  omega

end Json.NumberText

namespace NumberStyle

open NumberText

/-- There are at most as many digits before a point as it says, or one. -/
theorem length_whole_pointParts (negative : Bool) (digits : List Char) (whole : Int) :
    (pointParts negative digits whole).whole.length ≤ max 1 whole.toNat := by
  rw [pointParts]
  split
  · exact le_max_left _ _
  · split
    · rw [List.length_append, List.length_replicate]
      omega
    · rw [List.length_take]
      omega

/-- Digits with a point have a value. -/
theorem isSome_value?_pointParts {negative : Bool} {digits : List Char} {whole : Int}
    (proper : (pointParts negative digits whole).IsProper) (few : whole ≤ 16) :
    (pointParts negative digits whole).value?.isSome = true := by
  have short := length_whole_pointParts negative digits whole
  have fits : Nat.ofDigitChars 10 (pointParts negative digits whole).whole 0 < 2 ^ 64 :=
    calc _ < 10 ^ (pointParts negative digits whole).whole.length := ofDigitChars_lt proper.whole.digit
      _ ≤ 10 ^ 16 := Nat.pow_le_pow_right (by decide) (by omega)
      _ < 2 ^ 64 := by decide
  have given : (pointParts negative digits whole).fraction.isNone = false ∧
      (pointParts negative digits whole).power = none := by
    rw [pointParts]
    split
    · exact ⟨rfl, rfl⟩
    · split <;> exact ⟨rfl, rfl⟩
  obtain ⟨taken, left, -, takenFits, same⟩ := exists_isSome_value? fits (by rw [given.1]; rfl)
  rw [same, given.2]
  refine isSome_scale takenFits fun notNegative => ?_
  have none : ((powerValue .none : Int) - taken.length).toNat = 0 := by
    change ((0 : Int) - taken.length).toNat = 0
    omega
  rw [none, Nat.pow_zero, Nat.mul_one]
  calc _ ≤ 2 ^ 64 * (2 ^ 52 + 1) ^ 3 := Nat.mul_le_mul_right _ takenFits.le
    _ < 2 ^ 1024 * 2 ^ 156 := by decide +kernel

/-- The value of a power of ten that is written. -/
theorem powerValue_toDigits (exponent : Int) :
    powerValue (some (exponent < 0, Nat.toDigits 10 exponent.natAbs)) = exponent := by
  simp only [powerValue, Nat.ofDigitChars_ten_toDigits, decide_eq_true_eq]
  split <;> omega

/-- Digits with a power of ten have a value if they are those of a decimal that a moderate magnitude
reaches. -/
theorem isSome_value?_scientificParts (negative : Bool) {decimal : Decimal} {magnitude : Magnitude}
    (moderate : magnitude.IsModerate) (reaches : magnitude.Reaches decimal) :
    (scientificParts negative (Nat.toDigits 10 decimal.coefficient)
      (decimal.exponent + (Nat.toDigits 10 decimal.coefficient).length - 1)).value?.isSome = true := by
  have value : Nat.ofDigitChars 10 (Nat.toDigits 10 decimal.coefficient) 0 = decimal.coefficient :=
    Nat.ofDigitChars_ten_toDigits
  obtain ⟨nonempty, allDigits⟩ := areDigits_toDigits decimal.coefficient
  generalize Nat.toDigits 10 decimal.coefficient = digits at value nonempty allDigits ⊢
  obtain ⟨digit, more, rfl⟩ := List.exists_cons_of_ne_nil nonempty
  generalize isExponent : decimal.exponent + (digit :: more).length - 1 = exponent
  have fits : Nat.ofDigitChars 10 (scientificParts negative (digit :: more) exponent).whole 0 <
      2 ^ 64 := by
    have first : ∀ character ∈ [digit], isDecimalDigit character = true :=
      List.forall_mem_singleton.2 (allDigits digit List.mem_cons_self)
    exact (ofDigitChars_lt first).trans (by change 10 ^ 1 < 2 ^ 64; decide)
  obtain ⟨taken, left, isMore, takenFits, same⟩ := exists_isSome_value? fits (Bool.and_false _)
  have isMore : more = taken ++ left := by
    rw [← isMore, scientificParts]
    cases more <;> rfl
  rw [same]
  refine isSome_scale takenFits fun notNegative => ?_
  change 0 ≤ powerValue (some (exponent < 0, Nat.toDigits 10 exponent.natAbs)) - taken.length
    at notNegative
  change Nat.ofDigitChars 10 (digit :: taken) 0 * 10 ^ (powerValue (some (exponent < 0,
    Nat.toDigits 10 exponent.natAbs)) - taken.length).toNat * _ < _
  rw [powerValue_toDigits] at notNegative ⊢
  refine reaches.room moderate ⟨left.length, ?_, ?_⟩
  · rw [isMore] at isExponent
    simp only [List.length_cons, List.length_append] at isExponent
    omega
  · have split : Nat.ofDigitChars 10 left (Nat.ofDigitChars 10 (digit :: taken) 0) = _ :=
      Nat.ofDigitChars_eq_ofDigitChars_zero
    rw [← value, isMore, ← List.cons_append, Nat.ofDigitChars_append, split, Nat.mul_comm]
    exact Nat.le_add_right _ _

/-- The shortest decimals of the largest magnitudes have values. -/
theorem isSome_value?_largest (negative : Bool) : ∀ distance < 6,
    (parts negative ((Magnitude.largest distance).shortest .even)).value?.isSome = true := by
  cases negative <;> decide +kernel

/-- The shortest decimal of a finite double has a value. -/
theorem isSome_value?_parts (negative : Bool) {number : Float} (isFinite : number.isFinite = true) :
    (parts negative ((Magnitude.ofBits number.toBits).shortest .even)).value?.isSome = true := by
  rcases Magnitude.ofBits_cases isFinite with moderate | ⟨distance, few, same⟩
  · have proper := parts_isProper negative (Magnitude.shortest_positive (.ofBits number.toBits) .even)
    have reaches := Magnitude.shortest_reaches (.ofBits number.toBits) .even
    generalize Magnitude.shortest (.ofBits number.toBits) .even = decimal at proper reaches ⊢
    simp only [parts] at proper ⊢
    split at proper
    case isTrue positional =>
      rw [if_pos positional]
      refine isSome_value?_pointParts proper ?_
      simp only [data, Bool.and_eq_true, decide_eq_true_eq] at positional
      omega
    case isFalse positional =>
      rw [if_neg positional]
      exact isSome_value?_scientificParts negative moderate reaches
  · rw [same]
    exact isSome_value?_largest negative distance few

end NumberStyle

namespace Json

namespace Number

/-- The parts of a number that is written with digits. -/
def parts? : Number → Option NumberText
  | natural value => some ⟨false, Nat.toDigits 10 value.toNat, none, none⟩
  | negative value => some ⟨true, Nat.toDigits 10 value.toInt.natAbs, none, none⟩
  | double value =>
    if value.isFinite then
      some (NumberStyle.parts (1 <<< 63 ≤ value.toBits.toNat)
        ((Magnitude.ofBits value.toBits).shortest .even))
    else none

/-- A double is finite unless it is not a number or infinite. -/
theorem isFinite_eq (value : Float) : value.isFinite = (!value.isNaN && !value.isInf) := by
  change value.toModel.unpack.isFinite =
    (!value.toModel.unpack.isNaN && !value.toModel.unpack.isInf)
  cases value.toModel.unpack <;> rfl

/-- A number is written as its parts say, and as `null` without them. -/
theorem render_eq (number : Number) :
    number.render = (number.parts?.map NumberText.characters).getD "null".toList := by
  cases number with
  | natural value =>
    simp [render, parts?, NumberText.characters, NumberText.fractionCharacters,
      NumberText.powerCharacters]
  | negative value =>
    simp [render, parts?, NumberText.characters, NumberText.fractionCharacters,
      NumberText.powerCharacters]
  | double value =>
    rw [render, NumberStyle.render, parts?, isFinite_eq]
    cases value.isNaN with
    | true => rfl
    | false =>
      cases value.isInf with
      | true =>
        change (if _ then "null" else "null").toList = _
        rw [ite_self]
        rfl
      | false =>
        simp only [Bool.not_false, Bool.and_self, ↓reduceIte, Option.map_some, Option.getD_some,
          NumberStyle.characters_parts, decide_eq_true_eq, Bool.false_eq_true]
        split <;> rfl

/-- The parts of a number that is written are as a data file has them, and have a value. -/
theorem parts?_spec {number : Number} {parts : NumberText} (given : number.parts? = some parts) :
    parts.IsProper ∧ ∃ value, parts.value? = some value := by
  have whole (negative : Bool) {value : Nat} (fits : value < 2 ^ 64) :
      (NumberText.mk negative (Nat.toDigits 10 value) none none).IsProper ∧
        ∃ read, (NumberText.mk negative (Nat.toDigits 10 value) none none).value? = some read := by
    refine ⟨⟨areDigits_toDigits value, fun begins => ?_, nofun, nofun⟩, _,
      NumberText.value?_whole negative (by rwa [Nat.ofDigitChars_ten_toDigits])⟩
    rcases Nat.eq_zero_or_pos value with rfl | positive
    · rfl
    · exact absurd begins (head?_toDigits_ne_zero positive)
  cases number with
  | natural value =>
    obtain rfl := Option.some.inj given
    exact whole false value.toNat_lt
  | negative value =>
    obtain rfl := Option.some.inj given
    have low := value.le_toInt
    have high := value.toInt_lt
    exact whole true (by omega)
  | double value =>
    rw [parts?] at given
    split at given
    case isTrue isFinite =>
      obtain rfl := Option.some.inj given
      exact ⟨NumberStyle.parts_isProper _ (Magnitude.shortest_positive _ _),
        Option.isSome_iff_exists.1 (NumberStyle.isSome_value?_parts _ isFinite)⟩
    case isFalse => contradiction

/-- The token of the text of a number. -/
def token (number : Number) : Token :=
  match number.parts? with
  | some parts => Scan.numberToken parts.lastPart parts
  | none => .null

/-- The text of a number is that of a number if it has parts. -/
theorem token_of_parts {number : Number} {parts : NumberText}
    (given : number.parts? = some parts) : ∃ value, number.token = .number value := by
  obtain ⟨-, value, isValue⟩ := parts?_spec given
  exact ⟨value, by simp [token, given, Scan.numberToken, NumberText.isComplete_lastPart, isValue]⟩

/-- A written number is a number or `null` when it is read. -/
theorem token_cases (number : Number) :
    number.token = .null ∨ ∃ value, number.token = .number value := by
  cases given : number.parts? with
  | none => exact .inl (by simp [token, given])
  | some parts => exact .inr (token_of_parts given)

/-- A finite double is a number when it is read. -/
theorem token_of_isFinite {value : Float} (isFinite : value.isFinite = true) :
    ∃ read, (double value).token = .number read :=
  token_of_parts (if_pos isFinite)

/-- What may follow a number that is written. -/
def Ends (rest : List Char) : Prop :=
  ∀ character ∈ rest.head?, character ∈ [',', '\n', ']', '\x7d']

/-- A written number is read as one token. -/
theorem run_render (number : Number) {rest : List Char} (ends : Ends rest) :
    Scan.between.run (number.render ++ rest) = number.token :: Scan.between.run rest := by
  rw [render_eq]
  cases given : number.parts? with
  | none =>
    rw [token, given]
    rfl
  | some parts =>
    obtain ⟨value, isValue⟩ := token_of_parts given
    have isToken : Scan.numberToken parts.lastPart parts = .number value := by
      rw [← isValue, token, given]
    rw [Option.map_some, Option.getD_some, Scan.run_characters (parts?_spec given).1, isValue]
    cases rest with
    | nil => rw [Scan.run, Scan.finish, isToken]; rfl
    | cons character more =>
      have stops : Scan.extend parts.lastPart parts character = none ∧
          isDecimalDigit character = false := by
        have follows := ends character rfl
        simp only [List.mem_cons, List.not_mem_nil, or_false] at follows
        rcases follows with rfl | rfl | rfl | rfl <;> cases parts.lastPart <;> exact ⟨rfl, rfl⟩
      simp only [Scan.run, Scan.step, stops.1, stops.2, Bool.and_false, Bool.false_eq_true,
        ↓reduceIte, isToken]
      rfl

end Number

end Json

end PhysicsPrefab
