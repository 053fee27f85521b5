import PhysicsPrefab.Vec3
import PhysicsPrefab.Proofs.Number.Nearest

/-!
# Numerals as doubles

The reading of a numeral is the double nearest to what it says (`isNearest_iff`), or it is infinite
if what the numeral says is out of range (`isFinite_nearest`). Products and quotients are rounded
once (`exists_onGrid_mul`, `exists_onGrid_div`), and a decimal is the product or the quotient of two
numbers that are doubles (`ofScientific_of_small`) or that are taken exactly
(`ofScientific_of_large`).
-/

namespace PhysicsPrefab.Rounding

open Float.Model (Format totalExponent UnpackedFloat)
open Float.Model.UnpackedFloat

section Parts

variable {first second : Nat} (low high : Int)

/-- The parts of a product are rounded to what the product stands for. -/
theorem exists_onGrid_mul (firstPositive : 0 < first) (secondPositive : 0 < second)
    (full : 2 ^ 52 ≤ first * second) :
    ∃ place steps, RoundsTo (first * 2 ^ low * (second * 2 ^ high)) place steps ∧
      UnpackedFloat.mul Format.binary64 (.finite .positive first low firstPositive)
        (.finite .positive second high secondPositive) = onGrid place steps := by
  have isAt : IsAt (first * second) (first * 2 ^ low * (second * 2 ^ high) / 2 ^ (low + high))
      .exact := by
    change _ = _
    rw [zpow_add₀ two_ne_zero]
    push_cast
    field_simp
  refine exists_onGrid isAt ?_
  have := (Nat.le_log2 (by positivity)).2 full
  omega

/-- The remainder of a division says where the quotient lies. -/
theorem isAt_div (dividend : Nat) {divisor : Nat} (positive : 0 < divisor) :
    IsAt (dividend / divisor) (dividend / divisor)
      (accuracyOfFraction (dividend % divisor) divisor) := by
  have parts :
      ((dividend / divisor : Nat) : ℚ) * divisor + (dividend % divisor : Nat) = dividend := by
    exact_mod_cast Nat.div_add_mod' dividend divisor
  have below : dividend % divisor < divisor := Nat.mod_lt _ positive
  have positive : (0 : ℚ) < divisor := by exact_mod_cast positive
  generalize dividend / divisor = whole at parts ⊢
  generalize dividend % divisor = rest at parts below ⊢
  have below : (rest : ℚ) < divisor := by exact_mod_cast below
  rw [← parts, add_div, mul_div_cancel_right₀ _ positive.ne']
  unfold accuracyOfFraction
  split
  · rename_i zero
    simp [IsAt, zero]
  · rename_i notZero
    have proper : (0 : ℚ) < rest := by exact_mod_cast Nat.pos_of_ne_zero notZero
    have above : 0 < (rest : ℚ) / divisor := div_pos proper positive
    have less : (rest : ℚ) / divisor < 1 := (div_lt_one positive).2 below
    rcases lt_trichotomy (2 * rest) divisor with smaller | half | larger
    · rw [Nat.compare_eq_lt.2 smaller]
      have smaller : (2 * rest : ℚ) < divisor := by exact_mod_cast smaller
      have : (rest : ℚ) / divisor < 1 / 2 := by
        rw [div_lt_div_iff₀ positive two_pos]
        linarith
      constructor <;> linarith
    · rw [Nat.compare_eq_eq.2 half]
      have half : (2 * rest : ℚ) = divisor := by exact_mod_cast half
      change _ = _
      rw [← half]
      field_simp
    · rw [Nat.compare_eq_gt.2 larger]
      have larger : (divisor : ℚ) < 2 * rest := by exact_mod_cast larger
      have : 1 / 2 < (rest : ℚ) / divisor := by
        rw [div_lt_div_iff₀ two_pos positive]
        linarith
      constructor <;> linarith

/-- A quotient has 53 bits if so many are shifted in. -/
theorem full_quotient {shift : Nat} (firstPositive : 0 < first) (secondPositive : 0 < second)
    (enough : second.log2 + 53 ≤ first.log2 + shift) : 2 ^ 52 ≤ first <<< shift / second := by
  rw [Nat.le_div_iff_mul_le secondPositive, Nat.shiftLeft_eq]
  calc 2 ^ 52 * second ≤ 2 ^ 52 * 2 ^ (second.log2 + 1) :=
        Nat.mul_le_mul_left _ Nat.lt_log2_self.le
    _ = 2 ^ (second.log2 + 53) := by rw [← Nat.pow_add, Nat.add_comm 52]
    _ ≤ 2 ^ (first.log2 + shift) := Nat.pow_le_pow_right (by decide) enough
    _ = 2 ^ first.log2 * 2 ^ shift := Nat.pow_add _ _ _
    _ ≤ first * 2 ^ shift := Nat.mul_le_mul_right _ (Nat.log2_self_le firstPositive.ne')

/-- The parts of a quotient are rounded to what the quotient stands for. -/
theorem exists_onGrid_div (firstPositive : 0 < first) (secondPositive : 0 < second) :
    ∃ place steps, RoundsTo (first * 2 ^ low / (second * 2 ^ high)) place steps ∧
      UnpackedFloat.div Format.binary64 (.finite .positive first low firstPositive)
        (.finite .positive second high secondPositive) = onGrid place steps := by
  have target : Format.binary64.targetExponent
      (totalExponent first low - totalExponent second high) =
        max (first.log2 + low - (second.log2 + high) - 53) (-1074) := by
    simp only [Format.targetExponent, totalExponent, Format.mantissaBits, Format.minExponent]
    omega
  obtain ⟨exponent, isExponent⟩ : ∃ exponent, exponent = min (low - high)
    (max (first.log2 + low - (second.log2 + high) - 53) (-1074)) := ⟨_, rfl⟩
  obtain ⟨shift, isShift⟩ : ∃ shift : Nat, low - high = exponent + shift :=
    ⟨(low - high - exponent).toNat, by omega⟩
  have quotient : UnpackedFloat.div Format.binary64 (.finite .positive first low firstPositive)
      (.finite .positive second high secondPositive) =
        roundWithAccuracy Format.binary64 .positive (first <<< shift / second) exponent
          (accuracyOfFraction (first <<< shift % second) second) := by
    change roundWithAccuracy Format.binary64 .positive
      (divCore Format.binary64 first low second high).1
      (divCore Format.binary64 first low second high).2.1
      (divCore Format.binary64 first low second high).2.2 = _
    simp only [divCore, target, ← isExponent]
    rw [show (low - high - exponent).toNat = shift by omega]
  rw [quotient]
  have scaled : (first * 2 ^ low / (second * 2 ^ high) : ℚ) / 2 ^ exponent =
      (first <<< shift : Nat) / second := by
    have moved : (2 : ℚ) ^ low = 2 ^ high * 2 ^ exponent * 2 ^ shift := by
      rw [← zpow_natCast, ← zpow_add₀ two_ne_zero, ← zpow_add₀ two_ne_zero]
      congr 1
      omega
    rw [moved, Nat.shiftLeft_eq]
    push_cast
    field_simp
  refine exists_onGrid ?_ ?_
  · rw [scaled]
    exact isAt_div _ secondPositive
  · by_cases lowest : exponent ≤ -1074
    · omega
    · have full := full_quotient firstPositive secondPositive
        (by omega : second.log2 + 53 ≤ first.log2 + shift)
      have := (Nat.le_log2 (by omega)).2 full
      omega

end Parts

/-- A double that stands for a natural number, and uses all bits of its significand. -/
def StandsFor (number : Float) (value : Nat) : Prop :=
  ∃ significand exponent positive,
    number.toModel.unpack = .finite .positive significand exponent positive ∧
    2 ^ 52 ≤ significand ∧ (significand : ℚ) * 2 ^ exponent = value

/-- A significand of 53 bits is not changed by rounding. -/
theorem round_of_full {significand : Nat} {exponent : Int} (full : 2 ^ 52 ≤ significand)
    (fits : significand < 2 ^ 53) (low : -1074 ≤ exponent) (positive : 0 < significand) :
    roundWithAccuracy Format.binary64 .positive significand exponent .exact =
      .finite .positive significand exponent positive := by
  have width : significand.log2 = 52 + 0 := (Nat.log2_eq_iff positive.ne').2 ⟨full, fits⟩
  have first := shiftToTargetExponent_eq width low
  rw [Nat.cast_zero, add_zero] at first
  exact roundWithAccuracy_eq first first rfl positive

/-- Natural numbers of at most 53 bits are doubles. -/
theorem standsFor_toFloat (value : UInt64) (positive : 0 < value.toNat)
    (fits : value.toNat < 2 ^ 53) : StandsFor value.toFloat value.toNat := by
  have width : value.toNat.log2 ≤ 52 := Nat.lt_succ_iff.1 ((Nat.log2_lt positive.ne').2 fits)
  have full := full_shiftLeft positive
  have rounded := ofUInt64_eq positive
  obtain ⟨shift, isShift⟩ : ∃ shift, 52 - value.toNat.log2 = shift := ⟨_, rfl⟩
  rw [isShift] at full rounded
  have most : value.toNat <<< shift < 2 ^ 53 := by
    rw [Nat.shiftLeft_eq]
    calc value.toNat * 2 ^ shift < 2 ^ (value.toNat.log2 + 1) * 2 ^ shift :=
          Nat.mul_lt_mul_of_pos_right Nat.lt_log2_self (Nat.two_pow_pos _)
      _ = 2 ^ 53 := by rw [← Nat.pow_add]; congr 1; omega
  have proper : 0 < value.toNat <<< shift := by omega
  rw [round_of_full full most (by omega) proper] at rounded
  refine ⟨_, (-shift : Int), proper, ?_, full, ?_⟩
  · change (Float.Model.pack (UnpackedFloat.ofUInt64 Format.binary64 value)).unpack = _
    rw [rounded]
    exact unpack_pack proper ⟨most, by omega, by omega, .inr full⟩
  · rw [Nat.shiftLeft_eq, zpow_neg, zpow_natCast]
    push_cast
    field_simp

/-- Whether a double is a power of ten, checked on its parts. -/
def isPowerOfTen (number : Float) (place : Nat) : Bool :=
  match number.toModel.unpack with
  | .finite .positive significand exponent _ => 2 ^ 52 ≤ significand &&
      significand * 2 ^ exponent.toNat = 10 ^ place * 2 ^ (-exponent).toNat
  | _ => false

/-- The powers of ten in the table are doubles. -/
theorem standsFor_powerOfTen (place : Nat)
    (inTable : place < Float.exactlyRepresentablePowersOfTen.size) :
    StandsFor Float.exactlyRepresentablePowersOfTen[place] (10 ^ place) := by
  have all : ∀ place < 23, ∀ number ∈ Float.exactlyRepresentablePowersOfTen[place]?,
      isPowerOfTen number place = true := by decide +kernel
  have own := all place inTable _ (Array.getElem?_eq_getElem inTable)
  unfold isPowerOfTen at own
  split at own
  case h_1 significand exponent positive unpacked =>
    simp only [Bool.and_eq_true, decide_eq_true_eq] at own
    refine ⟨significand, exponent, positive, unpacked, own.1, ?_⟩
    have same : (significand : ℚ) * 2 ^ exponent.toNat = 10 ^ place * 2 ^ (-exponent).toNat := by
      exact_mod_cast own.2
    have split : (2 : ℚ) ^ exponent = 2 ^ exponent.toNat / 2 ^ (-exponent).toNat := by
      rw [← zpow_natCast, ← zpow_natCast, ← zpow_sub₀ two_ne_zero, Int.toNat_sub_toNat_neg]
    rw [split, ← mul_div_assoc, same]
    push_cast
    field_simp
  case h_2 => contradiction

section Decimals

variable {left right : Float} {first second : Nat}

/-- The product of doubles that stand for natural numbers is rounded once. -/
theorem StandsFor.mul (isLeft : StandsFor left first) (isRight : StandsFor right second) :
    ∃ place steps, RoundsTo (first * second) place steps ∧
      left * right = roundedTo place steps := by
  obtain ⟨m₁, e₁, positive₁, unpacked₁, full₁, worth₁⟩ := isLeft
  obtain ⟨m₂, e₂, positive₂, unpacked₂, full₂, worth₂⟩ := isRight
  obtain ⟨place, steps, rounds, rounded⟩ := exists_onGrid_mul e₁ e₂ positive₁
    positive₂ (full₁.trans (Nat.le_mul_of_pos_right _ positive₂))
  rw [worth₁, worth₂] at rounds
  refine ⟨place, steps, rounds, ?_⟩
  change Float.ofModel (.pack (UnpackedFloat.mul Format.binary64 left.toModel.unpack
    right.toModel.unpack)) = _
  rw [unpacked₁, unpacked₂, rounded]
  rfl

/-- The quotient of doubles that stand for natural numbers is rounded once. -/
theorem StandsFor.div (isLeft : StandsFor left first) (isRight : StandsFor right second) :
    ∃ place steps, RoundsTo (first / second) place steps ∧
      left / right = roundedTo place steps := by
  obtain ⟨m₁, e₁, positive₁, unpacked₁, -, worth₁⟩ := isLeft
  obtain ⟨m₂, e₂, positive₂, unpacked₂, -, worth₂⟩ := isRight
  obtain ⟨place, steps, rounds, rounded⟩ := exists_onGrid_div e₁ e₂ positive₁
    positive₂
  rw [worth₁, worth₂] at rounds
  refine ⟨place, steps, rounds, ?_⟩
  change Float.ofModel (.pack (UnpackedFloat.div Format.binary64 left.toModel.unpack
    right.toModel.unpack)) = _
  rw [unpacked₁, unpacked₂, rounded]
  rfl

end Decimals

/-- A decimal whose last digit is not behind the point is a product. -/
theorem decimal_of_nonneg (coefficient : Nat) {place : Int} (isNat : 0 ≤ place) :
    (coefficient * 10 ^ place : ℚ) = coefficient * (10 ^ place.toNat : Nat) := by
  obtain ⟨digits, rfl⟩ := Int.eq_ofNat_of_zero_le isNat
  rw [zpow_natCast, Int.toNat_natCast]
  push_cast
  rfl

/-- A decimal whose last digit is behind the point is a quotient. -/
theorem decimal_of_neg (coefficient : Nat) {place : Int} (negative : place < 0) :
    (coefficient * 10 ^ place : ℚ) = coefficient / (10 ^ (-place).toNat : Nat) := by
  obtain ⟨digits, isDigits⟩ := Int.eq_ofNat_of_zero_le (neg_nonneg.2 negative.le)
  rw [isDigits, Int.toNat_natCast, ← neg_neg place, isDigits, zpow_neg, zpow_natCast]
  push_cast
  rw [div_eq_mul_inv]

/-- A decimal of few digits and a small power of ten is a product or a quotient of two doubles. -/
theorem ofScientific_of_small {coefficient : Nat} (positive : 0 < coefficient)
    (few : coefficient < 2 ^ 53) {place : Int} (small : place.natAbs ≤ 22) :
    ∃ grid steps, RoundsTo (coefficient * 10 ^ place) grid steps ∧
      Float.ofScientific coefficient (place < 0) place.natAbs = roundedTo grid steps := by
  have word : coefficient.toUInt64.toNat = coefficient :=
    Nat.mod_eq_of_lt (few.trans (by decide))
  have isCoefficient := standsFor_toFloat coefficient.toUInt64 (by omega) (by omega)
  have inTable : place.natAbs < Float.exactlyRepresentablePowersOfTen.size :=
    Nat.lt_succ_iff.2 small
  have isPower := standsFor_powerOfTen place.natAbs inTable
  rw [word] at isCoefficient
  by_cases negative : place < 0
  · have quotient : Float.ofScientific coefficient (place < 0) place.natAbs =
        coefficient.toUInt64.toFloat / Float.exactlyRepresentablePowersOfTen[place.natAbs] := by
      rw [Float.ofScientific, dif_pos ⟨few, small⟩]
      exact if_pos (decide_eq_true negative)
    rw [quotient, decimal_of_neg coefficient negative, show (-place).toNat = place.natAbs by omega]
    exact isCoefficient.div isPower
  · have product : Float.ofScientific coefficient (place < 0) place.natAbs =
        coefficient.toUInt64.toFloat * Float.exactlyRepresentablePowersOfTen[place.natAbs] := by
      rw [Float.ofScientific, dif_pos ⟨few, small⟩]
      exact if_neg (by simpa using negative)
    rw [product, decimal_of_nonneg coefficient (not_lt.1 negative),
      show place.toNat = place.natAbs by omega]
    exact isCoefficient.mul isPower

/-- A decimal of many digits or a large power of ten is taken exactly and rounded once. -/
theorem ofScientific_of_large {coefficient : Nat} (positive : 0 < coefficient) {place : Int}
    (large : ¬(coefficient < 2 ^ 53 ∧ place.natAbs ≤ 22))
    (least : -(2048 + coefficient.log2) ≤ place) (most : place ≤ 2048) :
    ∃ grid steps, RoundsTo (coefficient * 10 ^ place) grid steps ∧
      Float.ofScientific coefficient (place < 0) place.natAbs = roundedTo grid steps := by
  have signed : (if decide (place < 0) = true then Int.negOfNat place.natAbs
      else Int.ofNat place.natAbs) = place := by
    by_cases negative : place < 0
    · rw [if_pos (decide_eq_true negative), Int.negOfNat_eq]
      exact (Int.eq_neg_natAbs_of_nonpos negative.le).symm
    · rw [if_neg (by simpa using negative)]
      exact Int.natAbs_of_nonneg (not_lt.1 negative)
  have exact : Float.ofScientific coefficient (place < 0) place.natAbs =
      .ofModel (.pack (UnpackedFloat.ofScientific Format.binary64 coefficient place)) := by
    rw [Float.ofScientific, dif_neg large]
    dsimp only
    rw [signed]
    rfl
  have notTooLarge : ¬place > 2 ^ Format.binary64.exponentBits := by
    change ¬place > 2 ^ 11
    omega
  have notTooSmall : ¬place < -(2 ^ Format.binary64.exponentBits + coefficient.log2) := by
    change ¬place < -(2 ^ 11 + coefficient.log2)
    omega
  rw [exact, UnpackedFloat.ofScientific, dif_neg positive.ne', if_neg notTooLarge,
    if_neg notTooSmall]
  split
  · rename_i isNat
    have shifted : coefficient <<< 53 = coefficient * 2 ^ 53 := Nat.shiftLeft_eq _ _
    have full : 2 ^ 52 ≤ coefficient <<< 53 * 10 ^ place.toNat := by
      have : 0 < coefficient * 10 ^ place.toNat := by positivity
      rw [shifted, Nat.mul_right_comm]
      omega
    obtain ⟨grid, steps, rounds, rounded⟩ := exists_onGrid_mul (-53) 0
      (by omega : 0 < coefficient <<< 53) (by positivity : 0 < 10 ^ place.toNat) full
    have cancel : (2 : ℚ) ^ 53 * 2 ^ (-53 : Int) = 1 := by norm_num
    have same : (coefficient <<< 53 : Nat) * (2 : ℚ) ^ (-53 : Int) *
        ((10 ^ place.toNat : Nat) * 2 ^ (0 : Int)) = coefficient * 10 ^ place := by
      rw [decimal_of_nonneg coefficient isNat, shifted, Nat.cast_mul, mul_assoc (coefficient : ℚ),
        Nat.cast_pow 2, Nat.cast_ofNat, cancel, zpow_zero, mul_one, mul_one]
    rw [same] at rounds
    exact ⟨grid, steps, rounds, congrArg (fun parts => Float.ofModel (.pack parts)) rounded⟩
  · rename_i negative
    obtain ⟨grid, steps, rounds, rounded⟩ := exists_onGrid_div 0 0 positive
      (by positivity : 0 < 10 ^ (-place).toNat)
    have same : (coefficient : ℚ) * 2 ^ (0 : Int) / ((10 ^ (-place).toNat : Nat) * 2 ^ (0 : Int)) =
        coefficient * 10 ^ place := by
      rw [decimal_of_neg coefficient (not_le.1 negative), zpow_zero, mul_one, mul_one]
    rw [same] at rounds
    exact ⟨grid, steps, rounds, congrArg (fun parts => Float.ofModel (.pack parts)) rounded⟩

/-- A number below half of the least double is rounded to zero. -/
theorem roundsTo_zero {value : ℚ} (nonneg : 0 ≤ value) (small : value < 2 ^ (-1075 : Int)) :
    RoundsTo value (-1074) 0 := by
  obtain ⟨unit, isUnit⟩ : ∃ unit : ℚ, unit = 2 ^ (-1074 : Int) := ⟨_, rfl⟩
  have half : (2 : ℚ) ^ (-1075 : Int) = unit / 2 := by
    rw [isUnit, div_eq_mul_inv, ← zpow_sub_one₀ two_ne_zero]
    rfl
  have proper : 0 < unit := isUnit ▸ by positivity
  rw [half] at small
  refine ⟨nonneg, le_rfl, .inl rfl, ?_, .of_lt ?_⟩
  · rw [← isUnit]
    linarith
  · rw [← isUnit, Nat.cast_zero, zero_sub, abs_neg, abs_of_nonneg (by positivity),
      div_lt_div_iff₀ proper two_pos]
    linarith

/-- The digits of a natural number say between which powers of ten a decimal lies. -/
theorem digits_bounds {coefficient : Nat} (positive : 0 < coefficient) {place leading : Int}
    (isLeading : place + (Nat.toDigits 10 coefficient).length = leading) :
    (10 : ℚ) ^ (leading - 1) ≤ coefficient * 10 ^ place ∧
      (coefficient : ℚ) * 10 ^ place < 10 ^ leading := by
  obtain ⟨digits, isDigits⟩ : ∃ digits, (Nat.toDigits 10 coefficient).length = digits := ⟨_, rfl⟩
  have proper : 0 < digits := isDigits ▸ Nat.length_toDigits_pos
  have below : coefficient < 10 ^ digits :=
    (Nat.length_toDigits_le_iff (by decide) proper).1 isDigits.le
  have above : 10 ^ (digits - 1) ≤ coefficient := by
    rcases Nat.eq_zero_or_pos (digits - 1) with one | more
    · rw [one]
      exact positive
    · by_contra less
      have := (Nat.length_toDigits_le_iff (by decide) more).2 (not_le.1 less)
      omega
  have split (count : Nat) : (10 : ℚ) ^ (count + place) = (10 ^ count : Nat) * 10 ^ place := by
    rw [zpow_add₀ (by norm_num), zpow_natCast, Nat.cast_pow, Nat.cast_ofNat]
  constructor
  · rw [show leading - 1 = (digits - 1 : Nat) + place by omega, split]
    gcongr
  · rw [show leading = digits + place by omega, split]
    gcongr

/-- A power of ten has at least three bits for each of its zeros. -/
theorem two_pow_le_ten_pow (count : Nat) : (2 : ℚ) ^ (3 * count) ≤ 10 ^ count := by
  rw [pow_mul]
  gcongr
  norm_num

/-- The reading of a numeral is what it says, rounded once, or infinite if that is too large. -/
theorem nearest_cases (coefficient : Nat) (place : Int) :
    (overflow ≤ coefficient * 10 ^ place ∧
      (Numeral.nearest coefficient place).isFinite = false) ∨
    ∃ grid steps, RoundsTo (coefficient * 10 ^ place) grid steps ∧
      Numeral.nearest coefficient place = roundedTo grid steps := by
  by_cases zero : coefficient = 0
  · refine .inr ⟨-1074, 0, ?_, ?_⟩
    · rw [zero, Nat.cast_zero, zero_mul]
      exact roundsTo_zero le_rfl (by positivity)
    · rw [Numeral.nearest, if_pos zero]
      rfl
  · have positive := Nat.pos_of_ne_zero zero
    obtain ⟨leading, isLeading⟩ : ∃ leading,
      place + (Nat.toDigits 10 coefficient).length = leading := ⟨_, rfl⟩
    obtain ⟨above, below⟩ := digits_bounds positive isLeading
    rw [Numeral.nearest, if_neg zero]
    dsimp only
    rw [isLeading]
    split
    · rename_i large
      refine .inl ⟨le_trans ?_ above, by decide +kernel⟩
      calc overflow ≤ 2 ^ 1024 := sub_le_self _ (by positivity)
        _ ≤ 2 ^ (3 * 400) := pow_le_pow_right₀ one_le_two (by decide)
        _ ≤ 10 ^ 400 := two_pow_le_ten_pow 400
        _ = 10 ^ (400 : Int) := (zpow_natCast 10 400).symm
        _ ≤ 10 ^ (leading - 1) := zpow_le_zpow_right₀ (by norm_num) (by omega)
    · split
      · rename_i small
        refine .inr ⟨-1074, 0, roundsTo_zero (by positivity) (below.trans_le ?_), rfl⟩
        calc (10 : ℚ) ^ leading ≤ 10 ^ (-401 : Int) :=
              zpow_le_zpow_right₀ (by norm_num) (by omega)
          _ = (10 ^ 401)⁻¹ := by rw [zpow_neg]; exact congrArg _ (zpow_natCast 10 401)
          _ ≤ (2 ^ (3 * 401))⁻¹ := inv_anti₀ (by positivity) (two_pow_le_ten_pow 401)
          _ = 2 ^ (-1203 : Int) := by rw [zpow_neg]; exact congrArg _ (zpow_natCast 2 1203).symm
          _ ≤ 2 ^ (-1075 : Int) := zpow_le_zpow_right₀ one_le_two (by decide)
      · have width : (Nat.toDigits 10 coefficient).length ≤ coefficient.log2 + 1 :=
          (Nat.length_toDigits_le_iff (by decide) (Nat.succ_pos _)).2
            (Nat.lt_log2_self.trans_le (Nat.pow_le_pow_left (by decide) _))
        by_cases large : coefficient < 2 ^ 53 ∧ place.natAbs ≤ 22
        · exact .inr (ofScientific_of_small positive large.1 large.2)
        · exact .inr (ofScientific_of_large positive large (by omega) (by omega))

/-- The reading of a numeral is finite exactly if what it says is in range. -/
theorem isFinite_nearest (coefficient : Nat) (place : Int) :
    (Numeral.nearest coefficient place).isFinite = true ↔
      (coefficient * 10 ^ place : ℚ) < overflow := by
  rcases nearest_cases coefficient place with ⟨large, infinite⟩ | ⟨grid, steps, rounds, same⟩
  · exact iff_of_false (infinite ▸ Bool.false_ne_true) large.not_gt
  · rw [same, rounds.isFinite_iff]

/-- The reading of a numeral is the one double that is nearest to what it says. -/
theorem isNearest_iff {coefficient : Nat} {place : Int} {number : Float} :
    IsNearest (coefficient * 10 ^ place) number ↔
      number = Numeral.nearest coefficient place ∧ number.isFinite = true := by
  constructor
  · intro nearest
    refine ⟨?_, nearest.isFinite⟩
    rcases nearest_cases coefficient place with ⟨large, -⟩ | ⟨grid, steps, rounds, same⟩
    · exact absurd nearest.inRange large.not_gt
    · rw [same]
      exact rounds.eq_of_isNearest nearest
  · rintro ⟨rfl, isFinite⟩
    have inRange := (isFinite_nearest coefficient place).1 isFinite
    rcases nearest_cases coefficient place with ⟨large, -⟩ | ⟨grid, steps, rounds, same⟩
    · exact absurd inRange large.not_gt
    · rw [same]
      exact rounds.isNearest inRange

/-- The negative of a double is finite exactly if the double is. -/
theorem isFinite_neg_iff {number : Float} :
    (-number).isFinite = true ↔ number.isFinite = true := by
  refine ⟨fun isFinite => ?_, isFinite_neg⟩
  change (Float.Model.pack number.toModel.unpack.neg).unpack.isFinite = true at isFinite
  change number.toModel.unpack.isFinite = true
  cases unpacked : number.toModel.unpack with
  | zero => rfl
  | finite => rfl
  | infinity sign =>
    rw [unpacked] at isFinite
    cases sign <;> exact absurd isFinite (by decide +kernel)
  | notANumber =>
    rw [unpacked] at isFinite
    exact absurd isFinite (by decide +kernel)

end PhysicsPrefab.Rounding

namespace PhysicsPrefab

open Rounding (IsNearest overflow)

/-- A double with a minus sign if there is one. -/
def signed (negative : Bool) (magnitude : Float) : Float :=
  if negative then -magnitude else magnitude

namespace Numeral

/-- The number that a numeral says without its sign. -/
def magnitude (numeral : Numeral) : ℚ :=
  (Nat.ofDigitChars 10 numeral.whole 0 +
    Nat.ofDigitChars 10 numeral.fraction 0 / 10 ^ numeral.fraction.length) * 10 ^ numeral.exponent

/-- The digits after the point may be counted with those before it. -/
theorem magnitude_eq (numeral : Numeral) :
    numeral.magnitude = numeral.coefficient * 10 ^ numeral.lastPlace := by
  have joined : numeral.coefficient = 10 ^ numeral.fraction.length *
      Nat.ofDigitChars 10 numeral.whole 0 + Nat.ofDigitChars 10 numeral.fraction 0 := by
    rw [coefficient, Nat.ofDigitChars_append, Nat.ofDigitChars_eq_ofDigitChars_zero]
  rw [joined, magnitude, lastPlace, zpow_sub₀ (by norm_num), zpow_natCast]
  push_cast
  field_simp

/-- The reading of a numeral is the double nearest to what it says, with its sign, and there is none
if that is out of range. -/
theorem ofNumeral_eq_some {numeral : Numeral} {value : Float} :
    Scalar.ofNumeral numeral = some value ↔
      ∃ magnitude, IsNearest numeral.magnitude magnitude ∧
        value = signed numeral.negative magnitude := by
  have reading : numeral.toFloat =
      signed numeral.negative (nearest numeral.coefficient numeral.lastPlace) := rfl
  have isFinite : numeral.toFloat.isFinite = true ↔
      (nearest numeral.coefficient numeral.lastPlace).isFinite = true := by
    rw [reading]
    unfold signed
    split
    · exact Rounding.isFinite_neg_iff
    · exact Iff.rfl
  simp only [magnitude_eq, Rounding.isNearest_iff]
  change (if numeral.toFloat.isFinite then some numeral.toFloat else none) = some value ↔ _
  constructor
  · intro read
    split at read
    · rename_i proper
      exact ⟨_, ⟨rfl, isFinite.1 proper⟩, (Option.some.inj read).symm⟩
    · contradiction
  · rintro ⟨magnitude, ⟨rfl, proper⟩, rfl⟩
    rw [if_pos (isFinite.2 proper), reading]

/-- A numeral has a reading exactly if what it says is in range. -/
theorem isSome_ofNumeral {numeral : Numeral} :
    (Scalar.ofNumeral numeral : Option Float).isSome = true ↔ numeral.magnitude < overflow := by
  rw [Option.isSome_iff_exists]
  simp only [ofNumeral_eq_some]
  constructor
  · rintro ⟨-, magnitude, nearest, -⟩
    exact nearest.inRange
  · intro inRange
    rw [magnitude_eq] at inRange ⊢
    have isFinite := (Rounding.isFinite_nearest _ _).2 inRange
    exact ⟨_, _, Rounding.isNearest_iff.2 ⟨rfl, isFinite⟩, rfl⟩

end Numeral

end PhysicsPrefab
