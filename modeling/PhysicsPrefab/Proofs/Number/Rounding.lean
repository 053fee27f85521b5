import Mathlib

/-!
# Rounding up

How far a double that was rounded can lie above what it stands for. A double is near a natural
number if it is positive, uses all 53 bits of its significand and exceeds the number by no more
than its `2 ^ 52`-th part. Natural numbers of 64 bits and powers of ten are near what they stand for
(`isNear_toFloat`, `isNear_powerOfTen`), and the product of two such doubles is finite if the
product of what they stand for leaves room for three roundings (`isInf_mul`).
-/

namespace PhysicsPrefab.Rounding

open Float.Model (Format totalExponent UnpackedFloat)
open Float.Model.UnpackedFloat

/-- Shifting drops bits of the significand. -/
theorem mantissa_shiftRight (extended : ExtendedMantissa) (shift : Nat) :
    (extended >>> shift).mantissa = extended.mantissa / 2 ^ shift := by
  change (shift.repeat ExtendedMantissa.shiftRightOne extended).mantissa = _
  induction shift with
  | zero => simp [Nat.repeat]
  | succ shift ih =>
    rw [Nat.repeat, ExtendedMantissa.shiftRightOne, ih, Nat.div_div_eq_div_mul, Nat.pow_succ]

/-- Rounding adds at most one to a significand. -/
theorem roundedMantissa_bounds (extended : ExtendedMantissa) :
    extended.mantissa ≤ extended.roundedMantissa ∧
      extended.roundedMantissa ≤ extended.mantissa + 1 := by
  obtain ⟨mantissa, roundBit, stickyBit⟩ := extended
  cases roundBit <;> cases stickyBit <;>
    simp [ExtendedMantissa.roundedMantissa, ExtendedMantissa.accuracy, Accuracy.roundToNearestEven]
  omega

/-- The significand and the exponent that a number is shifted to. -/
theorem shiftToTargetExponent_eq {mantissa : Nat} {exponent : Int} {shift : Nat}
    (width : mantissa.log2 = 52 + shift) (low : -1074 ≤ exponent) :
    shiftToTargetExponent Format.binary64 mantissa exponent .exact =
      (ExtendedMantissa.ofMantissaAndAccuracy mantissa .exact >>> shift, exponent + shift) := by
  have target : Format.binary64.targetExponent (totalExponent mantissa exponent) =
      exponent + shift := by
    simp only [Format.targetExponent, totalExponent, width, Format.mantissaBits,
      Format.minExponent]
    omega
  simp only [shiftToTargetExponent, shiftToExponent, target]
  rw [show (exponent + shift - exponent).toNat = shift by omega]

/-- A number is shifted, rounded and shifted again. -/
theorem roundWithAccuracy_eq {mantissa significand : Nat} {exponent between place : Int}
    {shifted last : ExtendedMantissa}
    (first : shiftToTargetExponent Format.binary64 mantissa exponent .exact = (shifted, between))
    (second : shiftToTargetExponent Format.binary64 shifted.roundedMantissa between .exact =
      (last, place))
    (same : last.mantissa = significand) (positive : 0 < significand) :
    roundWithAccuracy Format.binary64 .positive mantissa exponent .exact =
      .finite .positive significand place positive := by
  subst same
  simp only [roundWithAccuracy, first, second]
  exact dif_neg positive.ne'

/-- A number with at least 53 bits is rounded to a significand of 53 bits, and upwards by no more
than its `2 ^ 52`-th part. -/
theorem exists_rounded {mantissa : Nat} {exponent : Int} (full : 2 ^ 52 ≤ mantissa)
    (low : -1074 ≤ exponent) :
    ∃ significand place, ∃ positive, roundWithAccuracy Format.binary64 .positive mantissa exponent
        .exact = .finite .positive significand place positive ∧
      2 ^ 52 ≤ significand ∧ significand < 2 ^ 53 ∧ exponent ≤ place ∧
      significand * 2 ^ (place - exponent).toNat * 2 ^ 52 ≤ mantissa * (2 ^ 52 + 1) := by
  have proper : mantissa ≠ 0 := by omega
  obtain ⟨shift, width⟩ := Nat.exists_eq_add_of_le ((Nat.le_log2 proper).2 full)
  have first := shiftToTargetExponent_eq width low
  obtain ⟨least, most⟩ := roundedMantissa_bounds
    (ExtendedMantissa.ofMantissaAndAccuracy mantissa .exact >>> shift)
  rw [mantissa_shiftRight] at least most
  change mantissa / 2 ^ shift ≤ _ at least
  change _ ≤ mantissa / 2 ^ shift + 1 at most
  generalize ExtendedMantissa.ofMantissaAndAccuracy mantissa .exact >>> shift = shifted
    at first least most
  have step : 0 < 2 ^ shift := Nat.two_pow_pos shift
  have floorLow : 2 ^ 52 ≤ mantissa / 2 ^ shift := by
    rw [Nat.le_div_iff_mul_le step, ← Nat.pow_add, ← width]
    exact Nat.log2_self_le proper
  have floorHigh : mantissa / 2 ^ shift < 2 ^ 53 := by
    rw [Nat.div_lt_iff_lt_mul step, ← Nat.pow_add, show 53 + shift = mantissa.log2 + 1 by omega]
    exact Nat.lt_log2_self
  have above : shifted.roundedMantissa * 2 ^ shift * 2 ^ 52 ≤ mantissa * (2 ^ 52 + 1) := by
    have steps : mantissa / 2 ^ shift * 2 ^ shift ≤ mantissa := Nat.div_mul_le_self _ _
    have enough : 2 ^ 52 * 2 ^ shift ≤ mantissa := (Nat.mul_le_mul_right _ floorLow).trans steps
    have upper : shifted.roundedMantissa * 2 ^ shift ≤ mantissa + 2 ^ shift :=
      (Nat.mul_le_mul_right _ most).trans (by rw [Nat.add_mul, Nat.one_mul]; omega)
    omega
  by_cases fits : shifted.roundedMantissa < 2 ^ 53
  · have same : shifted.roundedMantissa.log2 = 52 + 0 :=
      (Nat.log2_eq_iff (by omega)).2 ⟨by omega, fits⟩
    have kept : (ExtendedMantissa.ofMantissaAndAccuracy shifted.roundedMantissa .exact >>>
        0).mantissa = shifted.roundedMantissa :=
      (mantissa_shiftRight _ 0).trans (Nat.div_one _)
    refine ⟨shifted.roundedMantissa, _, by omega, roundWithAccuracy_eq first
      (shiftToTargetExponent_eq same (by omega)) kept _, by omega, fits, by omega, ?_⟩
    rwa [show (exponent + shift + (0 : Nat) - exponent).toNat = shift by omega]
  · have carried : shifted.roundedMantissa = 2 ^ 53 := by omega
    have wider : shifted.roundedMantissa.log2 = 52 + 1 := by
      rw [carried, Nat.log2_two_pow]
    have halved : (ExtendedMantissa.ofMantissaAndAccuracy shifted.roundedMantissa .exact >>>
        1).mantissa = 2 ^ 52 := by
      rw [carried]
      exact (mantissa_shiftRight _ 1).trans rfl
    refine ⟨2 ^ 52, _, by decide, roundWithAccuracy_eq first
      (shiftToTargetExponent_eq wider (by omega)) halved _, le_rfl, by decide, by omega, ?_⟩
    rw [carried, show 2 ^ 53 = 2 ^ 52 * 2 from rfl, Nat.mul_assoc (2 ^ 52)] at above
    rwa [show (exponent + shift + (1 : Nat) - exponent).toNat = shift + 1 by omega,
      pow_succ 2 shift, Nat.mul_comm (2 ^ shift)]

/-- The sign of packed parts. -/
theorem unpackSign_packComponents (sign : Sign) (place : BitVec 11) (significand : BitVec 52) :
    unpackSign (packComponents Format.binary64 sign place significand) = sign.toBitVec := by
  change (sign.toBitVec ++ place ++ significand).extractLsb' 63 1 = _
  rw [BitVec.extractLsb'_append_eq_of_le (by decide), BitVec.extractLsb'_append_eq_of_le (by decide)]
  exact BitVec.extractLsb'_eq_self

/-- The parts of a finite double: a significand of at most 53 bits and an exponent in range. The
significand has fewer bits only with the lowest exponent. -/
structure IsCanonical (significand : Nat) (place : Int) : Prop where
  /-- There are at most 53 bits. -/
  fits : significand < 2 ^ 53
  /-- No exponent is lower. -/
  low : -1074 ≤ place
  /-- No exponent is higher. -/
  high : place ≤ 971
  /-- There are 53 bits unless the exponent is the lowest. -/
  full : place = -1074 ∨ 2 ^ 52 ≤ significand

/-- A fraction with the first bit in front of it has 53 bits. -/
theorem le_toNat_append_one (fraction : BitVec 52) : 2 ^ 52 ≤ (1#1 ++ fraction).toNat := by
  rw [BitVec.toNat_append, Nat.shiftLeft_eq]
  exact Nat.left_le_or

/-- The fraction of a significand with the first bit in front of it is the significand. -/
theorem toNat_append_one {significand : Nat} (full : 2 ^ 52 ≤ significand)
    (fits : significand < 2 ^ 53) : (1#1 ++ BitVec.ofNat 52 significand).toNat = significand := by
  rw [BitVec.toNat_append, BitVec.toNat_ofNat, Nat.shiftLeft_eq]
  change 2 ^ 52 ||| (significand % 2 ^ 52) = significand
  rw [Nat.or_comm, Nat.or_two_pow_eq_add_of_lt (Nat.mod_lt _ (Nat.two_pow_pos 52))]
  omega

/-- The parts of a double are unpacked as they were packed. -/
theorem unpack_pack {significand : Nat} {place : Int} (positive : 0 < significand)
    (canonical : IsCanonical significand place) :
    (Float.Model.pack (.finite .positive significand place positive)).unpack =
      .finite .positive significand place positive := by
  obtain ⟨fits, low, high, full⟩ := canonical
  have packed : pack Format.binary64 (.finite .positive significand place positive) =
      if significand.log2 + 1 = 53 then
        packComponents Format.binary64 .positive (BitVec.ofNat 11 (place + 1075).toNat)
          (BitVec.ofNat 52 significand)
      else packComponents Format.binary64 .positive 0#11 (BitVec.ofNat 52 significand) := by
    have same : place + (1023 : Nat) + (52 : Nat) = place + 1075 := by omega
    change (if 2048 ≤ (place + (1023 : Nat) + (52 : Nat)).toNat + 1 then _
      else if significand.log2 + 1 = 53 then
        packComponents Format.binary64 .positive
          (BitVec.ofNat 11 (place + (1023 : Nat) + (52 : Nat)).toNat) _
      else _) = _
    rw [same, if_neg (by omega)]
  change unpack Format.binary64 (pack Format.binary64 _) = _
  rw [packed]
  by_cases normal : 2 ^ 52 ≤ significand
  · have width : significand.log2 = 52 := (Nat.log2_eq_iff (by omega)).2 ⟨normal, fits⟩
    obtain ⟨biased, isBiased⟩ : ∃ biased : Nat, place = biased - 1075 :=
      ⟨(place + 1075).toNat, by omega⟩
    have bits : (BitVec.ofNat 11 biased).toNat = biased := Nat.mod_eq_of_lt (by omega)
    have ordinary : BitVec.ofNat 11 biased ≠ -1#11 ∧ BitVec.ofNat 11 biased ≠ 0#11 := by
      constructor <;> intro same <;> have := congrArg BitVec.toNat same
      · rw [bits] at this
        change biased = 2047 at this
        omega
      · rw [bits] at this
        change biased = 0 at this
        omega
    have unbiased : (biased : Int) - (Format.binary64.exponentBias + (52 : Nat)) = place := by
      change (biased : Int) - ((1023 : Nat) + (52 : Nat)) = place
      omega
    rw [if_pos (by omega), show (place + 1075).toNat = biased by omega]
    simp only [unpack, unpackExponent_packComponents, unpackMantissa_packComponents,
      unpackSign_packComponents, if_neg ordinary.1, if_neg ordinary.2,
      toNat_append_one normal fits, bits, unbiased]
    rfl
  · have lowest : place = -1074 := full.resolve_right normal
    have width : significand.log2 + 1 ≠ 53 := by
      have := (Nat.log2_lt (k := 52) positive.ne').2 (by omega)
      omega
    have bits : (BitVec.ofNat 52 significand).toNat = significand := Nat.mod_eq_of_lt (by omega)
    have proper : BitVec.ofNat 52 significand ≠ 0#52 := by
      intro same
      have := congrArg BitVec.toNat same
      rw [bits] at this
      change significand = 0 at this
      omega
    have unbiased : ((0#11).toNat : Int) - (Format.binary64.exponentBias + (52 : Nat)) + 1 = place := by
      rw [lowest]
      rfl
    rw [if_neg width]
    simp only [unpack, unpackExponent_packComponents, unpackMantissa_packComponents,
      unpackSign_packComponents, if_neg (by decide : 0#11 ≠ -1#11), dif_neg proper, bits, unbiased]
    rfl

/-- Whether a double is positive, uses all bits of its significand and exceeds a natural number by
no more than its `2 ^ 52`-th part. -/
def isNear (number : Float) (value : Nat) : Bool :=
  match number.toModel.unpack with
  | .finite .positive significand place _ =>
    2 ^ 52 ≤ significand && significand < 2 ^ 53 && -53 ≤ place &&
      significand * 2 ^ (place + 53).toNat ≤ 2 * value * (2 ^ 52 + 1)
  | _ => false

/-- What a double that is near a number consists of. -/
theorem exists_of_isNear {number : Float} {value : Nat} (near : isNear number value = true) :
    ∃ significand place, ∃ positive,
      number.toModel.unpack = .finite .positive significand place positive ∧
      2 ^ 52 ≤ significand ∧ significand < 2 ^ 53 ∧ -53 ≤ place ∧
      significand * 2 ^ (place + 53).toNat ≤ 2 * value * (2 ^ 52 + 1) := by
  unfold isNear at near
  split at near
  case h_1 significand place positive unpacked =>
    simp only [Bool.and_eq_true, decide_eq_true_eq, and_assoc] at near
    exact ⟨significand, place, positive, unpacked, near⟩
  case h_2 => contradiction

/-- What a number of at most 309 digits is rounded to is near it. -/
theorem isNear_round {mantissa value digits : Nat} {exponent : Int} (full : 2 ^ 52 ≤ mantissa)
    (low : -53 ≤ exponent) (isValue : mantissa * 2 ^ (exponent + 53).toNat = value * 2 ^ 53)
    (small : value ≤ 10 ^ digits) (inRange : digits ≤ 308) :
    isNear (.ofModel (.pack (roundWithAccuracy Format.binary64 .positive mantissa exponent .exact)))
      value = true := by
  obtain ⟨significand, place, positive, rounded, least, most, later, above⟩ :=
    exists_rounded full (by omega : -1074 ≤ exponent)
  have bound : significand * 2 ^ (place + 53).toNat ≤ 2 * value * (2 ^ 52 + 1) := by
    have scaled := Nat.mul_le_mul_right (2 ^ (exponent + 53).toNat) above
    rw [Nat.mul_right_comm mantissa, isValue, Nat.mul_right_comm _ (2 ^ 52), Nat.mul_assoc significand,
      ← Nat.pow_add, show (place - exponent).toNat + (exponent + 53).toNat = (place + 53).toNat by
        omega] at scaled
    omega
  have high : place ≤ 971 := by
    by_contra tooHigh
    -- the bounds are named, as their digits must not be computed on the way
    obtain ⟨top, isTop⟩ : ∃ top : Nat, top = 1025 := ⟨_, rfl⟩
    obtain ⟨most, isMost⟩ : ∃ most : Nat, most = 308 := ⟨_, rfl⟩
    refine lt_irrefl (2 ^ 52 * 2 ^ top) ?_
    calc 2 ^ 52 * 2 ^ top ≤ significand * 2 ^ (place + 53).toNat :=
          Nat.mul_le_mul least (Nat.pow_le_pow_right (by decide) (by omega))
      _ ≤ 2 * value * (2 ^ 52 + 1) := bound
      _ ≤ 2 * 10 ^ digits * (2 ^ 52 + 1) := by gcongr
      _ ≤ 2 * 10 ^ most * (2 ^ 52 + 1) := by gcongr <;> omega
      _ < 2 ^ 52 * 2 ^ top := by
        rw [isTop, isMost]
        decide +kernel
  rw [isNear, rounded]
  dsimp only
  rw [unpack_pack positive ⟨most, by omega, high, .inr least⟩]
  simp only [Bool.and_eq_true, decide_eq_true_eq]
  exact ⟨⟨⟨least, most⟩, by omega⟩, bound⟩

/-- A natural number of 64 bits is shifted to 53 bits at least, and rounded. -/
theorem ofUInt64_eq {value : UInt64} (positive : 0 < value.toNat) :
    UnpackedFloat.ofUInt64 Format.binary64 value =
      roundWithAccuracy Format.binary64 .positive (value.toNat <<< (52 - value.toNat.log2))
        (-(52 - value.toNat.log2 : Nat)) .exact := by
  have target : Format.binary64.targetExponent (totalExponent value.toNat 0) =
      (value.toNat.log2 : Int) - 52 := by
    simp only [Format.targetExponent, totalExponent, Format.mantissaBits, Format.minExponent]
    omega
  have greater : compare (value.toNat : Int) 0 = .gt := Int.compare_eq_gt.2 (by omega)
  simp only [UnpackedFloat.ofUInt64, UnpackedFloat.ofNat, UnpackedFloat.ofInt,
    UnpackedFloat.normalize, greater, UnpackedFloat.round, Int.toNat_natCast, target,
    decreaseExponent]
  rw [show (0 - ((value.toNat.log2 : Int) - 52)).toNat = 52 - value.toNat.log2 by omega, zero_sub]

/-- What is shifted to 53 bits has them. -/
theorem full_shiftLeft {value : Nat} (positive : 0 < value) : 2 ^ 52 ≤ value <<< (52 - value.log2) := by
  rw [Nat.shiftLeft_eq]
  calc 2 ^ 52 ≤ 2 ^ (value.log2 + (52 - value.log2)) :=
        Nat.pow_le_pow_right (by decide) (by omega)
    _ = 2 ^ value.log2 * 2 ^ (52 - value.log2) := Nat.pow_add _ _ _
    _ ≤ value * 2 ^ (52 - value.log2) := Nat.mul_le_mul_right _ (Nat.log2_self_le positive.ne')

/-- A natural number of 64 bits is near what it stands for. -/
theorem isNear_toFloat {value : UInt64} (positive : 0 < value.toNat) :
    isNear value.toFloat value.toNat = true := by
  have fits : value.toNat < 2 ^ 64 := value.toNat_lt
  change isNear (.ofModel (.pack (UnpackedFloat.ofUInt64 Format.binary64 value))) _ = true
  rw [ofUInt64_eq positive]
  refine isNear_round (full_shiftLeft positive) (by omega) ?_
    (by omega : value.toNat ≤ 10 ^ 20) (by decide)
  rw [Nat.shiftLeft_eq, Nat.mul_assoc, ← Nat.pow_add]
  congr 2
  omega

/-- A power of ten with more than 22 zeros is rounded once. -/
theorem powerOfTen_eq {place : Nat} (large : 22 < place) (inRange : place ≤ 308) :
    Float.ofScientific 1 false place = .ofModel (.pack (roundWithAccuracy Format.binary64 .positive
      (2 ^ 53 * 10 ^ place) (-53) .exact)) := by
  have scaled : Float.ofScientific 1 false place =
      .ofModel (.pack (UnpackedFloat.ofScientific Format.binary64 1 place)) :=
    dif_neg (by omega)
  rw [scaled, UnpackedFloat.ofScientific, dif_neg (by decide), if_neg, if_neg, if_pos]
  · rfl
  · omega
  · change ¬((place : Int) < -(2 ^ 11 + 0))
    omega
  · change ¬((place : Int) > 2 ^ 11)
    omega

/-- What is rounded for a power of ten has more than 53 bits. -/
theorem full_powerOfTen (place : Nat) : 2 ^ 52 ≤ 2 ^ 53 * 10 ^ place :=
  (by decide : 2 ^ 52 ≤ 2 ^ 53).trans (Nat.le_mul_of_pos_right _ (by positivity))

/-- A power of ten is near what it stands for. -/
theorem isNear_powerOfTen {place : Nat} (inRange : place ≤ 308) :
    isNear (Float.ofScientific 1 false place) (10 ^ place) = true := by
  by_cases small : place ≤ 22
  · have all : ∀ place < 23, isNear (Float.ofScientific 1 false place) (10 ^ place) = true := by
      decide +kernel
    exact all place (by omega)
  · rw [powerOfTen_eq (by omega) inRange]
    refine isNear_round (full_powerOfTen place) (by decide) ?_ le_rfl inRange
    exact (Nat.mul_one _).trans (Nat.mul_comm _ _)

/-- The product of doubles that are near natural numbers is finite if there is room for three
roundings. -/
theorem isInf_mul {left right : Float} {first second : Nat} (leftNear : isNear left first = true)
    (rightNear : isNear right second = true)
    (room : first * second * (2 ^ 52 + 1) ^ 3 < 2 ^ 1024 * 2 ^ 156) :
    (left * right).isInf = false := by
  obtain ⟨m₁, e₁, positive₁, unpacked₁, least₁, most₁, low₁, above₁⟩ := exists_of_isNear leftNear
  obtain ⟨m₂, e₂, positive₂, unpacked₂, least₂, most₂, low₂, above₂⟩ := exists_of_isNear rightNear
  have full : 2 ^ 52 ≤ m₁ * m₂ := least₁.trans (Nat.le_mul_of_pos_right _ positive₂)
  obtain ⟨significand, place, positive, rounded, least, most, later, above⟩ :=
    exists_rounded full (by omega : -1074 ≤ e₁ + e₂)
  have high : place ≤ 971 := by
    by_contra tooHigh
    obtain ⟨top, isTop⟩ : ∃ top : Nat, top = 1078 := ⟨_, rfl⟩
    have reached : 2 ^ top ≤ 2 ^ (place + 106).toNat :=
      Nat.pow_le_pow_right (by decide) (by omega)
    have split : 2 ^ (place + 106).toNat =
        2 ^ (place - (e₁ + e₂)).toNat * (2 ^ (e₁ + 53).toNat * 2 ^ (e₂ + 53).toNat) := by
      rw [← Nat.pow_add, ← Nat.pow_add]
      congr 1
      omega
    refine lt_irrefl (2 ^ 52 * 2 ^ top * 2 ^ 52) ?_
    calc 2 ^ 52 * 2 ^ top * 2 ^ 52 ≤ 2 ^ 52 * 2 ^ (place + 106).toNat * 2 ^ 52 := by gcongr
      _ ≤ significand * 2 ^ (place + 106).toNat * 2 ^ 52 := by gcongr
      _ = significand * 2 ^ (place - (e₁ + e₂)).toNat * 2 ^ 52 *
            (2 ^ (e₁ + 53).toNat * 2 ^ (e₂ + 53).toNat) := by rw [split]; ring
      _ ≤ m₁ * m₂ * (2 ^ 52 + 1) * (2 ^ (e₁ + 53).toNat * 2 ^ (e₂ + 53).toNat) := by gcongr
      _ = (m₁ * 2 ^ (e₁ + 53).toNat) * (m₂ * 2 ^ (e₂ + 53).toNat) * (2 ^ 52 + 1) := by ring
      _ ≤ (2 * first * (2 ^ 52 + 1)) * (2 * second * (2 ^ 52 + 1)) * (2 ^ 52 + 1) := by gcongr
      _ = 4 * (first * second * (2 ^ 52 + 1) ^ 3) := by ring
      _ < 4 * (2 ^ 1024 * 2 ^ 156) := by gcongr
      _ = 2 ^ 52 * 2 ^ top * 2 ^ 52 := by
        rw [isTop]
        decide +kernel
  change (Float.Model.pack (UnpackedFloat.mul Format.binary64 left.toModel.unpack
    right.toModel.unpack)).unpack.isInf = false
  rw [unpacked₁, unpacked₂]
  change (Float.Model.pack (roundWithAccuracy Format.binary64 .positive (m₁ * m₂) (e₁ + e₂)
    .exact)).unpack.isInf = false
  rw [rounded, unpack_pack positive ⟨most, by omega, high, .inr least⟩]
  rfl

end PhysicsPrefab.Rounding
