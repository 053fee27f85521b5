import PhysicsPrefab.Proofs.Number.Rounding

/-!
# Finite doubles

Rounding never gives what is not a number, and gives a finite double unless its exponent leaves the
range (`isFinite_round`). So products of finite doubles are numbers (`isNaN_mul`), whole numbers of
64 bits are finite as doubles (`isFinite_toFloat`), and so are finite doubles that are divided by a
power of ten (`isFinite_div`).
-/

namespace PhysicsPrefab.Rounding

open Float.Model (Format totalExponent UnpackedFloat)
open Float.Model.UnpackedFloat

/-- What is unpacked is finite unless its exponent is the highest. -/
theorem isFinite_unpack (bits : BitVec Format.binary64.numBits)
    (exponent : unpackExponent bits ≠ -1#11) : (unpack Format.binary64 bits).isFinite = true := by
  simp only [unpack]
  rw [if_neg exponent]
  split
  · split <;> rfl
  · rfl

/-- A number whose exponent is in range is finite when it is packed. -/
theorem isFinite_pack {sign : Sign} {mantissa : Nat} {exponent : Int} (positive : 0 < mantissa)
    (high : exponent ≤ 971) :
    (Float.Model.pack (.finite sign mantissa exponent positive)).unpack.isFinite = true := by
  refine isFinite_unpack _ ?_
  change unpackExponent (pack Format.binary64 (.finite sign mantissa exponent positive)) ≠ _
  have biased : ¬2048 ≤ (exponent + (1023 : Nat) + (52 : Nat)).toNat + 1 := by omega
  change unpackExponent (if 2048 ≤ (exponent + (1023 : Nat) + (52 : Nat)).toNat + 1 then _
    else if mantissa.log2 + 1 = 53 then
      packComponents Format.binary64 sign
        (BitVec.ofNat 11 (exponent + (1023 : Nat) + (52 : Nat)).toNat) _
    else packComponents Format.binary64 sign 0 _) ≠ _
  rw [if_neg biased]
  split
  · rw [unpackExponent_packComponents]
    intro same
    have bits := congrArg BitVec.toNat same
    rw [BitVec.toNat_ofNat] at bits
    change _ = 2047 at bits
    omega
  · rw [unpackExponent_packComponents]
    decide

/-- Zero is finite when it is packed. -/
theorem isFinite_pack_zero (sign : Sign) :
    (Float.Model.pack (.zero sign)).unpack.isFinite = true := by
  cases sign <;> decide +kernel

/-- Zero is a number when it is packed. -/
theorem isNaN_pack_zero (sign : Sign) : (Float.Model.pack (.zero sign)).unpack.isNaN = false := by
  cases sign <;> decide +kernel

/-- An infinite number is a number when it is packed. -/
theorem isNaN_pack_infinity (sign : Sign) :
    (Float.Model.pack (.infinity sign)).unpack.isNaN = false := by
  cases sign <;> decide +kernel

/-- A number whose exponent is too high is infinite when it is packed. -/
theorem pack_of_high {sign : Sign} {mantissa : Nat} {exponent : Int} (positive : 0 < mantissa)
    (high : 971 < exponent) : Float.Model.pack (.finite sign mantissa exponent positive) =
      Float.Model.pack (.infinity sign) := by
  have infinite : pack Format.binary64 (.finite sign mantissa exponent positive) =
      pack Format.binary64 (.infinity sign) := if_pos (by
    change 2048 ≤ (exponent + (1023 : Nat) + (52 : Nat)).toNat + 1
    omega)
  simp only [Float.Model.pack, infinite]

/-- A finite number is a number when it is packed, even if it turns out infinite. -/
theorem isNaN_pack {sign : Sign} {mantissa : Nat} {exponent : Int} (positive : 0 < mantissa) :
    (Float.Model.pack (.finite sign mantissa exponent positive)).unpack.isNaN = false := by
  by_cases high : exponent ≤ 971
  · have isFinite := @isFinite_pack sign mantissa exponent positive high
    cases unpacked : (Float.Model.pack (.finite sign mantissa exponent positive)).unpack <;>
      simp_all [UnpackedFloat.isFinite, UnpackedFloat.isNaN]
  · rw [pack_of_high positive (by omega)]
    exact isNaN_pack_infinity sign

/-- The parts of a double that is finite and not zero. -/
theorem canonical_of_unpack {number : Float} {sign : Sign} {mantissa : Nat} {exponent : Int}
    {positive : 0 < mantissa}
    (unpacked : number.toModel.unpack = .finite sign mantissa exponent positive) :
    IsCanonical mantissa exponent := by
  simp only [Float.Model.unpack, unpack] at unpacked
  split at unpacked
  · split at unpacked <;> cases unpacked
  · rename_i notHighest
    split at unpacked
    · split at unpacked
      · cases unpacked
      · cases unpacked
        rename_i isZero _
        rw [isZero]
        exact ⟨(BitVec.isLt _).trans (by decide), by decide, by decide, .inl (by decide)⟩
    · cases unpacked
      rename_i notZero
      let place : BitVec 11 := @unpackExponent Format.binary64 number.toModel.toBits.toBitVec
      have below : place.toNat < 2048 := place.isLt
      have differs : place.toNat ≠ 2047 := fun same => notHighest (BitVec.eq_of_toNat_eq same)
      have proper : place.toNat ≠ 0 := fun same => notZero (BitVec.eq_of_toNat_eq same)
      refine ⟨BitVec.isLt _, ?_, ?_, .inr (le_toNat_append_one _)⟩
      · change -1074 ≤ (place.toNat : Int) - ((1023 : Nat) + (52 : Nat))
        omega
      · change (place.toNat : Int) - ((1023 : Nat) + (52 : Nat)) ≤ 971
        omega

/-- A significand has at most 53 bits. -/
theorem IsCanonical.log2_le {significand : Nat} {place : Int}
    (canonical : IsCanonical significand place) : significand.log2 ≤ 52 := by
  by_cases zero : significand = 0
  · rw [zero]
    decide
  · exact Nat.lt_succ_iff.1 ((Nat.log2_lt zero).2 canonical.fits)

/-- Shifting to the exponent that a number needs drops bits and never lowers the exponent. -/
theorem shiftToTargetExponent_cases (mantissa : Nat) (exponent : Int) (accuracy : Accuracy) :
    ∃ shifted place, shiftToTargetExponent Format.binary64 mantissa exponent accuracy =
        (shifted, place) ∧
      place = max exponent (max (mantissa.log2 + exponent - 52) (-1074)) ∧
      shifted.mantissa = mantissa / 2 ^ (place - exponent).toNat := by
  have target : Format.binary64.targetExponent (totalExponent mantissa exponent) =
      max (mantissa.log2 + exponent - 52) (-1074) := by
    simp only [Format.targetExponent, totalExponent, Format.mantissaBits, Format.minExponent]
    omega
  have initial : (ExtendedMantissa.ofMantissaAndAccuracy mantissa accuracy).mantissa = mantissa := by
    rcases accuracy with _ | _ | _ | _ <;> rfl
  refine ⟨_, _, rfl, ?_, ?_⟩
  · simp only [target]
    omega
  · simp only [mantissa_shiftRight, initial]
    congr 2
    omega

/-- Rounding gives zero, or a number whose exponent is what the number needs or little more. -/
theorem round_cases (sign : Sign) (mantissa : Nat) (exponent : Int) (accuracy : Accuracy) :
    roundWithAccuracy Format.binary64 sign mantissa exponent accuracy = .zero sign ∨
      ∃ significand place positive,
        roundWithAccuracy Format.binary64 sign mantissa exponent accuracy =
          .finite sign significand place positive ∧
        mantissa.log2 + exponent - 52 ≤ place ∧
        place ≤ max exponent (max (mantissa.log2 + exponent - 52) (-1074)) + 1 := by
  obtain ⟨shifted, between, first, isBetween, isShifted⟩ :=
    shiftToTargetExponent_cases mantissa exponent accuracy
  obtain ⟨last, place, second, isPlace, -⟩ :=
    shiftToTargetExponent_cases shifted.roundedMantissa between .exact
  have rounded : roundWithAccuracy Format.binary64 sign mantissa exponent accuracy =
      if zero : last.mantissa = 0 then .zero sign
      else .finite sign last.mantissa place (Nat.pos_of_ne_zero zero) := by
    simp only [roundWithAccuracy, first, second]
  have fits : shifted.mantissa < 2 ^ 53 := by
    rw [isShifted, Nat.div_lt_iff_lt_mul (Nat.two_pow_pos _), ← Nat.pow_add]
    exact Nat.lt_log2_self.trans_le (Nat.pow_le_pow_right (by decide) (by omega))
  have carried : shifted.roundedMantissa.log2 ≤ 53 := by
    by_cases zero : shifted.roundedMantissa = 0
    · rw [zero]
      decide
    · have above := (roundedMantissa_bounds shifted).2
      exact Nat.lt_succ_iff.1 ((Nat.log2_lt zero).2 (by omega))
  by_cases zero : last.mantissa = 0
  · exact .inl (rounded.trans (dif_pos zero))
  · exact .inr ⟨_, _, _, rounded.trans (dif_neg zero), by omega, by omega⟩

/-- What is rounded is finite if its exponent and that of its first bit are in range. -/
theorem isFinite_round (sign : Sign) {mantissa : Nat} {exponent : Int} (accuracy : Accuracy)
    (low : exponent ≤ 970) (high : mantissa.log2 + exponent ≤ 1022) :
    (Float.Model.pack (roundWithAccuracy Format.binary64 sign mantissa exponent
      accuracy)).unpack.isFinite = true := by
  rcases round_cases sign mantissa exponent accuracy with isZero | ⟨_, _, positive, isFinite, -, bound⟩
  · rw [isZero]
    exact isFinite_pack_zero sign
  · rw [isFinite]
    exact isFinite_pack positive (by omega)

/-- What is rounded is a number. -/
theorem isNaN_round (sign : Sign) (mantissa : Nat) (exponent : Int) (accuracy : Accuracy) :
    (Float.Model.pack (roundWithAccuracy Format.binary64 sign mantissa exponent
      accuracy)).unpack.isNaN = false := by
  rcases round_cases sign mantissa exponent accuracy with isZero | ⟨_, _, positive, isFinite, -⟩
  · rw [isZero]
    exact isNaN_pack_zero sign
  · rw [isFinite]
    exact isNaN_pack positive

/-- A finite double is zero or has a significand and an exponent. -/
theorem unpack_cases {number : Float} (isFinite : number.isFinite = true) :
    (∃ sign, number.toModel.unpack = .zero sign) ∨ ∃ sign mantissa exponent positive,
      number.toModel.unpack = .finite sign mantissa exponent positive := by
  change number.toModel.unpack.isFinite = true at isFinite
  cases unpacked : number.toModel.unpack with
  | zero sign => exact .inl ⟨sign, rfl⟩
  | finite sign mantissa exponent positive => exact .inr ⟨sign, mantissa, exponent, positive, rfl⟩
  | infinity | notANumber =>
    rw [unpacked] at isFinite
    cases isFinite

/-- The negative of a finite double is finite. -/
theorem isFinite_neg {number : Float} (isFinite : number.isFinite = true) :
    (-number).isFinite = true := by
  change (Float.Model.pack number.toModel.unpack.neg).unpack.isFinite = true
  rcases unpack_cases isFinite with ⟨sign, unpacked⟩ | ⟨sign, mantissa, exponent, positive, unpacked⟩
  · rw [unpacked]
    exact isFinite_pack_zero (-sign)
  · rw [unpacked]
    exact isFinite_pack positive (canonical_of_unpack unpacked).high

/-- A double that is near a natural number is finite. -/
theorem isFinite_of_isNear {number : Float} {value : Nat} (near : isNear number value = true) :
    number.isFinite = true := by
  obtain ⟨_, _, _, unpacked, -⟩ := exists_of_isNear near
  change number.toModel.unpack.isFinite = true
  rw [unpacked]
  rfl

/-- A natural number of 64 bits is finite as a double. -/
theorem isFinite_toFloat (value : UInt64) : value.toFloat.isFinite = true := by
  rcases Nat.eq_zero_or_pos value.toNat with isZero | positive
  · obtain rfl : value = 0 := UInt64.toNat_inj.1 isZero
    rfl
  · exact isFinite_of_isNear (isNear_toFloat positive)

/-- The product of finite doubles is a number. -/
theorem isNaN_mul {left right : Float} (leftFinite : left.isFinite = true)
    (rightFinite : right.isFinite = true) : (left * right).isNaN = false := by
  change (Float.Model.pack (UnpackedFloat.mul Format.binary64 left.toModel.unpack
    right.toModel.unpack)).unpack.isNaN = false
  rcases unpack_cases leftFinite with ⟨s₁, unpacked₁⟩ | ⟨s₁, m₁, e₁, _, unpacked₁⟩ <;>
    rcases unpack_cases rightFinite with ⟨s₂, unpacked₂⟩ | ⟨s₂, m₂, e₂, _, unpacked₂⟩ <;>
    rw [unpacked₁, unpacked₂]
  case inr.inr => exact isNaN_round ..
  all_goals exact isNaN_pack_zero (s₁ * s₂)

/-- A double is positive and at least two. -/
def isLarge (number : Float) : Bool :=
  match number.toModel.unpack with
  | .finite .positive mantissa exponent _ => 1 ≤ mantissa.log2 + exponent
  | _ => false

/-- What a double that is at least two consists of. -/
theorem exists_of_isLarge {number : Float} (large : isLarge number = true) :
    ∃ mantissa exponent positive,
      number.toModel.unpack = .finite .positive mantissa exponent positive ∧
      1 ≤ mantissa.log2 + exponent := by
  unfold isLarge at large
  split at large
  · exact ⟨_, _, _, ‹_›, of_decide_eq_true large⟩
  · cases large

/-- A power of ten that is in reach is at least two. -/
theorem isLarge_powerOfTen {place : Nat} (positive : 0 < place) (inRange : place ≤ 308) :
    isLarge (Float.ofScientific 1 false place) = true := by
  by_cases small : place ≤ 22
  · have all : ∀ place < 23, 0 < place → isLarge (Float.ofScientific 1 false place) = true := by
      decide +kernel
    exact all place (by omega) positive
  · have isFinite := isFinite_of_isNear (isNear_powerOfTen inRange)
    rw [powerOfTen_eq (by omega) inRange] at isFinite ⊢
    obtain ⟨significand, exponent, proper, rounded, full, fits, later, -⟩ :=
      exists_rounded (full_powerOfTen place) (by decide : (-1074 : Int) ≤ -53)
    rw [rounded] at isFinite ⊢
    have high : exponent ≤ 971 := by
      by_contra tooHigh
      change (Float.Model.pack (.finite .positive significand exponent proper)).unpack.isFinite = true
        at isFinite
      rw [pack_of_high proper (by omega)] at isFinite
      exact absurd isFinite (by decide +kernel)
    have low : (2 ^ 53 * 10 ^ place).log2 + (-53) - 52 ≤ exponent := by
      rcases round_cases .positive (2 ^ 53 * 10 ^ place) (-53) .exact with isZero | ⟨_, _, _, same, low, -⟩
      · cases rounded.symm.trans isZero
      · cases rounded.symm.trans same
        exact low
    have bits : 129 ≤ (2 ^ 53 * 10 ^ place).log2 := by
      refine (Nat.le_log2 (by positivity)).2 ?_
      calc 2 ^ 129 ≤ 2 ^ 53 * 10 ^ 23 := by decide
        _ ≤ 2 ^ 53 * 10 ^ place := Nat.mul_le_mul_left _ (Nat.pow_le_pow_right (by decide) (by omega))
    rw [isLarge]
    dsimp only
    rw [unpack_pack proper ⟨fits, by omega, high, .inr full⟩]
    simp only [decide_eq_true_eq]
    omega

/-- A quotient has no more bits than the first number has more than the second. -/
theorem log2_quotient_le {dividend divisor shift : Nat} (positive : 0 < divisor)
    (proper : dividend <<< shift / divisor ≠ 0) :
    (dividend <<< shift / divisor).log2 + divisor.log2 ≤ dividend.log2 + shift := by
  rw [Nat.shiftLeft_eq] at proper ⊢
  have below : 2 ^ ((dividend * 2 ^ shift / divisor).log2 + divisor.log2) <
      2 ^ (dividend.log2 + 1 + shift) :=
    calc _ = 2 ^ (dividend * 2 ^ shift / divisor).log2 * 2 ^ divisor.log2 := Nat.pow_add _ _ _
      _ ≤ dividend * 2 ^ shift / divisor * divisor :=
          Nat.mul_le_mul (Nat.log2_self_le proper) (Nat.log2_self_le positive.ne')
      _ ≤ dividend * 2 ^ shift := Nat.div_mul_le_self _ _
      _ < 2 ^ (dividend.log2 + 1) * 2 ^ shift :=
          (Nat.mul_lt_mul_right (Nat.two_pow_pos shift)).2 Nat.lt_log2_self
      _ = _ := (Nat.pow_add _ _ _).symm
  have := (Nat.pow_lt_pow_iff_right (by decide : 1 < 2)).1 below
  omega

/-- A finite double that is divided by one that is at least two is finite. -/
theorem isFinite_div {left right : Float} (leftFinite : left.isFinite = true)
    (large : isLarge right = true) : (left / right).isFinite = true := by
  change (Float.Model.pack (UnpackedFloat.div Format.binary64 left.toModel.unpack
    right.toModel.unpack)).unpack.isFinite = true
  obtain ⟨m₂, e₂, positive, unpacked₂, atLeast⟩ := exists_of_isLarge large
  rcases unpack_cases leftFinite with ⟨s₁, unpacked₁⟩ | ⟨s₁, m₁, e₁, _, unpacked₁⟩ <;>
    rw [unpacked₁, unpacked₂]
  case inl =>
    have isZero : UnpackedFloat.div Format.binary64 (.zero s₁) (.finite .positive m₂ e₂ positive) =
        .zero (s₁ / .positive) := rfl
    rw [isZero]
    exact isFinite_pack_zero _
  case inr =>
    have narrow := (canonical_of_unpack unpacked₁).log2_le
    have inRange := (canonical_of_unpack unpacked₁).high
    have target : Format.binary64.targetExponent (totalExponent m₁ e₁ - totalExponent m₂ e₂) =
        max (m₁.log2 + e₁ - (m₂.log2 + e₂) - 53) (-1074) := by
      simp only [Format.targetExponent, totalExponent, Format.mantissaBits, Format.minExponent]
      omega
    have isQuotient : UnpackedFloat.div Format.binary64 (.finite s₁ m₁ e₁ ‹_›)
        (.finite .positive m₂ e₂ positive) = roundWithAccuracy Format.binary64 (s₁ / .positive)
          (divCore Format.binary64 m₁ e₁ m₂ e₂).1 (divCore Format.binary64 m₁ e₁ m₂ e₂).2.1
          (divCore Format.binary64 m₁ e₁ m₂ e₂).2.2 := rfl
    rw [isQuotient]
    simp only [divCore, target]
    refine isFinite_round _ _ (by omega) ?_
    generalize isShift : (e₁ - e₂ - min (e₁ - e₂)
      (max (m₁.log2 + e₁ - (m₂.log2 + e₂) - 53) (-1074))).toNat = shift
    by_cases isZero : m₁ <<< shift / m₂ = 0
    · rw [isZero, Nat.log2_zero]
      omega
    · have bound := log2_quotient_le positive isZero
      omega

end PhysicsPrefab.Rounding
