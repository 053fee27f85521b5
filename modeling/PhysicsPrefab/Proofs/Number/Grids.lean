import PhysicsPrefab.Proofs.Number.Finiteness

/-!
# Rounding to a grid

A number that is not negative lies on or between the steps of a grid: the multiples of the power of
two that leaves the number at most 53 bits, which is never finer than `2 ^ -1074`. Rounding goes to
the nearest step, and of two steps that are equally near to the even one (`exists_onGrid`). The
residual bits of a significand say where the number lies between two steps (`Extends`), and they go
on saying so while the significand is shifted (`Extends.shiftRight`).
-/

namespace PhysicsPrefab.Rounding

open Float.Model (Format totalExponent UnpackedFloat)
open Float.Model.UnpackedFloat

variable {value : ℚ} {place : Int} {steps : Nat}

/-- Where a number lies that is cut off to a significand, counted in units of its last bit. -/
def IsAt (significand : Nat) (value : ℚ) : Accuracy → Prop
  | .exact => value = significand
  | .inexact .lt => significand < value ∧ value < significand + 1 / 2
  | .inexact .eq => value = significand + 1 / 2
  | .inexact .gt => significand + 1 / 2 < value ∧ value < significand + 1

/-- A number is cut off by less than one. -/
theorem IsAt.bounds {significand : Nat} {accuracy : Accuracy}
    (isAt : IsAt significand value accuracy) :
    (significand : ℚ) ≤ value ∧ value < significand + 1 := by
  rcases accuracy with _ | _ | _ | _ <;> simp only [IsAt] at isAt <;> grind

/-- A significand with residual bits stands for a number. -/
def Extends (extended : ExtendedMantissa) (value : ℚ) : Prop :=
  IsAt extended.mantissa value extended.accuracy

/-- An accuracy is kept in the residual bits. -/
theorem Extends.of_isAt {significand : Nat} {accuracy : Accuracy}
    (isAt : IsAt significand value accuracy) :
    Extends (ExtendedMantissa.ofMantissaAndAccuracy significand accuracy) value := by
  rcases accuracy with _ | _ | _ | _ <;> exact isAt

/-- Shifting by one bit halves the number. -/
theorem Extends.shiftRightOne {extended : ExtendedMantissa} (stands : Extends extended value) :
    Extends extended.shiftRightOne (value / 2) := by
  obtain ⟨significand, roundBit, stickyBit⟩ := extended
  obtain ⟨half, rfl | rfl⟩ : ∃ half, significand = 2 * half ∨ significand = 2 * half + 1 :=
    ⟨significand / 2, by omega⟩
  · cases roundBit <;> cases stickyBit <;>
      simp only [Extends, IsAt, ExtendedMantissa.accuracy, ExtendedMantissa.shiftRightOne,
        Nat.mul_div_cancel_left _ Nat.two_pos, Nat.mul_mod_right] at stands ⊢ <;>
      grind
  · have halved : (2 * half + 1) / 2 = half := by omega
    have dropped : (2 * half + 1) % 2 = 1 := by omega
    cases roundBit <;> cases stickyBit <;>
      simp only [Extends, IsAt, ExtendedMantissa.accuracy, ExtendedMantissa.shiftRightOne,
        halved, dropped] at stands ⊢ <;>
      grind

/-- Shifting divides the number by a power of two. -/
theorem Extends.shiftRight {extended : ExtendedMantissa} (stands : Extends extended value)
    (shift : Nat) : Extends (extended >>> shift) (value / 2 ^ shift) := by
  change Extends (shift.repeat ExtendedMantissa.shiftRightOne extended) _
  induction shift with
  | zero => rwa [pow_zero, div_one]
  | succ shift ih =>
    rw [pow_succ, ← div_div]
    exact ih.shiftRightOne

/-- A natural number is nearest to a number, and is even if another one is as near. -/
structure IsNearestWhole (value : ℚ) (whole : Nat) : Prop where
  /-- It is at most one half away. -/
  near : |whole - value| ≤ 1 / 2
  /-- It is even if it is one half away. -/
  even : |whole - value| = 1 / 2 → whole % 2 = 0

/-- A natural number that is less than one half away is nearest. -/
theorem IsNearestWhole.of_lt {whole : Nat} (close : |whole - value| < 1 / 2) :
    IsNearestWhole value whole :=
  ⟨close.le, fun tie => absurd tie close.ne⟩

/-- What a significand with residual bits is rounded to is nearest to what it stands for. -/
theorem Extends.rounded {extended : ExtendedMantissa} (stands : Extends extended value) :
    IsNearestWhole value extended.roundedMantissa := by
  obtain ⟨significand, roundBit, stickyBit⟩ := extended
  cases roundBit <;> cases stickyBit <;>
    simp only [Extends, IsAt, ExtendedMantissa.accuracy, ExtendedMantissa.roundedMantissa,
      Accuracy.roundToNearestEven] at stands ⊢
  · exact .of_lt (abs_lt.2 (by constructor <;> linarith))
  · exact .of_lt (abs_lt.2 (by constructor <;> linarith))
  · rcases Nat.mod_two_eq_zero_or_one significand with isEven | isOdd
    · rw [isEven, Nat.add_zero, stands]
      exact ⟨by rw [sub_add_cancel_left, abs_neg, abs_of_pos one_half_pos], fun _ => isEven⟩
    · have apart : ((significand + 1 : Nat) : ℚ) - (significand + 1 / 2) = 1 / 2 := by
        push_cast
        ring
      rw [isOdd, stands]
      exact ⟨by rw [apart, abs_of_pos one_half_pos], fun _ => by omega⟩
  · refine .of_lt (abs_lt.2 ?_)
    push_cast
    constructor <;> linarith

/-- No other whole number is nearer to a number than the nearest one. -/
theorem IsNearestWhole.closest {whole : Nat} (nearest : IsNearestWhole value whole) (other : Int) :
    |whole - value| ≤ |other - value| := by
  by_cases same : other = whole
  · rw [same, Int.cast_natCast]
  · have apart : (1 : ℚ) ≤ |(other : ℚ) - whole| := by
      exact_mod_cast Int.one_le_abs (sub_ne_zero.2 same)
    have between := abs_sub_le (other : ℚ) value whole
    have near := nearest.near
    rw [abs_sub_comm value] at between
    linarith

/-- Another whole number that is as near to a number as the nearest one is odd, and that one is
even. -/
theorem IsNearestWhole.odd_of_tie {whole : Nat} (nearest : IsNearestWhole value whole) {other : Int}
    (differs : other ≠ whole) (tie : |other - value| = |whole - value|) :
    whole % 2 = 0 ∧ other % 2 = 1 := by
  have near := nearest.near
  have apart : (1 : ℚ) ≤ |(other : ℚ) - whole| := by
    exact_mod_cast Int.one_le_abs (sub_ne_zero.2 differs)
  have between := abs_sub_le (other : ℚ) value whole
  rw [abs_sub_comm value, tie] at between
  have half : |whole - value| = 1 / 2 := by linarith
  have even := nearest.even half
  have one : |(other : ℚ) - whole| = 1 := by linarith
  have one : |other - whole| = 1 := by exact_mod_cast one
  refine ⟨even, ?_⟩
  rcases (abs_eq zero_le_one).1 one with above | below <;> omega

/-- A number that is not negative is rounded to a count of steps `2 ^ place`. These are the steps
that leave the number 53 bits, or the finest ones. -/
structure RoundsTo (value : ℚ) (place : Int) (steps : Nat) : Prop where
  /-- The number is not negative. -/
  nonneg : 0 ≤ value
  /-- No steps are finer. -/
  low : -1074 ≤ place
  /-- The number has 53 bits unless the steps are the finest. -/
  full : place = -1074 ∨ 2 ^ 52 * 2 ^ place ≤ value
  /-- The number has at most 53 bits. -/
  fits : value < 2 ^ 53 * 2 ^ place
  /-- The count is the nearest one. -/
  nearest : IsNearestWhole (value / 2 ^ place) steps

/-- A number of at most 53 bits has at most `2 ^ 53` steps. -/
theorem RoundsTo.steps_le (rounds : RoundsTo value place steps) : steps ≤ 2 ^ 53 := by
  have step : (0 : ℚ) < 2 ^ place := by positivity
  have below : value / 2 ^ place < 2 ^ 53 := (div_lt_iff₀ step).2 rounds.fits
  have near := (abs_le.1 rounds.nearest.near).2
  have bound : (steps : ℚ) < (2 ^ 53 + 1 : Nat) := by
    push_cast
    linarith
  exact Nat.lt_succ_iff.1 (by exact_mod_cast bound)

/-- A number of 53 bits has at least `2 ^ 52` steps. -/
theorem RoundsTo.le_steps (rounds : RoundsTo value place steps) (coarse : place ≠ -1074) :
    2 ^ 52 ≤ steps := by
  have step : (0 : ℚ) < 2 ^ place := by positivity
  have above : 2 ^ 52 ≤ value / 2 ^ place :=
    (le_div_iff₀ step).2 (rounds.full.resolve_left coarse)
  have near := (abs_le.1 rounds.nearest.near).1
  have bound : ((2 ^ 52 : Nat) : ℚ) < steps + 1 := by
    push_cast
    linarith
  exact Nat.lt_succ_iff.1 (by exact_mod_cast bound)

/-- A count of steps as a number. As many steps as have 54 bits are half as many of the next
size. -/
def onGrid (place : Int) (steps : Nat) : UnpackedFloat :=
  if zero : steps = 0 then .zero .positive
  else if steps = 2 ^ 53 then .finite .positive (2 ^ 52) (place + 1) (by decide)
  else .finite .positive steps place (Nat.pos_of_ne_zero zero)

/-- Shifting a count of steps leaves it as it is, unless it has 54 bits. -/
theorem shiftToTargetExponent_steps (low : -1074 ≤ place) (fits : steps ≤ 2 ^ 53) :
    ∃ last, shiftToTargetExponent Format.binary64 steps place .exact =
        (last, if steps = 2 ^ 53 then place + 1 else place) ∧
      last.mantissa = if steps = 2 ^ 53 then 2 ^ 52 else steps := by
  obtain ⟨last, next, shifted, isNext, isLast⟩ := shiftToTargetExponent_cases steps place .exact
  by_cases carried : steps = 2 ^ 53
  · have width : steps.log2 = 53 := by rw [carried, Nat.log2_two_pow]
    have after : next = place + 1 := by omega
    refine ⟨last, by rw [shifted, if_pos carried, after], ?_⟩
    rw [isLast, after, if_pos carried, carried, show (place + 1 - place).toNat = 1 by omega]
    rfl
  · have width : steps.log2 ≤ 52 := by
      by_cases zero : steps = 0
      · rw [zero]
        decide
      · exact Nat.lt_succ_iff.1 ((Nat.log2_lt zero).2 (by omega))
    have same : next = place := by omega
    refine ⟨last, by rw [shifted, if_neg carried, same], ?_⟩
    rw [isLast, same, if_neg carried, sub_self]
    exact Nat.div_one steps

/-- A power of two above a step. -/
theorem two_pow_mul_step (count : Nat) (place : Int) :
    (2 : ℚ) ^ count * 2 ^ place = 2 ^ (place + count) := by
  rw [zpow_add₀ two_ne_zero, zpow_natCast, mul_comm]

section Leading

variable {significand : Nat} {exponent : Int} {accuracy : Accuracy}

/-- A number is not below the leading bit of what it is cut off to. -/
theorem IsAt.leading_le (isAt : IsAt significand (value / 2 ^ exponent) accuracy)
    (proper : significand ≠ 0) : 2 ^ (exponent + significand.log2) ≤ value := by
  have unit : (0 : ℚ) < 2 ^ exponent := by positivity
  have leading : ((2 ^ significand.log2 : Nat) : ℚ) ≤ significand := by
    exact_mod_cast Nat.log2_self_le proper
  push_cast at leading
  calc (2 : ℚ) ^ (exponent + significand.log2) = 2 ^ significand.log2 * 2 ^ exponent :=
        (two_pow_mul_step _ _).symm
    _ ≤ significand * 2 ^ exponent := by gcongr
    _ ≤ value := (le_div_iff₀ unit).1 isAt.bounds.1

/-- A number has no bit above the leading one of what it is cut off to. -/
theorem IsAt.lt_leading (isAt : IsAt significand (value / 2 ^ exponent) accuracy) :
    value < 2 ^ (exponent + significand.log2 + 1) := by
  have unit : (0 : ℚ) < 2 ^ exponent := by positivity
  have leading : ((significand + 1 : Nat) : ℚ) ≤ (2 ^ (significand.log2 + 1) : Nat) := by
    exact_mod_cast Nat.lt_log2_self
  push_cast at leading
  calc value < (significand + 1) * 2 ^ exponent := (div_lt_iff₀ unit).1 isAt.bounds.2
    _ ≤ 2 ^ (significand.log2 + 1) * 2 ^ exponent := by gcongr
    _ = 2 ^ (exponent + significand.log2 + 1) := by
        rw [two_pow_mul_step, Nat.cast_add, Nat.cast_one, add_assoc]

/-- A number that is cut off to a significand with enough bits is rounded on its grid. -/
theorem exists_onGrid (isAt : IsAt significand (value / 2 ^ exponent) accuracy)
    (fine : exponent ≤ max (significand.log2 + exponent - 52) (-1074)) :
    ∃ place steps, RoundsTo value place steps ∧
      roundWithAccuracy Format.binary64 .positive significand exponent accuracy =
        onGrid place steps := by
  obtain ⟨place, isPlace⟩ : ∃ place, place = max (significand.log2 + exponent - 52) (-1074) :=
    ⟨_, rfl⟩
  have target : Format.binary64.targetExponent (totalExponent significand exponent) = place := by
    simp only [Format.targetExponent, totalExponent, Format.mantissaBits, Format.minExponent]
    omega
  obtain ⟨shift, isShift⟩ : ∃ shift : Nat, place = exponent + shift :=
    ⟨(place - exponent).toNat, by omega⟩
  have first : shiftToTargetExponent Format.binary64 significand exponent accuracy =
      (ExtendedMantissa.ofMantissaAndAccuracy significand accuracy >>> shift, place) := by
    simp only [shiftToTargetExponent, shiftToExponent, target]
    rw [show (place - exponent).toNat = shift by omega, isShift]
  have scaled : value / 2 ^ exponent / 2 ^ shift = value / 2 ^ place := by
    rw [isShift, zpow_add₀ two_ne_zero, zpow_natCast, div_div]
  have stands := (Extends.of_isAt isAt).shiftRight shift
  rw [scaled] at stands
  generalize ExtendedMantissa.ofMantissaAndAccuracy significand accuracy >>> shift = extended
    at first stands
  have nonneg : 0 ≤ value := by
    have unit : (0 : ℚ) < 2 ^ exponent := by positivity
    exact le_trans (by positivity) ((le_div_iff₀ unit).1 isAt.bounds.1)
  have full : place = -1074 ∨ 2 ^ 52 * 2 ^ place ≤ value := by
    by_cases finest : place = -1074
    · exact .inl finest
    · have proper : significand ≠ 0 := by
        rintro rfl
        rw [Nat.log2_zero] at isPlace
        omega
      rw [two_pow_mul_step, show place + (52 : Nat) = exponent + significand.log2 by omega]
      exact .inr (isAt.leading_le proper)
  have fits : value < 2 ^ 53 * 2 ^ place := by
    rw [two_pow_mul_step]
    exact isAt.lt_leading.trans_le (zpow_le_zpow_right₀ one_le_two (by omega))
  have rounds : RoundsTo value place extended.roundedMantissa :=
    ⟨nonneg, by omega, full, fits, stands.rounded⟩
  refine ⟨place, extended.roundedMantissa, rounds, ?_⟩
  obtain ⟨last, second, isLast⟩ := shiftToTargetExponent_steps rounds.low rounds.steps_le
  simp only [roundWithAccuracy, first, second, isLast, onGrid]
  by_cases carried : extended.roundedMantissa = 2 ^ 53
  · simp [carried]
  · simp only [if_neg carried]

end Leading

end PhysicsPrefab.Rounding
