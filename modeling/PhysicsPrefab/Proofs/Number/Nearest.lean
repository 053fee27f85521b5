import PhysicsPrefab.Proofs.Number.Grids

/-!
# The nearest double

Of the finite doubles one is nearest to a number, and of two that are equally near the one counts
whose significand is even (`IsNearest`). Rounding to a grid gives such a double
(`RoundsTo.isNearest`), and there is no other (`RoundsTo.eq_of_isNearest`), unless the number is so
large that it is rounded to infinity (`RoundsTo.isFinite_iff`).
-/

namespace PhysicsPrefab.Rounding

open Float.Model (Format UnpackedFloat)
open Float.Model.UnpackedFloat

variable {value : ℚ} {place : Int} {steps : Nat} {number other : Float}

/-- The number that the parts of a double stand for, zero unless it is finite. -/
def worth : UnpackedFloat → ℚ
  | .finite .positive significand exponent _ => significand * 2 ^ exponent
  | .finite .negative significand exponent _ => -(significand * 2 ^ exponent)
  | .zero _ | .infinity _ | .notANumber => 0

/-- The significand among the parts of a double, zero unless it is finite. -/
def significandOf : UnpackedFloat → Nat
  | .finite _ significand _ _ => significand
  | .zero _ | .infinity _ | .notANumber => 0

/-- The number that a double stands for, zero unless it is finite. -/
def exactValue (number : Float) : ℚ := worth number.toModel.unpack

/-- The least number that is rounded to infinity: it is midway between the largest double and the
next power of two. -/
def overflow : ℚ := 2 ^ 1024 - 2 ^ 970

/-- A double without a minus sign is nearest to a number in range: no finite double is nearer, and
if another one is equally near, the significand is even. -/
structure IsNearest (value : ℚ) (number : Float) : Prop where
  /-- The number is not rounded to infinity. -/
  inRange : value < overflow
  /-- The double is finite. -/
  isFinite : number.isFinite = true
  /-- Its sign bit is not set. -/
  unsigned : number.toBits.toNat < 2 ^ 63
  /-- No finite double is nearer. -/
  closest : ∀ other : Float, other.isFinite = true →
    |exactValue number - value| ≤ |exactValue other - value|
  /-- Of two that are equally near it is the even one. -/
  even : ∀ other : Float, other.isFinite = true → exactValue other ≠ exactValue number →
    |exactValue other - value| = |exactValue number - value| →
    significandOf number.toModel.unpack % 2 = 0

/-- A finite double that is not negative is its significand times a power of two. -/
theorem exactValue_cases (isFinite : number.isFinite = true) :
    exactValue number < 0 ∨ ∃ exponent : Int, -1074 ≤ exponent ∧
      significandOf number.toModel.unpack < 2 ^ 53 ∧
      exactValue number = significandOf number.toModel.unpack * 2 ^ exponent := by
  unfold exactValue
  rcases unpack_cases isFinite with
    ⟨sign, unpacked⟩ | ⟨sign, significand, exponent, proper, unpacked⟩
  · refine .inr ⟨-1074, le_rfl, ?_, ?_⟩ <;> simp [unpacked, worth, significandOf]
  · have canonical := canonical_of_unpack unpacked
    rw [unpacked]
    cases sign with
    | positive => exact .inr ⟨exponent, canonical.low, canonical.fits, rfl⟩
    | negative =>
      refine .inl (neg_neg_of_pos ?_)
      positivity

/-- What a count of steps stands for. -/
theorem worth_onGrid (place : Int) (steps : Nat) :
    worth (onGrid place steps) = steps * 2 ^ place := by
  unfold onGrid
  split
  · rename_i zero
    simp [worth, zero]
  · split
    · rename_i carried
      rw [worth, carried, zpow_add₀ two_ne_zero]
      push_cast
      ring
    · rfl

/-- The significand of an even count of steps is even. -/
theorem significandOf_onGrid (place : Int) (even : steps % 2 = 0) :
    significandOf (onGrid place steps) % 2 = 0 := by
  unfold onGrid
  split
  · rfl
  · split
    · change 2 ^ 52 % 2 = 0
      decide
    · exact even

/-- Coarser steps are at least twice as large. -/
theorem two_mul_step_le {fine coarse : Int} (less : fine < coarse) :
    (2 : ℚ) * 2 ^ fine ≤ 2 ^ coarse := by
  rw [← zpow_one_add₀ two_ne_zero]
  exact zpow_le_zpow_right₀ one_le_two (by omega)

/-- The midpoint below the first power of two out of range, in the largest steps. -/
theorem overflow_eq : overflow = (2 ^ 53 - 1 / 2) * 2 ^ (971 : Int) := by
  have next : (2 : ℚ) ^ (971 : Int) = 2 ^ 970 * 2 := (zpow_natCast 2 971).trans (pow_succ 2 970)
  rw [overflow, next, show 1024 = 970 + 54 from rfl, pow_add]
  generalize (2 : ℚ) ^ 970 = unit
  ring

/-- A number is in range if its steps are, and if it is not rounded to one step more than there
are. -/
theorem RoundsTo.lt_overflow_iff (rounds : RoundsTo value place steps) :
    value < overflow ↔ place ≤ 970 ∨ place = 971 ∧ steps ≠ 2 ^ 53 := by
  -- the steps are named, as their digits must not be computed on the way
  obtain ⟨top, isTop⟩ : ∃ top : ℚ, top = 2 ^ (971 : Int) := ⟨_, rfl⟩
  obtain ⟨step, isStep⟩ : ∃ step : ℚ, step = 2 ^ place := ⟨_, rfl⟩
  have positive : 0 < top := isTop ▸ by positivity
  have stepPositive : 0 < step := isStep ▸ by positivity
  rw [overflow_eq, ← isTop]
  rcases lt_trichotomy place 971 with small | same | large
  · have double : 2 * step ≤ top := isTop ▸ isStep ▸ two_mul_step_le small
    have fits := rounds.fits
    rw [← isStep] at fits
    exact iff_of_true (by linarith only [fits, double, positive, stepPositive]) (.inl (by omega))
  · obtain ⟨near, even⟩ := rounds.nearest
    have most := rounds.steps_le
    rw [same, ← isTop] at near even
    rw [← div_lt_iff₀ positive]
    constructor
    · intro below
      refine .inr ⟨same, ?_⟩
      rintro rfl
      have := (abs_le.1 near).2
      push_cast at this
      linarith
    · rintro (outside | ⟨-, notCarried⟩)
      · omega
      · by_contra notBelow
        have below : (steps : ℚ) ≤ (2 ^ 53 - 1 : Nat) := by exact_mod_cast (by omega)
        have above := (abs_le.1 near).1
        push_cast at below
        have tie : |(steps : ℚ) - value / top| = 1 / 2 := by
          rw [abs_of_neg] <;> linarith
        have last : ((2 ^ 53 - 1 : Nat) : ℚ) ≤ steps := by
          push_cast
          linarith
        have last : 2 ^ 53 - 1 ≤ steps := by exact_mod_cast last
        have := even tie
        omega
  · have double : 2 * top ≤ step := isTop ▸ isStep ▸ two_mul_step_le large
    have coarse := rounds.full.resolve_left (by omega)
    rw [← isStep] at coarse
    refine iff_of_false (fun below => ?_) (by omega)
    linarith only [coarse, double, positive, below]

/-- A count of steps as a double, infinite if it is too large. -/
def roundedTo (place : Int) (steps : Nat) : Float := .ofModel (.pack (onGrid place steps))

/-- A count of steps in range is unpacked as it was packed. -/
theorem RoundsTo.unpack_roundedTo (rounds : RoundsTo value place steps)
    (inRange : value < overflow) :
    (roundedTo place steps).toModel.unpack = onGrid place steps := by
  have range := rounds.lt_overflow_iff.1 inRange
  have low := rounds.low
  change (Float.Model.pack (onGrid place steps)).unpack = _
  unfold onGrid
  split
  · rfl
  · rename_i notZero
    split
    · rename_i carried
      exact unpack_pack _ ⟨by decide, by omega, by omega, .inr le_rfl⟩
    · rename_i notCarried
      have full : place = -1074 ∨ 2 ^ 52 ≤ steps := by
        by_cases finest : place = -1074
        · exact .inl finest
        · exact .inr (rounds.le_steps finest)
      have most := rounds.steps_le
      exact unpack_pack _ ⟨by omega, low, by omega, full⟩

/-- A count of steps is a finite double exactly if the number is in range. -/
theorem RoundsTo.isFinite_iff (rounds : RoundsTo value place steps) :
    (roundedTo place steps).isFinite = true ↔ value < overflow := by
  constructor
  · intro isFinite
    by_contra large
    have range := rounds.lt_overflow_iff.not.1 large
    have full := rounds.le_steps (by omega)
    have infinite : roundedTo place steps = .ofModel (.pack (.infinity .positive)) := by
      have notZero : steps ≠ 0 := by omega
      rw [roundedTo, onGrid, dif_neg notZero]
      split
      · exact congrArg Float.ofModel (pack_of_high _ (by omega))
      · exact congrArg Float.ofModel (pack_of_high _ (by omega))
    rw [infinite] at isFinite
    exact absurd isFinite (by decide +kernel)
  · intro inRange
    change (roundedTo place steps).toModel.unpack.isFinite = true
    rw [rounds.unpack_roundedTo inRange]
    unfold onGrid
    split
    · rfl
    · split <;> rfl

/-- The sign bit of a count of steps is not set. -/
theorem unsigned_roundedTo (place : Int) (steps : Nat) :
    (roundedTo place steps).toBits.toNat < 2 ^ 63 := by
  have components (exponent : BitVec 11) (fraction : BitVec 52) :
      (packComponents Format.binary64 .positive exponent fraction).toNat < 2 ^ 63 := by
    change ((0#1 ++ exponent) ++ fraction).toNat < 2 ^ 63
    have high : (0#1 ++ exponent).toNat < 2 ^ 11 := by
      rw [BitVec.toNat_append, BitVec.toNat_zero, Nat.zero_shiftLeft, Nat.zero_or]
      exact exponent.isLt
    rw [BitVec.toNat_append, Nat.shiftLeft_eq, Nat.mul_comm,
      ← Nat.two_pow_add_eq_or_of_lt fraction.isLt]
    have := fraction.isLt
    omega
  change (pack Format.binary64 (onGrid place steps)).toNat < 2 ^ 63
  unfold onGrid
  split
  · exact components _ _
  · split
    all_goals
      rw [pack]
      dsimp only
      split
      · exact components _ _
      · split <;> exact components _ _

/-- A double is a step, and then its significand is odd only if the step is; or there is a step
between it and the number. -/
theorem RoundsTo.step_or_beyond (rounds : RoundsTo value place steps)
    (isFinite : other.isFinite = true) :
    (∃ count : Int, exactValue other = count * 2 ^ place ∧
      (count % 2 = 1 → significandOf other.toModel.unpack % 2 = 1)) ∨
    ∃ count : Int, exactValue other < count * 2 ^ place ∧ count * 2 ^ place ≤ value := by
  rcases exactValue_cases isFinite with negative | ⟨exponent, low, fits, same⟩
  · exact .inr ⟨0, by simpa using negative, by simpa using rounds.nonneg⟩
  · generalize significandOf other.toModel.unpack = significand at fits same ⊢
    by_cases fine : exponent < place
    · refine .inr ⟨2 ^ 52, ?_, ?_⟩
      · have double := two_mul_step_le fine
        have unit : (0 : ℚ) < 2 ^ exponent := by positivity
        have fits : (significand : ℚ) < 2 ^ 53 := by exact_mod_cast fits
        rw [same]
        push_cast
        calc (significand : ℚ) * 2 ^ exponent < 2 ^ 53 * 2 ^ exponent := by gcongr
          _ = 2 ^ 52 * (2 * 2 ^ exponent) := by ring
          _ ≤ 2 ^ 52 * 2 ^ place := by gcongr
      · push_cast
        exact rounds.full.resolve_left (by omega)
    · obtain ⟨shift, isShift⟩ : ∃ shift : Nat, exponent = place + shift :=
        ⟨(exponent - place).toNat, by omega⟩
      refine .inl ⟨significand * 2 ^ shift, ?_, fun odd => ?_⟩
      · rw [same, isShift, zpow_add₀ two_ne_zero, zpow_natCast]
        push_cast
        ring
      · cases shift with
        | zero => omega
        | succ shift => rw [pow_succ, ← mul_assoc] at odd; omega

/-- A finite double is farther from a number than the nearest step, or it is this step, or it is as
near and odd while this step is even. -/
theorem RoundsTo.compare (rounds : RoundsTo value place steps) (isFinite : other.isFinite = true) :
    |steps * 2 ^ place - value| < |exactValue other - value| ∨
    exactValue other = steps * 2 ^ place ∨
    (|exactValue other - value| = |steps * 2 ^ place - value| ∧ steps % 2 = 0 ∧
      significandOf other.toModel.unpack % 2 = 1) := by
  have unit : (0 : ℚ) < 2 ^ place := by positivity
  have scaled (count : ℚ) :
      |count * 2 ^ place - value| = |count - value / 2 ^ place| * 2 ^ place := by
    rw [← abs_of_pos unit, ← abs_mul, abs_of_pos unit, sub_mul, div_mul_cancel₀ _ unit.ne']
  have closest (count : Int) : |steps * 2 ^ place - value| ≤ |count * 2 ^ place - value| := by
    rw [scaled, scaled]
    exact mul_le_mul_of_nonneg_right (rounds.nearest.closest count) unit.le
  rcases rounds.step_or_beyond isFinite with ⟨count, same, odd⟩ | ⟨count, beyond, between⟩
  · by_cases isStep : count = steps
    · exact .inr (.inl (by rw [same, isStep, Int.cast_natCast]))
    · rw [same]
      rcases (closest count).lt_or_eq with farther | tie
      · exact .inl farther
      · rw [scaled, scaled] at tie
        have tie := mul_right_cancel₀ unit.ne' tie
        obtain ⟨isEven, isOdd⟩ := rounds.nearest.odd_of_tie isStep tie.symm
        exact .inr (.inr ⟨by rw [scaled, scaled, tie], isEven, odd isOdd⟩)
  · refine .inl ((closest count).trans_lt ?_)
    rw [abs_of_nonpos (by linarith), abs_of_neg (by linarith)]
    linarith

/-- Rounding to a grid gives the nearest double. -/
theorem RoundsTo.isNearest (rounds : RoundsTo value place steps) (inRange : value < overflow) :
    IsNearest value (roundedTo place steps) := by
  have unpacked := rounds.unpack_roundedTo inRange
  have same : exactValue (roundedTo place steps) = steps * 2 ^ place := by
    rw [exactValue, unpacked, worth_onGrid]
  refine ⟨inRange, rounds.isFinite_iff.2 inRange, unsigned_roundedTo place steps, ?_, ?_⟩
  · intro other isFinite
    rw [same]
    rcases rounds.compare isFinite with farther | isStep | ⟨tie, -⟩
    · exact farther.le
    · rw [isStep]
    · exact tie.ge
  · intro other isFinite differs tie
    rw [same] at differs tie
    rw [unpacked]
    rcases rounds.compare isFinite with farther | isStep | ⟨-, isEven, -⟩
    · exact absurd tie farther.ne'
    · exact absurd isStep differs
    · exact significandOf_onGrid place isEven

/-- A finite double whose sign bit is not set is zero or positive. -/
theorem unpack_cases_of_unsigned (isFinite : number.isFinite = true)
    (unsigned : number.toBits.toNat < 2 ^ 63) :
    number.toModel.unpack = .zero .positive ∨ ∃ significand exponent positive,
      number.toModel.unpack = .finite .positive significand exponent positive := by
  have noSign : @unpackSign Format.binary64 number.toModel.toBits.toBitVec = 0#1 := by
    apply BitVec.eq_of_toNat_eq
    change (number.toModel.toBits.toBitVec.extractLsb' 63 1).toNat = 0
    rw [BitVec.extractLsb'_toNat, Nat.shiftRight_eq_div_pow]
    change number.toBits.toNat / 2 ^ 63 % 2 = 0
    omega
  have plus : Sign.ofBitVec 0#1 = .positive := rfl
  change (unpack Format.binary64 _).isFinite = true at isFinite
  simp only [Float.Model.unpack, unpack, noSign, plus] at isFinite ⊢
  split at isFinite
  · split at isFinite <;> cases isFinite
  · rename_i ordinary
    rw [if_neg ordinary]
    split
    · split
      · exact .inl rfl
      · rename_i notZero
        have proper := (BitVec.toNat_pos _).2 ((BitVec.pos_iff_ne_zero _).2 notZero)
        exact .inr ⟨_, _, proper, rfl⟩
    · exact .inr ⟨_, _, (Nat.two_pow_pos 52).trans_le (le_toNat_append_one _), rfl⟩

/-- The parts of a finite double are known from what they stand for. -/
theorem IsCanonical.eq_of_worth {first second : Nat} {low high : Int}
    (isFirst : IsCanonical first low) (isSecond : IsCanonical second high)
    (ordered : low ≤ high) (same : (first : ℚ) * 2 ^ low = second * 2 ^ high) :
    first = second ∧ low = high := by
  obtain ⟨shift, isShift⟩ : ∃ shift : Nat, high = low + shift := ⟨(high - low).toNat, by omega⟩
  have unit : (2 : ℚ) ^ low ≠ 0 := by positivity
  rw [isShift, zpow_add₀ two_ne_zero, zpow_natCast, mul_comm (2 ^ low : ℚ), ← mul_assoc] at same
  have same : first = second * 2 ^ shift := by exact_mod_cast mul_right_cancel₀ unit same
  cases shift with
  | zero => exact ⟨by omega, by omega⟩
  | succ shift =>
    have full : 2 ^ 52 ≤ second := isSecond.full.resolve_left (by have := isFirst.low; omega)
    have wide : 2 * 2 ^ 52 ≤ first := by
      calc 2 * 2 ^ 52 ≤ 2 ^ shift * 2 * second := by
            gcongr
            exact Nat.le_mul_of_pos_left _ (Nat.two_pow_pos shift)
        _ = first := by rw [same, pow_succ, mul_comm]
    have := isFirst.fits
    omega

/-- A finite double whose sign bit is not set is known from what it stands for. -/
theorem eq_of_exactValue_eq {left right : Float} (leftFinite : left.isFinite = true)
    (rightFinite : right.isFinite = true) (leftUnsigned : left.toBits.toNat < 2 ^ 63)
    (rightUnsigned : right.toBits.toNat < 2 ^ 63) (same : exactValue left = exactValue right) :
    left = right := by
  have unpacked : left.toModel.unpack = right.toModel.unpack := by
    unfold exactValue at same
    rcases unpack_cases_of_unsigned leftFinite leftUnsigned with
      isZero | ⟨first, low, firstPositive, isLeft⟩ <;>
    rcases unpack_cases_of_unsigned rightFinite rightUnsigned with
      isZero' | ⟨second, high, secondPositive, isRight⟩
    · rw [isZero, isZero']
    · rw [isZero, isRight] at same
      exact absurd same (by simp only [worth]; positivity)
    · rw [isLeft, isZero'] at same
      exact absurd same (by simp only [worth]; positivity)
    · have firstCanonical := canonical_of_unpack isLeft
      have secondCanonical := canonical_of_unpack isRight
      rw [isLeft, isRight] at same ⊢
      rcases le_total low high with ordered | ordered
      · obtain ⟨rfl, rfl⟩ := firstCanonical.eq_of_worth secondCanonical ordered same
        rfl
      · obtain ⟨rfl, rfl⟩ := secondCanonical.eq_of_worth firstCanonical ordered same.symm
        rfl
  obtain ⟨⟨leftBits, leftValid⟩⟩ := left
  obtain ⟨⟨rightBits, rightValid⟩⟩ := right
  have bits : leftBits = rightBits :=
    UInt64.toBitVec_inj.1 ((unpack_inj_of_valid leftValid rightValid).1 unpacked)
  subst bits
  rfl

/-- Only one double is nearest to a number that is rounded to a grid. -/
theorem RoundsTo.eq_of_isNearest (rounds : RoundsTo value place steps)
    (nearest : IsNearest value number) : number = roundedTo place steps := by
  have inRange := nearest.inRange
  have ours := rounds.isNearest inRange
  have unpacked := rounds.unpack_roundedTo inRange
  have step : exactValue (roundedTo place steps) = steps * 2 ^ place := by
    rw [exactValue, unpacked, worth_onGrid]
  refine eq_of_exactValue_eq nearest.isFinite ours.isFinite nearest.unsigned ours.unsigned ?_
  rw [step]
  by_contra differs
  rcases rounds.compare nearest.isFinite with farther | isStep | ⟨tie, -, isOdd⟩
  · have closest := nearest.closest _ ours.isFinite
    rw [step] at closest
    exact absurd closest farther.not_ge
  · exact differs isStep
  · have isEven := nearest.even _ ours.isFinite (by rw [step]; exact Ne.symm differs)
      (by rw [step, tie])
    omega

end PhysicsPrefab.Rounding
