import Mathlib
import PhysicsPrefab.Number.Shortest

/-!
# Shortest decimals are small

The shortest decimal of a magnitude is at most half a step above it (`shortest_reaches`), so the
leading digits of the decimal of a finite double leave room for three roundings, unless the double
is one of the six largest (`Reaches.room`).
-/

namespace PhysicsPrefab.Magnitude

variable {magnitude : Magnitude}

/-- A decimal is at most half a step above a magnitude, both counted in the unit of its grid. -/
def Reaches (magnitude : Magnitude) (decimal : Decimal) : Prop :=
  decimal.coefficient * (magnitude.scales decimal.exponent).2 ≤
    (4 * magnitude.significand + 2) * (magnitude.scales decimal.exponent).1

/-- A grid point that rounds to a magnitude is at most half a step above it. -/
theorem reaches_of_covers {grid : Int} {point : Nat} (covered : magnitude.covers grid point = true) :
    magnitude.Reaches ⟨point, grid⟩ := by
  simp only [covers] at covered
  unfold Reaches
  split at covered
  · simp only [Bool.and_eq_true, decide_eq_true_eq] at covered
    exact covered.2
  · simp only [Bool.and_eq_true, decide_eq_true_eq] at covered
    exact covered.2.le

/-- The grid point nearest to a magnitude rounds to it and is not zero. -/
theorem nearest?_spec {tie : Tie} {grid : Int} {point : Nat}
    (found : magnitude.nearest? tie grid = some point) :
    magnitude.covers grid point = true ∧ 0 < point := by
  simp only [nearest?] at found
  generalize 4 * magnitude.significand * (magnitude.scales grid).1 / (magnitude.scales grid).2 = low
    at found
  split at found
  case h_1 => contradiction
  case h_2 below _ =>
    obtain rfl := Option.some.inj found
    exact (Bool.and_eq_true_iff.1 below).imp_right fun proper => Nat.pos_of_ne_zero (bne_iff_ne.1 proper)
  case h_3 _ above =>
    obtain rfl := Option.some.inj found
    exact ⟨above, Nat.succ_pos _⟩
  case h_4 below above =>
    have below := (Bool.and_eq_true_iff.1 below).imp_right fun proper =>
      Nat.pos_of_ne_zero (bne_iff_ne.1 proper)
    have above : magnitude.covers grid (low + 1) = true ∧ 0 < low + 1 := ⟨above, Nat.succ_pos low⟩
    split at found
    · exact Option.some.inj found ▸ below
    · split at found
      · exact Option.some.inj found ▸ above
      · cases tie with
        | up => exact Option.some.inj found ▸ above
        | even =>
          dsimp only at found
          split at found
          · exact Option.some.inj found ▸ below
          · exact Option.some.inj found ▸ above

/-- What the search finds is at most half a step above the magnitude. -/
theorem search_reaches (tie : Tie) (fuel : Nat) (grid : Int) :
    magnitude.Reaches (magnitude.search tie fuel grid) := by
  induction fuel generalizing grid with
  | zero =>
    unfold Reaches search
    refine (Nat.div_mul_le_self _ _).trans ?_
    rw [Nat.add_mul]
    exact Nat.le_add_right _ _
  | succ fuel ih =>
    rw [search]
    cases found : magnitude.nearest? tie grid with
    | none => exact ih (grid - 1)
    | some point => exact reaches_of_covers (nearest?_spec found).1

/-- The shortest decimal of a magnitude is at most half a step above it. -/
theorem shortest_reaches (magnitude : Magnitude) (tie : Tie) :
    magnitude.Reaches (magnitude.shortest tie) := by
  rw [shortest]
  split
  · unfold Reaches
    simp
  · exact search_reaches tie _ _

/-- The search does not find zero if its last grid is as fine as the magnitude. -/
theorem search_positive (positive : 0 < magnitude.significand) (tie : Tie) {fuel : Nat} {grid : Int}
    (fine : grid - fuel ≤ min (magnitude.exponent - 2) 0) :
    0 < (magnitude.search tie fuel grid).coefficient := by
  induction fuel generalizing grid with
  | zero =>
    have enough : 2 ^ (-(magnitude.exponent - 2)).toNat * 10 ^ grid.toNat ≤
        4 * magnitude.significand * (2 ^ (magnitude.exponent - 2).toNat * 10 ^ (-grid).toNat) := by
      rw [show grid.toNat = 0 by omega, Nat.pow_zero, Nat.mul_one]
      calc 2 ^ (-(magnitude.exponent - 2)).toNat ≤ 2 ^ (-grid).toNat :=
            Nat.pow_le_pow_right (by decide) (by omega)
        _ ≤ 10 ^ (-grid).toNat := Nat.pow_le_pow_left (by decide) _
        _ ≤ 2 ^ (magnitude.exponent - 2).toNat * 10 ^ (-grid).toNat :=
            Nat.le_mul_of_pos_left _ (Nat.two_pow_pos _)
        _ ≤ _ := Nat.le_mul_of_pos_left _ (by omega)
    exact Nat.div_pos enough (Nat.mul_pos (Nat.two_pow_pos _) (Nat.pow_pos (by decide)))
  | succ fuel ih =>
    rw [search]
    cases found : magnitude.nearest? tie grid with
    | none => exact ih (by omega)
    | some point => exact (nearest?_spec found).2

/-- The shortest decimal of a magnitude is zero only if the magnitude is. -/
theorem shortest_positive (magnitude : Magnitude) (tie : Tie) :
    0 < (magnitude.shortest tie).coefficient ∨ magnitude.shortest tie = ⟨0, 0⟩ := by
  rw [shortest]
  split
  · exact .inr rfl
  · exact .inl (search_positive (by omega) tie (by omega))

/-- A magnitude is that of a finite double which is not one of the six largest. -/
structure IsModerate (magnitude : Magnitude) : Prop where
  /-- The significand has 53 bits. -/
  fits : magnitude.significand < 2 ^ 53
  /-- The exponent is in range. -/
  inRange : magnitude.exponent ≤ 971
  /-- The largest exponent leaves six significands above. -/
  below : magnitude.exponent = 971 → magnitude.significand + 6 < 2 ^ 53

/-- One of the six largest magnitudes. -/
def largest (distance : Nat) : Magnitude := ⟨2 ^ 53 - 1 - distance, 971, false⟩

open Float.Model in
/-- The exponent bits of a finite double are not all set. -/
theorem exponentBits_ne {number : Float} (isFinite : number.isFinite = true) :
    number.toBits.toNat / 2 ^ 52 % 2 ^ 11 ≠ 2047 := by
  intro same
  have bits : @UnpackedFloat.unpackExponent Format.binary64 number.toBits.toBitVec =
      -1#(Format.binary64.exponentBits) := by
    apply BitVec.eq_of_toNat_eq
    change (number.toBits.toBitVec.extractLsb' 52 11).toNat = 2047
    rw [BitVec.extractLsb'_toNat, Nat.shiftRight_eq_div_pow]
    exact same
  change (UnpackedFloat.unpack Format.binary64 number.toBits.toBitVec).isFinite = true at isFinite
  simp only [UnpackedFloat.unpack, if_pos bits] at isFinite
  split at isFinite <;> contradiction

/-- The magnitude of a finite double is moderate or one of the six largest. -/
theorem ofBits_cases {number : Float} (isFinite : number.isFinite = true) :
    (ofBits number.toBits).IsModerate ∨ ∃ distance < 6, ofBits number.toBits = largest distance := by
  have ordinary := exponentBits_ne isFinite
  have fractionFits : number.toBits.toNat % 2 ^ 52 < 2 ^ 52 := Nat.mod_lt _ (Nat.two_pow_pos 52)
  have biasedFits : number.toBits.toNat / 2 ^ 52 % 2 ^ 11 < 2 ^ 11 :=
    Nat.mod_lt _ (Nat.two_pow_pos 11)
  have eq : ofBits number.toBits = if number.toBits.toNat / 2 ^ 52 % 2 ^ 11 = 0 then
      ⟨number.toBits.toNat % 2 ^ 52, -1074, false⟩
    else ⟨2 ^ 52 + number.toBits.toNat % 2 ^ 52,
      (number.toBits.toNat / 2 ^ 52 % 2 ^ 11 : Nat) - 1075,
      number.toBits.toNat % 2 ^ 52 == 0 && number.toBits.toNat / 2 ^ 52 % 2 ^ 11 != 1⟩ := rfl
  rw [eq]
  generalize number.toBits.toNat % 2 ^ 52 = fraction at fractionFits
  generalize number.toBits.toNat / 2 ^ 52 % 2 ^ 11 = biased at biasedFits ordinary
  by_cases subnormal : biased = 0
  · rw [if_pos subnormal]
    exact .inl ⟨by change fraction < 2 ^ 53; omega, by change (-1074 : Int) ≤ 971; omega,
      by change (-1074 : Int) = 971 → _; omega⟩
  · rw [if_neg subnormal]
    by_cases last : biased = 2046 ∧ 2 ^ 52 - 6 ≤ fraction
    · refine .inr ⟨2 ^ 52 - 1 - fraction, by omega, ?_⟩
      have notZero : (fraction == 0) = false := by simpa using (by omega : fraction ≠ 0)
      rw [largest, notZero, Bool.false_and, Magnitude.mk.injEq]
      exact ⟨by omega, by omega, rfl⟩
    · exact .inl ⟨by change 2 ^ 52 + fraction < 2 ^ 53; omega,
        by change (biased : Int) - 1075 ≤ 971; omega,
        by change (biased : Int) - 1075 = 971 → 2 ^ 52 + fraction + 6 < 2 ^ 53; omega⟩

/-- Leading digits of a decimal that a magnitude reaches: some digits are dropped, and the power of
ten is the place of the last digit that is left. -/
structure Leads (digits place : Nat) (decimal : Decimal) : Prop where
  /-- The digits in front are those of the decimal, or fewer. -/
  exists_dropped : ∃ dropped : Nat, place = decimal.exponent + dropped ∧
    digits * 10 ^ dropped ≤ decimal.coefficient

/-- The leading digits of a decimal are at most as much as the magnitude and half a step. -/
theorem Reaches.leading_le {decimal : Decimal} (reaches : magnitude.Reaches decimal)
    {digits place : Nat} (leads : Leads digits place decimal) :
    digits * 10 ^ place ≤ (4 * magnitude.significand + 2) * 2 ^ (magnitude.exponent - 2).toNat := by
  obtain ⟨dropped, isPlace, few⟩ := leads.exists_dropped
  have unit : 0 < 10 ^ (-decimal.exponent).toNat := Nat.pow_pos (by decide)
  have pieces : 10 ^ place * 10 ^ (-decimal.exponent).toNat =
      10 ^ dropped * 10 ^ decimal.exponent.toNat := by
    rw [← Nat.pow_add, ← Nat.pow_add]
    congr 1
    omega
  have bound : decimal.coefficient * (2 ^ (-(magnitude.exponent - 2)).toNat *
      10 ^ decimal.exponent.toNat) ≤ (4 * magnitude.significand + 2) *
        (2 ^ (magnitude.exponent - 2).toNat * 10 ^ (-decimal.exponent).toNat) := reaches
  refine Nat.le_of_mul_le_mul_right ?_ unit
  calc digits * 10 ^ place * 10 ^ (-decimal.exponent).toNat
      = digits * 10 ^ dropped * 10 ^ decimal.exponent.toNat := by
        rw [Nat.mul_assoc, pieces, Nat.mul_assoc]
    _ ≤ decimal.coefficient * 10 ^ decimal.exponent.toNat := Nat.mul_le_mul_right _ few
    _ ≤ decimal.coefficient * (2 ^ (-(magnitude.exponent - 2)).toNat *
          10 ^ decimal.exponent.toNat) := by
        refine Nat.mul_le_mul_left _ (Nat.le_mul_of_pos_left _ (Nat.two_pow_pos _))
    _ ≤ (4 * magnitude.significand + 2) * 2 ^ (magnitude.exponent - 2).toNat *
          10 ^ (-decimal.exponent).toNat := by rwa [Nat.mul_assoc (4 * _ + 2)]

/-- The leading digits of the decimal of a moderate magnitude leave room for three roundings. -/
theorem Reaches.room {decimal : Decimal} (reaches : magnitude.Reaches decimal)
    (moderate : magnitude.IsModerate) {digits place : Nat} (leads : Leads digits place decimal) :
    digits * 10 ^ place * (2 ^ 52 + 1) ^ 3 < 2 ^ 1024 * 2 ^ 156 := by
  obtain ⟨fits, inRange, below⟩ := moderate
  have bound := reaches.leading_le leads
  obtain ⟨top, isTop⟩ : ∃ top : Nat, top = 969 := ⟨_, rfl⟩
  by_cases last : magnitude.exponent = 971
  · have most : 4 * magnitude.significand + 2 ≤ 2 ^ 55 - 26 := by
      have := below last
      omega
    calc digits * 10 ^ place * (2 ^ 52 + 1) ^ 3
        ≤ (2 ^ 55 - 26) * 2 ^ top * (2 ^ 52 + 1) ^ 3 := by
          refine Nat.mul_le_mul_right _ (bound.trans (Nat.mul_le_mul most ?_))
          exact Nat.pow_le_pow_right (by decide) (by omega)
      _ < 2 ^ 1024 * 2 ^ 156 := by
          rw [isTop]
          decide +kernel
  · have most : 4 * magnitude.significand + 2 ≤ 2 ^ 55 := by omega
    calc digits * 10 ^ place * (2 ^ 52 + 1) ^ 3
        ≤ 2 ^ 55 * 2 ^ (top - 1) * (2 ^ 52 + 1) ^ 3 := by
          refine Nat.mul_le_mul_right _ (bound.trans (Nat.mul_le_mul most ?_))
          exact Nat.pow_le_pow_right (by decide) (by omega)
      _ < 2 ^ 1024 * 2 ^ 156 := by
          rw [isTop]
          decide +kernel

end PhysicsPrefab.Magnitude
