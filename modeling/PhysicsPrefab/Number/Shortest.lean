/-!
# Shortest decimals

A finite double stands for an interval of reals: all those that round to it. This module finds
the decimal `coefficient · 10 ^ exponent` with the fewest digits in that interval and, of those
on the coarsest grid `10 ^ exponent` that meets the interval, the one nearest to the double.
All of it is exact arithmetic on natural numbers, read off the bits of the double.
-/

namespace PhysicsPrefab

/-- The decimal number `coefficient · 10 ^ exponent`. -/
structure Decimal where
  /-- Its digits, as one natural number. -/
  coefficient : Nat
  /-- The power of ten of its last digit. -/
  exponent : Int
deriving DecidableEq, Repr

/-- Which of two decimals at equal distance from a double is written. -/
inductive Tie where
  /-- The larger one. -/
  | up
  /-- The one whose last digit is even. -/
  | even
deriving DecidableEq, Repr

/-- The magnitude `significand · 2 ^ exponent` of a finite double. -/
structure Magnitude where
  /-- The integer significand, below `2 ^ 53`. -/
  significand : Nat
  /-- The power of two of its last bit. -/
  exponent : Int
  /-- Whether the neighbour below is only half a step away, as it is at a power of two. -/
  narrowBelow : Bool
deriving DecidableEq, Repr

namespace Magnitude

/-- The magnitude in the bits of a finite double: eleven exponent bits above 52 fraction bits,
the exponent zero marking the numbers without the leading one. -/
def ofBits (bits : UInt64) : Magnitude :=
  let unit : Nat := 1 <<< 52
  let fraction : Nat := bits.toNat % unit
  let biased : Nat := bits.toNat / unit % (1 <<< 11)
  if biased = 0 then ⟨fraction, -1074, false⟩
  else ⟨unit + fraction, (biased : Int) - 1075, fraction == 0 && biased != 1⟩

/-- The position of a grid `10 ^ grid` against quarter steps of the magnitude: multiplying a
count of quarter steps by `steps`, and a grid point by `points`, brings both to one unit. -/
def scales (magnitude : Magnitude) (grid : Int) : Nat × Nat :=
  let quarter := magnitude.exponent - 2
  (Nat.pow 2 quarter.toNat * Nat.pow 10 (-grid).toNat,
    Nat.pow 2 (-quarter).toNat * Nat.pow 10 grid.toNat)

/-- Whether the grid point `point · 10 ^ grid` rounds to the magnitude: it lies within half a
step, the ends counting when the significand is even. -/
def covers (magnitude : Magnitude) (grid : Int) (point : Nat) : Bool :=
  let (steps, points) := magnitude.scales grid
  let value := 4 * magnitude.significand
  let low := (value - if magnitude.narrowBelow then 1 else 2) * steps
  let high := (value + 2) * steps
  let place := point * points
  if magnitude.significand % 2 = 0 then low ≤ place && place ≤ high
  else low < place && place < high

/-- The grid point nearest to the magnitude among its two neighbours on the grid, if one of
them rounds to it. -/
def nearest? (magnitude : Magnitude) (tie : Tie) (grid : Int) : Option Nat :=
  let (steps, points) := magnitude.scales grid
  let value := 4 * magnitude.significand * steps
  let below := value / points
  let above := below + 1
  match magnitude.covers grid below && below != 0, magnitude.covers grid above with
  | false, false => none
  | true, false => some below
  | false, true => some above
  | true, true =>
    let gapBelow := value - below * points
    let gapAbove := above * points - value
    if gapBelow < gapAbove then some below
    else if gapAbove < gapBelow then some above
    else match tie with
      | .up => some above
      | .even => if below % 2 = 0 then some below else some above

/-- The search from a coarse grid down to finer ones; `fuel` more grids are tried before the
exact value, which lies on every grid at or below the last. -/
def search (magnitude : Magnitude) (tie : Tie) : Nat → Int → Decimal
  | 0, grid =>
    let (steps, points) := magnitude.scales grid
    ⟨4 * magnitude.significand * steps / points, grid⟩
  | fuel + 1, grid =>
    match magnitude.nearest? tie grid with
    | some point => ⟨point, grid⟩
    | none => search magnitude tie fuel (grid - 1)

/-- The shortest decimal that rounds to the magnitude; zero is `0 · 10 ^ 0`. The search starts
at a power of ten above the magnitude, because `30103 / 100000` is just above `log 2 / log 10`,
and reaches a grid that holds the magnitude itself. -/
def shortest (magnitude : Magnitude) (tie : Tie) : Decimal :=
  if magnitude.significand = 0 then ⟨0, 0⟩
  else
    let bound := magnitude.exponent + magnitude.significand.log2 + 1
    let coarsest := bound * 30103 / 100000 + 1
    let finest := min (magnitude.exponent - 2) 0
    search magnitude tie (coarsest - finest).toNat coarsest

end Magnitude

end PhysicsPrefab
