import ProviderMock.Double
import ProviderMock.Text.Digits

/-!
# Shortest decimals

The decimal with the fewest digits that reads back as a given double.

A finite double that is not zero stands for every real number nearer to it than to its neighbours;
those real numbers form an interval, whose ends belong to it when the significand is even. For one
digit, two digits and so on, the two neighbours of the double on the grid of decimals with that many
digits are tried against the interval. The first grid with a hit decides; of two hits the nearer one
is taken, and `Tie` decides between two equally near ones.
-/

namespace ProviderMock

/-- Which of two equally near decimals is taken. -/
inductive Tie where
  /-- the larger one -/
  | up
  /-- the one whose last digit is even -/
  | even
  deriving DecidableEq, Repr

/-- The decimal `digits * 10 ^ exponent`. -/
structure Decimal where
  digits : Nat
  exponent : Int
  deriving DecidableEq, Repr

namespace Decimal

/-- The same decimal without zeros at its end; `fuel` bounds their number. -/
def stripZeros : Nat → Decimal → Decimal
  | 0, d => d
  | fuel + 1, d =>
    if d.digits ≠ 0 ∧ d.digits % 10 = 0 then stripZeros fuel ⟨d.digits / 10, d.exponent + 1⟩ else d

end Decimal

namespace Double

/-- The interval of real numbers that a double stands for: `value`, `low` and `high` count units of
`unit` to a whole one, and the ends belong to it when `closed`. -/
structure Interval where
  low : Nat
  value : Nat
  high : Nat
  unit : Nat
  closed : Bool

/-- The interval of a finite double. The gap below a power of two is half as wide as the one above,
except at the smallest exponent. -/
def interval (x : Double) : Interval :=
  let m := x.significand
  -- quarters of the last place: the ends of the interval are then whole numbers
  let below := if x.fraction = 0 ∧ 1 < x.exponent then 4 * m - 1 else 4 * m - 2
  let up := twoPow (x.scale - 2)
  ⟨below * up, 4 * m * up, (4 * m + 2) * up, twoPow (2 - x.scale), m % 2 = 0⟩

/-- The exponent of the highest power of ten that is not above `num / den`. -/
def decimalExponent (num den : Nat) : Int :=
  if den ≤ num then (Text.digitCount (num / den) : Int) - 1
  else -(Text.digitCount (den / num) : Int)

namespace Interval

/-- Whether `n / d` lies in the interval, both counted in its units. -/
def contains (i : Interval) (n d : Nat) : Bool :=
  if i.closed then i.low * d ≤ n ∧ n ≤ i.high * d else i.low * d < n ∧ n < i.high * d

/-- The neighbour of the value on the grid of multiples of `10 ^ place` that lies in the interval,
the nearer one if both do. -/
def onGrid (i : Interval) (tie : Tie) (place : Int) : Option Decimal :=
  let up := tenPow place * i.unit
  let down := tenPow (-place)
  let lower := i.value * down / up
  let distance := i.value * down % up
  let takeUpper : Option Bool :=
    match i.contains (lower * up) down, i.contains ((lower + 1) * up) down with
    | true, true =>
      some (decide (up < 2 * distance ∨ (2 * distance = up ∧ (tie = Tie.up ∨ lower % 2 = 1))))
    | true, false => some false
    | false, true => some true
    | false, false => none
  takeUpper.map fun upper => ⟨bif upper then lower + 1 else lower, place⟩

/-- The first hit on the grids from `digits` digits up, `fuel` grids at most. -/
def firstHit (i : Interval) (tie : Tie) (exponent : Int) : Nat → Nat → Decimal
  | 0, _ => ⟨0, 0⟩
  | fuel + 1, digits =>
    match i.onGrid tie (exponent - digits + 1) with
    | some d => d
    | none => firstHit i tie exponent fuel (digits + 1)

end Interval

/-- The shortest decimal that reads back as a finite double that is not zero, without its sign.
Seventeen digits are always enough. -/
def shortest (x : Double) (tie : Tie) : Decimal :=
  let i := x.interval
  (i.firstHit tie (decimalExponent i.value i.unit) 17 1).stripZeros 17

end Double

end ProviderMock
