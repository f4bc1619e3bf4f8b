import Criteria.Text
import Criteria.Number

/-!
The text of a number: the fewest decimal digits that read back as the same
number, without a power of ten. A number is read back from every decimal nearer
to it than to its neighbours, so the digits are looked for on ever finer grids
of powers of ten until one has a point in that interval.
-/

namespace Criteria.Number

/-- The decimals which are read as one number, measured in quarters of a unit.
The two ends belong to it when `closed`. -/
structure Interval where
  low : Nat
  high : Nat
  closed : Bool

namespace Interval

/-- The interval of a positive magnitude. Below a power of two the neighbours
are twice as near as above it. An end is halfway to a neighbour and is read as
the one of the two whose last bit is even. -/
def ofUnits (units : Nat) : Interval :=
  let step := spacing units
  let below := if units = twoTo units.log2 && 1 < step then step else 2 * step
  { low := 4 * units - below
    high := 4 * units + 2 * step
    closed := (units / step) % 2 == 0 }

/-- Whether `dividend / divisor` units lie in the interval. -/
def includes (interval : Interval) (dividend divisor : Nat) : Bool :=
  let point := 4 * dividend
  if interval.closed then
    interval.low * divisor ≤ point && point ≤ interval.high * divisor
  else
    interval.low * divisor < point && point < interval.high * divisor

end Interval

/-- Which multiple of `10 ^ exponent` writes a magnitude, if one does: the nearer
of the two beside it, or the other when only that one reads back. Halfway
between them the larger is the nearer. -/
def onGrid? (units : Nat) (exponent : Int) : Option Nat :=
  let grid := tenTo exponent.toNat * one
  let scale := tenTo (-exponent).toNat
  let below := units * scale / grid
  let above := below + 1
  let (first, second) :=
    if 2 * (units * scale % grid) < grid then (below, above) else (above, below)
  [first, second].find? fun times => (Interval.ofUnits units).includes (times * grid) scale

/-- Digits and a power of ten which write a magnitude with the fewest digits.
Every magnitude is exact on the grid of `10 ^ -1074`, and none is written on a
grid coarser than that of `10 ^ 309`. -/
def shortest (units : Nat) : Nat × Int :=
  let found := (List.range 1384).findSome? fun (k : Nat) =>
    let exponent := 309 - Int.ofNat k
    (onGrid? units exponent).map fun times => (times, exponent)
  found.getD (units * Nat.pow 5 1074, -1074)

/-- Writes `digits * 10 ^ exponent` without a power of ten and without zeros at
the end of its fraction. -/
def positional (digits : Nat) (exponent : Int) : Text :=
  let places := (-exponent).toNat
  let written := Text.ofNat digits ++ List.replicate exponent.toNat '0'
  let padded := List.replicate (places + 1 - written.length) '0' ++ written
  let whole := padded.take (padded.length - places)
  let fraction := (padded.drop (padded.length - places)).reverse.dropWhile (· == '0')
  if fraction.isEmpty then whole else whole ++ '.' :: fraction.reverse

def magnitudeText (units : Nat) : Text :=
  if units = 0 then ['0']
  else
    let (digits, exponent) := shortest units
    positional digits exponent

/-- The text of a number. -/
def text : Number → Text
  | .nan => ['N', 'a', 'N']
  | .infinite negative => if negative then ['-', 'i', 'n', 'f'] else ['i', 'n', 'f']
  | .finite negative units =>
      if negative then '-' :: magnitudeText units else magnitudeText units

end Criteria.Number
