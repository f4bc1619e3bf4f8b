/-!
Binary64 numbers by their exact values. Every finite binary64 number is a whole
number of units, where a unit is `2 ^ -1074`, the least positive one. So sums
and comparisons of finite numbers are integer arithmetic, and every other
operation rounds an exact quotient once.
-/

namespace Criteria

/-- A binary64 number. Zero has a sign, and `units` counts units of
`2 ^ -1074`. -/
inductive Number where
  | nan
  | infinite (negative : Bool)
  | finite (negative : Bool) (units : Nat)
deriving DecidableEq, Repr

namespace Number

def twoTo (exponent : Nat) : Nat := Nat.pow 2 exponent

def tenTo (exponent : Nat) : Nat := Nat.pow 10 exponent

/-- The number of units in one. -/
def one : Nat := twoTo 1074

/-- All finite magnitudes lie below this number of units. -/
def limit : Nat := twoTo 2098

/-- The whole number nearest to a quotient. Of two that are equally near the
even one is taken. -/
def roundQuotient (dividend divisor : Nat) : Nat :=
  let quotient := dividend / divisor
  let double := 2 * (dividend % divisor)
  if double < divisor then quotient
  else if divisor < double then quotient + 1
  else quotient + quotient % 2

/-- The distance between neighbouring numbers at a magnitude: a number keeps
53 significant bits. -/
def spacing (units : Nat) : Nat :=
  twoTo (units.log2 + 1 - 53)

/-- The number nearest to `dividend / divisor` units. -/
def ofUnits (negative : Bool) (dividend divisor : Nat) : Number :=
  let step := spacing (dividend / divisor)
  let units := roundQuotient dividend (divisor * step) * step
  if units < limit then .finite negative units else .infinite negative

/-- The number nearest to `dividend / divisor`. -/
def ofRatio (negative : Bool) (dividend divisor : Nat) : Number :=
  ofUnits negative (dividend * one) divisor

def ofInt (n : Int) : Number :=
  ofRatio (n < 0) n.natAbs 1

def ofNat (n : Nat) : Number :=
  ofRatio false n 1

def zero : Number := .finite false 0

def isZero : Number → Bool
  | .finite _ units => units == 0
  | _ => false

def neg : Number → Number
  | .nan => .nan
  | .infinite negative => .infinite (!negative)
  | .finite negative units => .finite (!negative) units

def mul : Number → Number → Number
  | .nan, _ | _, .nan => .nan
  | .infinite m, .infinite n => .infinite (m != n)
  | .infinite m, .finite n units | .finite m units, .infinite n =>
      if units = 0 then .nan else .infinite (m != n)
  | .finite m a, .finite n b => ofUnits (m != n) (a * b) one

def div : Number → Number → Number
  | .nan, _ | _, .nan => .nan
  | .infinite _, .infinite _ => .nan
  | .infinite m, .finite n _ => .infinite (m != n)
  | .finite m _, .infinite n => .finite (m != n) 0
  | .finite m a, .finite n b =>
      if b = 0 then
        if a = 0 then .nan else .infinite (m != n)
      else ofUnits (m != n) (a * one) b

/-- The signed count of units. -/
def signed (negative : Bool) (units : Nat) : Int :=
  if negative then -(units : Int) else units

/-- Two finite numbers count as equal when their difference, rounded to a
number, is below `2 ^ -52`. The rounded difference is below that bound exactly
when the exact one is below the middle between the bound and the number before
it, which is this number of units. -/
def tolerance : Nat := twoTo 1022 - twoTo 968

/-- The order of two numbers. NaN has no place in it. -/
def compare : Number → Number → Option Ordering
  | .nan, _ | _, .nan => none
  | .infinite m, .infinite n =>
      some (if m = n then .eq else if m then .lt else .gt)
  | .infinite m, .finite _ _ => some (if m then .lt else .gt)
  | .finite _ _, .infinite n => some (if n then .gt else .lt)
  | .finite m a, .finite n b =>
      let x := signed m a
      let y := signed n b
      some (if (x - y).natAbs < tolerance then .eq else Ord.compare x y)

/-- The greatest position in a list that a numeral can name; larger ones are
read as this one. -/
def maxIndex : Nat := twoTo 64 - 1

/-- The list position a number names: it must be whole and not below zero. -/
def index? : Number → Option Nat
  | .finite negative units =>
      if negative && units != 0 then none
      else if units % one = 0 then some (min (units / one) maxIndex)
      else none
  | _ => none

end Number

end Criteria
