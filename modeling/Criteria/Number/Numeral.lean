import Criteria.Text
import Criteria.Number

/-!
Reading numerals. A numeral is a sign, digits with an optional point, and an
optional power of ten, or the name of an infinity or of NaN. Its value is the
number nearest to what is written.
-/

namespace Criteria.Number

/-- The whole number that a row of digits denotes. -/
def ofDigits (digits : Text) : Nat :=
  Nat.ofDigitChars 10 digits 0

/-- The number nearest to `digits * 10 ^ exponent`. Powers far outside the range
of numbers are not worked out: there the answer is an infinity or zero. -/
def ofDecimal (negative : Bool) (digits : Text) (exponent : Int) : Number :=
  let value := ofDigits digits
  if value = 0 then .finite negative 0
  else if 400 < exponent then .infinite negative
  else if exponent + digits.length < -400 then .finite negative 0
  else ofRatio negative (value * tenTo exponent.toNat) (tenTo (-exponent).toNat)

/-- Splits a minus off a text, if it starts with one. -/
def splitMinus (text : Text) : Bool × Text :=
  match text with
  | '-' :: rest => (true, rest)
  | rest => (false, rest)

theorem splitMinus_le (text : Text) : (splitMinus text).2.length ≤ text.length := by
  unfold splitMinus
  split <;> simp

/-- Splits a plus or a minus off a text, if it starts with one. -/
def splitSign (text : Text) : Bool × Text :=
  match text with
  | '+' :: rest => (false, rest)
  | rest => splitMinus rest

theorem splitSign_le (text : Text) : (splitSign text).2.length ≤ text.length := by
  unfold splitSign
  split
  · simp
  · exact splitMinus_le text

/-- Splits a point and the digits after it off a text, if it starts with a
point. -/
def splitFraction (text : Text) : Text × Text :=
  match text with
  | '.' :: rest => (rest.takeWhile Char.isDigit, rest.dropWhile Char.isDigit)
  | rest => ([], rest)

theorem splitFraction_le (text : Text) : (splitFraction text).2.length ≤ text.length := by
  unfold splitFraction
  split
  · next rest =>
    have fraction : (rest.dropWhile Char.isDigit).length ≤ rest.length :=
      (List.dropWhile_sublist _).length_le
    simp only [List.length_cons]
    omega
  · simp

/-- Reads the power of ten at the end of a numeral: nothing, or `e` and a whole
number with an optional sign. -/
def readExponent? : Text → Option Int
  | [] => some 0
  | e :: rest =>
      let (negative, digits) := splitSign rest
      if (e = 'e' || e = 'E') && !digits.isEmpty && digits.all Char.isDigit then
        some (if negative then -(ofDigits digits : Int) else ofDigits digits)
      else
        none

/-- Reads digits with an optional point and an optional power of ten. -/
def readUnsigned? (negative : Bool) (text : Text) : Option Number := do
  let whole := text.takeWhile Char.isDigit
  let (fraction, rest) := splitFraction (text.dropWhile Char.isDigit)
  let exponent ← readExponent? rest
  if (whole ++ fraction).isEmpty then none
  else some (ofDecimal negative (whole ++ fraction) (exponent - fraction.length))

/-- Reads the names of the numbers that have no digits, in any case. -/
def readName? (negative : Bool) (text : Text) : Option Number :=
  let name := text.map Char.toLower
  if name = ['i', 'n', 'f'] || name = ['i', 'n', 'f', 'i', 'n', 'i', 't', 'y'] then
    some (.infinite negative)
  else if name = ['n', 'a', 'n'] then some .nan
  else none

/-- Reads a whole text as a numeral. -/
def read? (text : Text) : Option Number :=
  let (negative, body) := splitSign text
  (readName? negative body).or (readUnsigned? negative body)

end Criteria.Number
