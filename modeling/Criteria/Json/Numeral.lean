import Criteria.Json
import Criteria.Number.Numeral

/-!
JSON numerals. The digits are gathered in a whole number of 64 bits as long as
they fit, and that number is then multiplied or divided by a power of ten. Both
steps round, so the value may differ from the nearest number in its last bit.
-/

namespace Criteria.Json

/-- A numeral in its parts. -/
structure Numeral where
  negative : Bool
  whole : Text
  fraction : Text
  exponent : Option Int

namespace Numeral

/-- The greatest number gathered from digits. -/
def maxGathered : Nat := Number.twoTo 64 - 1

/-- Appends digits to a number until one no longer fits, and counts the digits
left over. -/
def gather : Nat → Text → Nat × Nat
  | n, [] => (n, 0)
  | n, digit :: rest =>
      let longer := 10 * n + (digit.toNat - '0'.toNat)
      if longer ≤ maxGathered then gather longer rest
      else (n, rest.length + 1)

/-- Divides by ten to the power `places`. One division reaches no further than
`10 ^ 308`, and zero is not divided again. -/
def shrink (n : Number) (places : Nat) : Number :=
  if places ≤ 308 then n.div (.ofNat (Number.tenTo places))
  else if n.isZero then n
  else shrink (n.div (.ofNat (Number.tenTo 308))) (places - 308)
termination_by places
decreasing_by omega

/-- The number for `digits * 10 ^ exponent`, unless it is too large. -/
def scale? (digits : Nat) (exponent : Int) : Option Number :=
  let n := Number.ofNat digits
  if exponent < 0 then some (shrink n exponent.natAbs)
  else if exponent ≤ 308 then
    match n.mul (.ofNat (Number.tenTo exponent.toNat)) with
    | .infinite _ => none
    | product => some product
  else if digits = 0 then some n
  else none

/-- The value of a numeral, unless it is too large. -/
def value? (numeral : Numeral) : Option Json :=
  let (whole, left) := gather 0 numeral.whole
  let signed (n : Number) : Json := .number (if numeral.negative then n.neg else n)
  match numeral.fraction, numeral.exponent, left with
  | [], none, 0 =>
      if numeral.negative then
        if whole = 0 || Number.twoTo 63 < whole then some (signed (.ofNat whole))
        else some (.integer (-whole))
      else some (.integer whole)
  | fraction, exponent, left =>
      let (digits, unread) := gather whole fraction
      let places := (fraction.length : Int) - unread
      (scale? digits (exponent.getD 0 + left - places)).map signed

/-- Splits the digits off the start of a text. There must be at least one. -/
def digits? (text : Text) : Option (Text × Text) :=
  match text.takeWhile Char.isDigit with
  | [] => none
  | digits => some (digits, text.dropWhile Char.isDigit)

def fraction? (text : Text) : Option (Text × Text) :=
  match text with
  | '.' :: rest => digits? rest
  | rest => some ([], rest)

def exponent? (text : Text) : Option (Option Int × Text) :=
  match text with
  | 'e' :: rest | 'E' :: rest => do
      let (negative, rest) := Number.splitSign rest
      let (digits, rest) ← digits? rest
      let size : Int := Number.ofDigits digits
      return (some (if negative then -size else size), rest)
  | rest => some (none, rest)

/-- Splits the numeral off the start of a text. Further digits may not follow a
leading zero. -/
def ofText? (text : Text) : Option (Numeral × Text) := do
  let (negative, rest) := Number.splitMinus text
  let (whole, rest) ← digits? rest
  let (fraction, rest) ← fraction? rest
  let (exponent, rest) ← exponent? rest
  if whole.head? = some '0' ∧ whole.length ≠ 1 then none
  else some ({ negative, whole, fraction, exponent }, rest)

theorem digits?_shorter {source digits left : Text}
    (h : digits? source = some (digits, left)) : left.length < source.length := by
  have parts : source.takeWhile Char.isDigit ++ source.dropWhile Char.isDigit = source :=
    List.takeWhile_append_dropWhile
  have total := congrArg List.length parts
  unfold digits? at h
  cases taken : source.takeWhile Char.isDigit with
  | nil => simp [taken] at h
  | cons c more =>
      simp only [taken, Option.some.injEq, Prod.mk.injEq] at h
      rw [taken, List.length_append, List.length_cons] at total
      rw [← h.2]
      omega

theorem fraction?_le {source fraction left : Text}
    (h : fraction? source = some (fraction, left)) : left.length ≤ source.length := by
  unfold fraction? at h
  split at h
  · have shorter := digits?_shorter h
    simp only [List.length_cons]
    omega
  · simp only [Option.some.injEq, Prod.mk.injEq] at h
    exact Nat.le_of_eq (congrArg List.length h.2.symm)

theorem exponent?_le {source left : Text} {exponent : Option Int}
    (h : exponent? source = some (exponent, left)) : left.length ≤ source.length := by
  have marked {rest : Text} {result : Option Int}
      (h : (digits? (Number.splitSign rest).2).bind
        (fun pair => some (some (if (Number.splitSign rest).1 then -(Number.ofDigits pair.1 : Int)
          else Number.ofDigits pair.1), pair.2)) = some (result, left)) :
      left.length ≤ rest.length := by
    obtain ⟨⟨digits, tail⟩, read, same⟩ := Option.bind_eq_some_iff.mp h
    have shorter := digits?_shorter read
    have bounded := Number.splitSign_le rest
    simp only [Option.some.injEq, Prod.mk.injEq] at same
    rw [← same.2]
    omega
  unfold exponent? at h
  split at h
  · have bounded := marked h
    simp only [List.length_cons]
    omega
  · have bounded := marked h
    simp only [List.length_cons]
    omega
  · simp only [Option.some.injEq, Prod.mk.injEq] at h
    exact Nat.le_of_eq (congrArg List.length h.2.symm)

/-- A numeral takes at least one character. -/
theorem ofText?_shorter {source left : Text} {numeral : Numeral}
    (h : ofText? source = some (numeral, left)) : left.length < source.length := by
  simp only [ofText?, Option.bind_eq_bind, Option.bind_eq_some_iff] at h
  obtain ⟨⟨whole, rest⟩, first, h⟩ := h
  obtain ⟨⟨fraction, rest'⟩, second, ⟨exponent, rest''⟩, third, h⟩ := h
  have atSign := Number.splitMinus_le source
  have atWhole := digits?_shorter first
  have atFraction := fraction?_le second
  have atExponent := exponent?_le third
  simp only at atFraction atExponent h
  split at h
  · simp at h
  · have same : rest'' = left := congrArg Prod.snd (Option.some.inj h)
    rw [← same]
    omega

end Numeral

end Criteria.Json
