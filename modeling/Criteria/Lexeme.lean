import Criteria.Number.Numeral
import Criteria.Quoted

/-!
The pieces which the text of a script is cut into. Each function splits a piece
off the start of a text; what it splits off and what it leaves make up the text.
Tokens and parentheses inside double-quoted literals are never seen.
-/

namespace Criteria.Lexeme

/-- Whether a text goes on with a token. The empty token is nowhere. -/
def startsWith (token text : Text) : Bool :=
  !token.isEmpty && token.isPrefixOf text

/-- The first of the candidates with which a text goes on. -/
def tokenAt? (candidates : List Text) (text : Text) : Option Text :=
  candidates.find? fun token => startsWith token text

/-- The candidate at a place outside quotes. A quote starts a literal and no
token. -/
def visibleToken? (candidates : List Text) (quoting : Quoting) (text : Text) : Option Text :=
  if quoting = .outside ∧ text.head? ≠ some '"' then tokenAt? candidates text else none

/-- Splits a text before the first token outside quotes. -/
def splitBeforeToken (candidates : List Text) : Quoting → Text → Text × Option Text × Text
  | _, [] => ([], none, [])
  | quoting, c :: rest =>
      match visibleToken? candidates quoting (c :: rest) with
      | some token => ([], some token, c :: rest)
      | none =>
          let (before, token, left) := splitBeforeToken candidates (quoting.next c) rest
          (c :: before, token, left)

/-- The text before the first token outside quotes, that token, and the text
after it. Without a token everything is before it. -/
def splitAtToken (candidates : List Text) (text : Text) : Text × Option Text × Text :=
  match splitBeforeToken candidates .outside text with
  | (before, none, left) => (before, none, left)
  | (before, some token, left) => (before, some token, left.drop token.length)

/-- Splits a text before the parenthesis that closes a group, `depth` further
groups having been opened inside it. -/
def splitBeforeClose? : (depth : Nat) → Quoting → Text → Option (Text × Text)
  | _, _, [] => none
  | depth, quoting, c :: rest =>
      let inner (depth : Nat) :=
        (splitBeforeClose? depth (quoting.next c) rest).map
          fun (before, left) => (c :: before, left)
      if quoting = .outside ∧ c = '(' then inner (depth + 1)
      else if quoting = .outside ∧ c = ')' then
        match depth with
        | 0 => some ([], c :: rest)
        | depth + 1 => inner depth
      else inner depth

/-- The interior of a group and the text from its closing parenthesis on, given
the text after its opening one. -/
def group? (text : Text) : Option (Text × Text) :=
  splitBeforeClose? 0 .outside text

def isWordCharacter (c : Char) : Bool :=
  c == '_' || c.isAlphanum

/-- The longest run of word characters and dots in which a dot is neither first
nor right after another. -/
def dottedRun : (dotAllowed : Bool) → Text → Text
  | _, [] => []
  | dotAllowed, c :: rest =>
      if isWordCharacter c then c :: dottedRun true rest
      else if c == '.' && dotAllowed then c :: dottedRun false rest
      else []

/-- An identifier is such a run which does not start with a digit and does not
end with a dot. -/
def isIdentifier (run : Text) : Bool :=
  match run.head?, run.getLast? with
  | some first, some last => !first.isDigit && last != '.'
  | _, _ => false

def identifier? (text : Text) : Option (Text × Text) :=
  let run := dottedRun false text
  if isIdentifier run then some (run, text.drop run.length) else none

/-- A number: an optional minus, digits, and an optional point which further
digits may follow. -/
def number? (text : Text) : Option (Number × Text) :=
  let (negative, digits) := Number.splitMinus text
  let whole := digits.takeWhile Char.isDigit
  let (fraction, left) := Number.splitFraction (digits.dropWhile Char.isDigit)
  if whole.isEmpty then none
  else some (.ofDecimal negative (whole ++ fraction) (-(fraction.length : Int)), left)

theorem number?_le {text left : Text} {value : Number}
    (h : number? text = some (value, left)) : left.length ≤ text.length := by
  have atSign := Number.splitMinus_le text
  have atWhole : ((Number.splitMinus text).2.dropWhile Char.isDigit).length ≤
      (Number.splitMinus text).2.length := (List.dropWhile_sublist _).length_le
  have atFraction :=
    Number.splitFraction_le ((Number.splitMinus text).2.dropWhile Char.isDigit)
  simp only [number?] at h
  split at h
  · simp at h
  · obtain ⟨_, same⟩ := Prod.mk.inj (Option.some.inj h)
    rw [← same]
    omega

theorem splitBeforeToken_append (candidates : List Text) (quoting : Quoting) (text : Text) :
    (splitBeforeToken candidates quoting text).1 ++ (splitBeforeToken candidates quoting text).2.2 =
      text := by
  induction text generalizing quoting with
  | nil => rfl
  | cons c rest ih =>
      unfold splitBeforeToken
      split
      · rfl
      · simpa using ih (quoting.next c)

theorem splitBeforeClose?_append {depth : Nat} {quoting : Quoting} {text before left : Text}
    (h : splitBeforeClose? depth quoting text = some (before, left)) :
    text = before ++ left ∧ left.head? = some ')' := by
  induction text generalizing depth quoting before with
  | nil => simp [splitBeforeClose?] at h
  | cons c rest ih =>
      have step {depth : Nat}
          (h : (splitBeforeClose? depth (quoting.next c) rest).map
            (fun (before, left) => (c :: before, left)) = some (before, left)) :
          c :: rest = before ++ left ∧ left.head? = some ')' := by
        obtain ⟨⟨before', left'⟩, found, same⟩ := Option.map_eq_some_iff.mp h
        obtain ⟨rfl, rfl⟩ := Prod.mk.inj same
        have ⟨split, close⟩ := ih found
        exact ⟨by rw [split]; rfl, close⟩
      unfold splitBeforeClose? at h
      split at h
      · exact step h
      · split at h
        · next close =>
          split at h
          · obtain ⟨rfl, rfl⟩ := Prod.mk.inj (Option.some.inj h)
            exact ⟨rfl, by simp [close.2]⟩
          · exact step h
        · exact step h

end Criteria.Lexeme
