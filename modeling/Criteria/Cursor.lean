import Criteria.Lexeme

/-!
A place in the text of a script. A cursor keeps what lies before it and what lies
after it, so it always stands between two characters, and its position is counted
in bytes from the start of the whole script, of which its text may be a part.
-/

namespace Criteria

structure Cursor where
  base : Nat
  consumed : Text
  rest : Text
deriving DecidableEq, Repr

namespace Cursor

/-- The start of a text which lies at `base` in the script. -/
def start (text : Text) (base : Nat) : Cursor :=
  { base, consumed := [], rest := text }

def source (cursor : Cursor) : Text :=
  cursor.consumed ++ cursor.rest

def position (cursor : Cursor) : Nat :=
  cursor.base + cursor.consumed.byteLength

def atEnd (cursor : Cursor) : Bool :=
  cursor.rest.isEmpty

/-- The cursor before `left`, which must be an end of what lies after it. -/
def moveTo (cursor : Cursor) (left : Text) : Cursor :=
  { cursor with
    consumed := cursor.consumed ++ cursor.rest.take (cursor.rest.length - left.length)
    rest := left }

theorem moveTo_source (cursor : Cursor) {left : Text} (h : left <:+ cursor.rest) :
    (cursor.moveTo left).source = cursor.source := by
  obtain ⟨taken, split⟩ := h
  simp [moveTo, source, ← split]

@[simp] theorem moveTo_rest (cursor : Cursor) (left : Text) :
    (cursor.moveTo left).rest = left := rfl

def peek? (cursor : Cursor) : Option Char :=
  cursor.rest.head?

/-- Whether a token stands at the cursor. -/
def isAt (cursor : Cursor) (token : Text) : Bool :=
  Lexeme.startsWith token cursor.rest

/-- Moves past a token, if it stands at the cursor. -/
def skipToken? (cursor : Cursor) (token : Text) : Option Cursor :=
  if cursor.isAt token then some (cursor.moveTo (cursor.rest.drop token.length)) else none

/-- Moves past a character, if it stands at the cursor. -/
def skipChar? (cursor : Cursor) (c : Char) : Option Cursor :=
  cursor.skipToken? [c]

def skipBlanks (cursor : Cursor) : Cursor :=
  cursor.moveTo (Text.skipBlanks cursor.rest)

/-- Moves past the first of the tokens outside quotes, and gives the text before
it. Without one the cursor moves to the end. -/
def takeUntil (cursor : Cursor) (tokens : List Text) : Text × Option Text × Cursor :=
  let (before, token, left) := Lexeme.splitAtToken tokens cursor.rest
  (before, token, cursor.moveTo left)

/-- The interior of a group which was just opened. The cursor moves before its
closing parenthesis, or to the end if there is none. -/
def takeGroup (cursor : Cursor) : Option Text × Cursor :=
  match Lexeme.group? cursor.rest with
  | some (interior, left) => (some interior, cursor.moveTo left)
  | none => (none, cursor.moveTo [])

def readIdentifier? (cursor : Cursor) : Option (Text × Cursor) :=
  (Lexeme.identifier? cursor.rest).map fun (name, left) => (name, cursor.moveTo left)

def readNumber? (cursor : Cursor) : Option (Number × Cursor) :=
  (Lexeme.number? cursor.rest).map fun (value, left) => (value, cursor.moveTo left)

/-- Reads a double-quoted literal and gives the text it denotes. -/
def readQuoted? (cursor : Cursor) : Option (Text × Cursor) :=
  (Quoted.decode? cursor.rest).map fun (value, left) => (value, cursor.moveTo left)

theorem skipToken?_shorter {cursor after : Cursor} {token : Text}
    (h : cursor.skipToken? token = some after) :
    after.rest.length < cursor.rest.length := by
  unfold skipToken? at h
  split at h
  · next present =>
    have same := Option.some.inj h
    simp only [isAt, Lexeme.startsWith, Bool.and_eq_true, List.isPrefixOf_iff_prefix] at present
    have bound := present.2.length_le
    have nonempty : 0 < token.length := by
      cases token with
      | nil => simp at present
      | cons => simp
    rw [← same, moveTo_rest, List.length_drop]
    omega
  · simp at h

theorem skipBlanks_le (cursor : Cursor) :
    cursor.skipBlanks.rest.length ≤ cursor.rest.length :=
  (List.dropWhile_sublist _).length_le

theorem takeUntil_length (cursor : Cursor) (tokens : List Text) :
    (cursor.takeUntil tokens).1.length + (cursor.takeUntil tokens).2.2.rest.length ≤
      cursor.rest.length := by
  have whole := congrArg List.length
    (Lexeme.splitBeforeToken_append tokens .outside cursor.rest)
  rw [List.length_append] at whole
  simp only [takeUntil, Lexeme.splitAtToken]
  split
  · next before left same =>
    simp only [same] at whole
    simp only [moveTo_rest]
    omega
  · next before token left same =>
    simp only [same] at whole
    simp only [moveTo_rest, List.length_drop]
    omega

theorem takeGroup_length {cursor closing : Cursor} {interior : Text}
    (h : cursor.takeGroup = (some interior, closing)) :
    interior.length + closing.rest.length = cursor.rest.length := by
  unfold takeGroup at h
  split at h
  · next before left found =>
    obtain ⟨same, rfl⟩ := Prod.mk.inj h
    obtain rfl := Option.some.inj same
    have whole := congrArg List.length (Lexeme.splitBeforeClose?_append found).1
    rw [List.length_append] at whole
    exact whole.symm
  · simp at h

theorem readQuoted?_shorter {cursor after : Cursor} {value : Text}
    (h : cursor.readQuoted? = some (value, after)) :
    after.rest.length < cursor.rest.length := by
  obtain ⟨⟨decoded, left⟩, found, same⟩ := Option.map_eq_some_iff.mp h
  obtain ⟨_, rfl⟩ := Prod.mk.inj same
  exact Quoted.decode?_shorter found

theorem readNumber?_le {cursor after : Cursor} {value : Number}
    (h : cursor.readNumber? = some (value, after)) :
    after.rest.length ≤ cursor.rest.length := by
  obtain ⟨⟨number, left⟩, found, same⟩ := Option.map_eq_some_iff.mp h
  obtain ⟨_, rfl⟩ := Prod.mk.inj same
  exact Lexeme.number?_le found

end Cursor

end Criteria
