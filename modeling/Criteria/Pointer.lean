import Criteria.Cursor.Move
import Criteria.Text.Cut

/-!
A place in a text as a number of bytes. What is read there is first cut off the text, which fails
if the number does not fall between two characters. Each move counts the bytes it goes over, and
one which does not find what it looks for goes back to the byte it started from.
-/

namespace Criteria

structure Pointer where
  base : Nat
  source : Text
  index : Nat
deriving DecidableEq, Repr

namespace Pointer

open Cursor (Move Answer)

/-- The start of a text which lies at `base` in the script. -/
def start (text : Text) (base : Nat) : Pointer :=
  { base, source := text, index := 0 }

def position (pointer : Pointer) : Nat :=
  pointer.base + pointer.index

def rest (pointer : Pointer) : Except Misplaced Text :=
  pointer.source.after pointer.index

def peek (pointer : Pointer) : Except Misplaced (Option Char) := do
  return (← pointer.rest).head?

def advance (pointer : Pointer) (bytes : Nat) : Pointer :=
  { pointer with index := pointer.index + bytes }

/-- The pointer behind a character. -/
def behind (pointer : Pointer) (c : Char) : Pointer :=
  pointer.advance c.utf8Size

/-- The pointer at another byte of its text. -/
def backTo (pointer : Pointer) (index : Nat) : Pointer :=
  { pointer with index }

theorem advance_advance (pointer : Pointer) (first second : Nat) :
    (pointer.advance first).advance second = pointer.advance (first + second) := by
  rw [advance, advance, advance, Nat.add_assoc]

theorem index_lt_of_peek {pointer : Pointer} {c : Char} (h : pointer.peek = .ok (some c)) :
    pointer.index < pointer.source.byteLength := by
  unfold peek rest at h
  cases hrest : pointer.source.after pointer.index with
  | error fault =>
      rw [hrest] at h
      cases h
  | ok text =>
      rw [hrest] at h
      obtain ⟨more, rfl⟩ := List.head?_eq_some_iff.mp (Except.ok.inj h)
      obtain ⟨front, hsource, hindex⟩ := Text.after_eq_ok_iff.mp hrest
      have hpos := c.utf8Size_pos
      rw [hsource, Text.byteLength_append, Text.byteLength_cons, hindex]
      omega

/-- By how many bytes a character is gone over: by its own, or by one. -/
inductive Stride where
  | whole
  | single

def Stride.bytes : Stride → Char → Nat
  | .whole, c => c.utf8Size
  | .single, _ => 1

theorem Stride.bytes_pos (stride : Stride) (c : Char) : 0 < stride.bytes c := by
  cases stride with
  | whole => exact c.utf8Size_pos
  | single => exact Nat.one_pos

def isAt (pointer : Pointer) (token : Text) : Except Misplaced Bool := do
  if token.isEmpty then return false
  return token.isPrefixOf (← pointer.rest)

def skipToken (pointer : Pointer) (token : Text) : Except Misplaced (Bool × Pointer) := do
  if ← pointer.isAt token then return (true, pointer.advance token.byteLength)
  return (false, pointer)

def skipChar (pointer : Pointer) (c : Char) : Except Misplaced (Bool × Pointer) := do
  if (← pointer.peek) = some c then return (true, pointer.behind c)
  return (false, pointer)

/-- Goes over characters as long as they pass a test. -/
def skipWhile (test : Pointer → Char → Except Misplaced Bool) (stride : Stride)
    (pointer : Pointer) : Except Misplaced Pointer :=
  match h : pointer.peek with
  | .error fault => .error fault
  | .ok none => .ok pointer
  | .ok (some c) => do
      have := index_lt_of_peek h
      have := stride.bytes_pos c
      if ← test pointer c then skipWhile test stride (pointer.advance (stride.bytes c))
      else return pointer
termination_by pointer.source.byteLength - pointer.index
decreasing_by simp only [advance]; omega

def skipBlanks (pointer : Pointer) : Except Misplaced Pointer :=
  pointer.skipWhile (fun _ c => .ok (Text.isBlank c)) .whole

def skipDigits (pointer : Pointer) : Except Misplaced Pointer :=
  pointer.skipWhile (fun _ c => .ok c.isDigit) .single

/-- Goes behind the quote which ends a literal, or else to the end. -/
def leaveQuotes (pointer : Pointer) : Except Misplaced Pointer :=
  match h : pointer.peek with
  | .error fault => .error fault
  | .ok none => .ok pointer
  | .ok (some c) =>
      have := index_lt_of_peek h
      have := c.utf8Size_pos
      if c = '\\' then
        match (pointer.behind c).peek with
        | .error fault => .error fault
        | .ok none => leaveQuotes (pointer.behind c)
        | .ok (some escaped) => leaveQuotes ((pointer.behind c).behind escaped)
      else if c = '"' then .ok (pointer.behind c)
      else leaveQuotes (pointer.behind c)
termination_by pointer.source.byteLength - pointer.index
decreasing_by all_goals simp only [behind, advance]; omega

theorem exists_of_leaveQuotes {pointer after : Pointer} (h : pointer.leaveQuotes = .ok after) :
    ∃ bytes, after = pointer.advance bytes := by
  fun_induction leaveQuotes pointer with
  | case1 => cases h
  | case2 pointer =>
      obtain rfl := Except.ok.inj h
      exact ⟨0, rfl⟩
  | case3 => cases h
  | case4 _ _ _ _ _ ih =>
      obtain ⟨bytes, rfl⟩ := ih h
      exact ⟨_, advance_advance ..⟩
  | case5 _ _ _ _ _ _ ih =>
      obtain ⟨bytes, rfl⟩ := ih h
      rw [behind, behind, advance_advance, advance_advance]
      exact ⟨_, rfl⟩
  | case6 =>
      obtain rfl := Except.ok.inj h
      exact ⟨_, rfl⟩
  | case7 _ _ _ _ _ _ _ ih =>
      obtain ⟨bytes, rfl⟩ := ih h
      exact ⟨_, advance_advance ..⟩

/-- Goes over the literal at the pointer. -/
def skipQuoted (pointer : Pointer) : Except Misplaced Pointer :=
  (pointer.advance 1).leaveQuotes

theorem lt_of_skipQuoted {pointer after : Pointer} (h : pointer.skipQuoted = .ok after) :
    after.source.byteLength = pointer.source.byteLength ∧ pointer.index < after.index := by
  obtain ⟨bytes, rfl⟩ := exists_of_leaveQuotes h
  refine ⟨rfl, ?_⟩
  simp only [advance]
  omega

/-- Goes on until a token stands at the pointer, and gives `before` with all that is gone over. -/
def takeUntilFrom (tokens : List Text) (before : Text) (pointer : Pointer) :
    Except Misplaced (Text × Option Text × Pointer) :=
  match h : pointer.peek with
  | .error fault => .error fault
  | .ok none => .ok (before, none, pointer)
  | .ok (some c) =>
      have := index_lt_of_peek h
      have := c.utf8Size_pos
      if c = '"' then
        match hskip : pointer.skipQuoted with
        | .error fault => .error fault
        | .ok after => do
            have := lt_of_skipQuoted hskip
            let literal ← pointer.source.between pointer.index after.index
            takeUntilFrom tokens (before ++ literal) after
      else do
        match ← tokens.findM? pointer.isAt with
        | some token => return (before, some token, pointer.advance token.byteLength)
        | none => takeUntilFrom tokens (before ++ [c]) (pointer.behind c)
termination_by pointer.source.byteLength - pointer.index
decreasing_by
  · omega
  · simp only [behind, advance]; omega

/-- Text up to the first of the tokens outside quotes, and behind that token. Without one
everything is gone over. -/
def takeUntil (pointer : Pointer) (tokens : List Text) :
    Except Misplaced (Text × Option Text × Pointer) :=
  pointer.takeUntilFrom tokens []

/-- Goes on to the parenthesis which closes the last of `depth` open groups, and gives what lies
between the byte `first` and it. -/
def takeGroupFrom (first depth : Nat) (pointer : Pointer) :
    Except Misplaced (Option Text × Pointer) :=
  match h : pointer.peek with
  | .error fault => .error fault
  | .ok none => .ok (none, pointer)
  | .ok (some c) =>
      have := index_lt_of_peek h
      have := c.utf8Size_pos
      if c = '"' then
        match hskip : pointer.skipQuoted with
        | .error fault => .error fault
        | .ok after =>
            have := lt_of_skipQuoted hskip
            takeGroupFrom first depth after
      else if c = '(' then takeGroupFrom first (depth + 1) (pointer.behind c)
      else if c = ')' then
        if depth - 1 = 0 then do
          return (some (← pointer.source.between first pointer.index), pointer)
        else takeGroupFrom first (depth - 1) (pointer.behind c)
      else takeGroupFrom first depth (pointer.behind c)
termination_by pointer.source.byteLength - pointer.index
decreasing_by
  · omega
  all_goals simp only [behind, advance]; omega

/-- The interior of a group which was just opened, and before the parenthesis which closes it.
Without one everything is gone over. -/
def takeGroup (pointer : Pointer) : Except Misplaced (Option Text × Pointer) :=
  pointer.takeGroupFrom pointer.index 1

/-- Whether a name which begins at the byte `first` goes on with this character. -/
def continuesName (first : Nat) (pointer : Pointer) (c : Char) : Except Misplaced Bool := do
  if Lexeme.isWordCharacter c then return true
  if c = '.' ∧ first < pointer.index then
    return (← pointer.source.before pointer.index).getLast? != some '.'
  return false

def readIdentifier (pointer : Pointer) : Except Misplaced (Option Text × Pointer) := do
  let after ← pointer.skipWhile (continuesName pointer.index) .single
  let name ← pointer.source.between pointer.index after.index
  if Lexeme.isIdentifier name then return (some name, after)
  return (none, after.backTo pointer.index)

def skipMinus (pointer : Pointer) : Except Misplaced Pointer := do
  if (← pointer.peek) = some '-' then return pointer.advance 1
  return pointer

/-- Goes over a point and the digits behind it, if the pointer is at a point. -/
def skipFraction (pointer : Pointer) : Except Misplaced Pointer := do
  if (← pointer.peek) = some '.' then (pointer.advance 1).skipDigits
  else return pointer

def readNumber (pointer : Pointer) : Except Misplaced (Option Number × Pointer) := do
  let digits ← pointer.skipMinus
  let whole ← digits.skipDigits
  if whole.index = digits.index then return (none, whole.backTo pointer.index)
  let after ← whole.skipFraction
  match Number.read? (← pointer.source.between pointer.index after.index) with
  | some value => return (some value, after)
  | none => return (none, after.backTo pointer.index)

/-- Reads a literal behind its opening quote, which stands at the byte `first`. -/
def readQuotedFrom (first : Nat) (value : Text) (pointer : Pointer) :
    Except Misplaced (Option Text × Pointer) :=
  match h : pointer.peek with
  | .error fault => .error fault
  | .ok none => .ok (none, pointer.backTo first)
  | .ok (some c) =>
      have := index_lt_of_peek h
      have := c.utf8Size_pos
      if c = '"' then .ok (some value, pointer.behind c)
      else if c = '\\' then
        match (pointer.behind c).peek with
        | .error fault => .error fault
        | .ok none => .ok (none, (pointer.behind c).backTo first)
        | .ok (some escaped) =>
            readQuotedFrom first (value ++ Quoted.unescape escaped)
              ((pointer.behind c).behind escaped)
      else readQuotedFrom first (value ++ [c]) (pointer.behind c)
termination_by pointer.source.byteLength - pointer.index
decreasing_by all_goals simp only [behind, advance]; omega

def readQuoted (pointer : Pointer) : Except Misplaced (Option Text × Pointer) := do
  if (← pointer.peek) = some '"' then (pointer.advance 1).readQuotedFrom pointer.index []
  else return (none, pointer)

def perform (pointer : Pointer) : Move → Except Misplaced (Answer × Pointer)
  | .isAt token => do return (.flag (← pointer.isAt token), pointer)
  | .skipToken token => do
      let (found, after) ← pointer.skipToken token
      return (.flag found, after)
  | .skipBlanks => do return (.done, ← pointer.skipBlanks)
  | .takeUntil tokens => do
      let (before, token, after) ← pointer.takeUntil tokens
      return (.split before token, after)
  | .takeGroup => do
      let (interior, after) ← pointer.takeGroup
      return (.text interior, after)
  | .readIdentifier => do
      let (name, after) ← pointer.readIdentifier
      return (.text name, after)
  | .readQuoted => do
      let (value, after) ← pointer.readQuoted
      return (.text value, after)
  | .readNumber => do
      let (value, after) ← pointer.readNumber
      return (.number value, after)
  | .skipChar c => do
      let (found, after) ← pointer.skipChar c
      return (.flag found, after)
  | .peek => do return (.char (← pointer.peek), pointer)

/-- The pointer behind a row of moves. -/
def run (pointer : Pointer) (moves : List Move) : Except Misplaced Pointer :=
  moves.foldlM (fun pointer move => do return (← pointer.perform move).2) pointer

end Pointer

end Criteria
