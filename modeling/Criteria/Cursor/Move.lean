import Criteria.Cursor

/-!
The moves of a cursor as data. A move gives an answer and the cursor which the next
move starts from, so whoever reads a text makes a row of moves.
-/

namespace Criteria.Cursor

inductive Move where
  | isAt (token : Text)
  | skipToken (token : Text)
  | skipBlanks
  | takeUntil (tokens : List Text)
  | takeGroup
  | readIdentifier
  | readQuoted
  | readNumber
  | skipChar (c : Char)
  | peek
deriving DecidableEq, Repr

/-- What a move finds. -/
inductive Answer where
  | done
  | flag (found : Bool)
  | split (before : Text) (token : Option Text)
  | text (found : Option Text)
  | number (found : Option Number)
  | char (found : Option Char)
deriving DecidableEq, Repr

/-- Goes behind what is found, and nowhere if nothing is. -/
def attempt {α : Type} (cursor : Cursor) (answer : Option α → Answer) :
    Option (α × Cursor) → Answer × Cursor
  | some (value, after) => (answer (some value), after)
  | none => (answer none, cursor)

/-- Goes behind what is skipped, and nowhere if it is not there. -/
def skip (cursor : Cursor) (after : Option Cursor) : Answer × Cursor :=
  cursor.attempt (fun found => .flag found.isSome) (after.map fun after => ((), after))

def perform (cursor : Cursor) : Move → Answer × Cursor
  | .isAt token => (.flag (cursor.isAt token), cursor)
  | .skipToken token => cursor.skip (cursor.skipToken? token)
  | .skipBlanks => (.done, cursor.skipBlanks)
  | .takeUntil tokens =>
      let (before, token, after) := cursor.takeUntil tokens
      (.split before token, after)
  | .takeGroup =>
      let (interior, after) := cursor.takeGroup
      (.text interior, after)
  | .readIdentifier => cursor.attempt .text cursor.readIdentifier?
  | .readQuoted => cursor.attempt .text cursor.readQuoted?
  | .readNumber => cursor.attempt .number cursor.readNumber?
  | .skipChar c => cursor.skip (cursor.skipChar? c)
  | .peek => (.char cursor.peek?, cursor)

/-- The cursor behind a row of moves. -/
def run (cursor : Cursor) (moves : List Move) : Cursor :=
  moves.foldl (fun cursor move => (cursor.perform move).2) cursor

end Criteria.Cursor
