import Criteria.Cursor
import Criteria.Symbol

/-!
The written form of symbols: a key and then indexers in brackets, each a quoted
key or a position. Blanks may stand around everything after the key.
-/

namespace Criteria.Symbol

/-- Reads what names an item or an entry. A number which names no position is
passed over. -/
def readIndex (cursor : Cursor) : Option Indexer × Cursor :=
  match cursor.readQuoted? with
  | some (key, after) => (some (.key key), after)
  | none =>
      match cursor.readNumber? with
      | some (value, after) => (value.index?.map .position, after)
      | none => (none, cursor)

theorem readIndex_le (cursor : Cursor) :
    (readIndex cursor).2.rest.length ≤ cursor.rest.length := by
  unfold readIndex
  split
  · next found => exact Nat.le_of_lt (Cursor.readQuoted?_shorter found)
  · split
    · next found => exact Cursor.readNumber?_le found
    · exact Nat.le_refl _

/-- Reads an indexer from after its opening bracket. Without an indexer this gives
the position at which one was expected. -/
def readIndexer (cursor : Cursor) : Except Nat (Indexer × Cursor) :=
  let (index, after) := readIndex cursor.skipBlanks
  let closing := after.skipBlanks
  match index, closing.skipChar? ']' with
  | some indexer, some after => .ok (indexer, after)
  | _, _ => .error closing.position

theorem readIndexer_shorter {cursor after : Cursor} {indexer : Indexer}
    (h : readIndexer cursor = .ok (indexer, after)) :
    after.rest.length < cursor.rest.length := by
  have first := cursor.skipBlanks_le
  have second := readIndex_le cursor.skipBlanks
  have third := (readIndex cursor.skipBlanks).2.skipBlanks_le
  simp only [readIndexer] at h
  split at h
  · next past =>
    obtain ⟨_, rfl⟩ := Prod.mk.inj (Except.ok.inj h)
    have fourth := Cursor.skipToken?_shorter past
    omega
  · simp at h

/-- Reads as many indexers as there are opening brackets. -/
def readIndexers (cursor : Cursor) : Except Nat (List Indexer × Cursor) :=
  have := cursor.skipBlanks_le
  match h : cursor.skipBlanks.skipChar? '[' with
  | none => .ok ([], cursor.skipBlanks)
  | some opened =>
      have := Cursor.skipToken?_shorter h
      match h : readIndexer opened with
      | .error position => .error position
      | .ok (indexer, after) =>
          have := readIndexer_shorter h
          (readIndexers after).map fun (more, left) => (indexer :: more, left)
termination_by cursor.rest.length
decreasing_by omega

/-- Reads a whole text as a symbol, if it starts like one and nothing follows it. -/
def ofText? (source : Text) : Except Error (Option Symbol) :=
  match (Cursor.start source 0).readIdentifier? with
  | none => .ok none
  | some (key, after) =>
      match readIndexers after with
      | .error position => .error (.script (.expectedIndexer source position))
      | .ok (indexers, left) =>
          .ok (if left.atEnd then some { source, key, indexers } else none)

end Criteria.Symbol
