import Criteria.Clause.Term
import Criteria.Proofs.Scanning.Nesting

/-!
Where a cursor goes. Each move takes an initial part off what lies after the cursor,
and the position grows by the length of that part.
-/

namespace Criteria.Cursor

variable {cursor after : Cursor} {lead text left : Text} {c : Char}

@[simp] theorem start_rest (text : Text) (base : Nat) : (start text base).rest = text := rfl

@[simp] theorem start_position (text : Text) (base : Nat) :
    (start text base).position = base := rfl

theorem moveTo_position (h : cursor.rest = text ++ left) :
    (cursor.moveTo left).position = cursor.position + text.byteLength := by
  simp [position, moveTo, h, Nat.add_assoc]

theorem moveTo_moveTo {middle : Text} (hmiddle : middle <:+ cursor.rest) (hleft : left <:+ middle) :
    (cursor.moveTo middle).moveTo left = cursor.moveTo left := by
  obtain ⟨a, hrest⟩ := hmiddle
  obtain ⟨b, rfl⟩ := hleft
  have hmoved (cursor : Cursor) (text : Text) (h : cursor.rest = text ++ left) :
      cursor.moveTo left = { cursor with consumed := cursor.consumed ++ text, rest := left } := by
    simp [moveTo, h]
  rw [hmoved (cursor.moveTo (b ++ left)) b rfl,
    hmoved cursor (a ++ b) (by rw [← hrest, List.append_assoc])]
  simp [moveTo, ← hrest]

theorem skipBlanks_eq (hrest : cursor.rest = lead ++ text) (hlead : Text.Blank lead)
    (htext : Text.StartsFull text) : cursor.skipBlanks = cursor.moveTo text := by
  rw [skipBlanks, hrest, Text.skipBlanks_append hlead, Text.skipBlanks_of_startsFull htext]

theorem skipChar?_of_rest (h : cursor.rest = c :: left) :
    cursor.skipChar? c = some (cursor.moveTo left) := by
  simp [skipChar?, skipToken?, isAt, Lexeme.startsWith, h]

theorem skipChar?_eq_none (h : cursor.rest.head? ≠ some c) : cursor.skipChar? c = none := by
  have hnot : cursor.isAt [c] = false := by
    rw [isAt, ← Bool.not_eq_true, Lexeme.startsWith_eq_true_iff]
    rintro ⟨-, more, hmore⟩
    exact h (by rw [← hmore]; rfl)
  simp [skipChar?, skipToken?, hnot]

theorem skipChar?_eq_some (h : cursor.skipChar? c = some after) :
    cursor.rest = c :: after.rest ∧ after = cursor.moveTo after.rest := by
  by_cases hhead : cursor.rest.head? = some c
  · obtain ⟨rest, hrest⟩ := List.head?_eq_some_iff.mp hhead
    rw [skipChar?_of_rest hrest] at h
    obtain rfl := Option.some.inj h
    exact ⟨hrest, rfl⟩
  · rw [skipChar?_eq_none hhead] at h
    cases h

theorem takeGroup_eq {interior : Text} (hrest : cursor.rest = interior ++ ')' :: left)
    (hbalanced : Lexeme.Balanced interior) :
    cursor.takeGroup = (some interior, cursor.moveTo (')' :: left)) := by
  rw [takeGroup, Lexeme.group?_eq_some_iff.mpr ⟨hrest, rfl, hbalanced⟩]

theorem takeGroup_eq_some {interior : Text} {closing : Cursor}
    (h : cursor.takeGroup = (some interior, closing)) :
    cursor.rest = interior ++ closing.rest ∧ Lexeme.Balanced interior ∧
      closing = cursor.moveTo closing.rest := by
  unfold takeGroup at h
  split at h
  · next interior' left' hgroup =>
    obtain ⟨hsame, rfl⟩ := Prod.mk.inj h
    obtain rfl := Option.some.inj hsame
    obtain ⟨hsplit, -, hbalanced⟩ := Lexeme.group?_eq_some_iff.mp hgroup
    exact ⟨hsplit, hbalanced, rfl⟩
  · simp at h

/-- One cursor stands behind another, with `text` between them. -/
structure Takes (cursor : Cursor) (text : Text) (after : Cursor) : Prop where
  rest_eq : cursor.rest = text ++ after.rest
  position_eq : after.position = cursor.position + text.byteLength

theorem takes_moveTo (h : cursor.rest = text ++ left) : cursor.Takes text (cursor.moveTo left) :=
  ⟨h, moveTo_position h⟩

theorem Takes.trans {middle : Cursor} {a b : Text} (ha : cursor.Takes a middle)
    (hb : middle.Takes b after) : cursor.Takes (a ++ b) after := by
  constructor
  · rw [ha.rest_eq, hb.rest_eq, List.append_assoc]
  · rw [hb.position_eq, ha.position_eq, Text.byteLength_append, Nat.add_assoc]

theorem takes_skipBlanks (cursor : Cursor) :
    ∃ blanks, Text.Blank blanks ∧ cursor.Takes blanks cursor.skipBlanks := by
  obtain ⟨blanks, hblank, hrest⟩ := Text.exists_append_skipBlanks cursor.rest
  exact ⟨blanks, hblank, takes_moveTo hrest⟩

theorem takes_of_skipChar? (h : cursor.skipChar? c = some after) : cursor.Takes [c] after := by
  obtain ⟨hrest, hafter⟩ := skipChar?_eq_some h
  rw [hafter]
  exact takes_moveTo hrest

theorem head?_of_skipChar? (h : cursor.skipChar? c = none) : cursor.rest.head? ≠ some c := by
  intro hhead
  obtain ⟨left, hrest⟩ := List.head?_eq_some_iff.mp hhead
  rw [skipChar?_of_rest hrest] at h
  cases h

theorem takes_of_takeGroup {interior : Text} (h : cursor.takeGroup = (some interior, after)) :
    cursor.Takes interior after ∧ Lexeme.Balanced interior := by
  obtain ⟨hrest, hbalanced, hafter⟩ := takeGroup_eq_some h
  refine ⟨?_, hbalanced⟩
  rw [hafter]
  exact takes_moveTo hrest

end Criteria.Cursor
