import Criteria.Proofs.Scanning.Cursor
import Criteria.Proofs.Scanning.Literals

/-!
Two scripts which differ in one literal. Each piece which is cut off the one has its
counterpart in the other: before the literal the pieces are the same, behind it they
are the same at places as far apart as the lengths of the literals, and one piece is
around it. Every move of a cursor keeps two cursors at counterparts.
-/

namespace Criteria

/-- Where a piece of a script lies as seen from the literal. -/
inductive Side where
  | before
  | around
  | behind
deriving DecidableEq, Repr

namespace Side

/-- The sides of two pieces which follow each other, and that of the two together. -/
inductive Splits : (whole first second : Side) → Prop
  | apart {side : Side} (hside : side ≠ .around) : Splits side side side
  | first : Splits .around .around .behind
  | second : Splits .around .before .around

/-- A position in the one script and its counterpart in the other. -/
def Moves (old new : Text) : Side → (position moved : Nat) → Prop
  | .behind, position, moved => position + new.byteLength = moved + old.byteLength
  | _, position, moved => position = moved

variable {old new : Text} {side first second third rest : Side} {position moved : Nat}

theorem Moves.add (h : side.Moves old new position moved) (length : Nat) :
    side.Moves old new (position + length) (moved + length) := by
  cases side with
  | before => exact congrArg (· + length) h
  | around => exact congrArg (· + length) h
  | behind =>
      have hdistance : position + new.byteLength = moved + old.byteLength := h
      show position + length + new.byteLength = moved + length + old.byteLength
      omega

theorem Splits.assoc (h : Splits side first rest) (hrest : Splits rest second third) :
    ∃ joined, Splits joined first second ∧ Splits side joined third := by
  cases h with
  | apart hside =>
      cases hrest with
      | apart => exact ⟨side, .apart hside, .apart hside⟩
      | first => exact absurd rfl hside
      | second => exact absurd rfl hside
  | first =>
      cases hrest with
      | apart => exact ⟨.around, .first, .first⟩
  | second =>
      cases hrest with
      | apart hside => exact absurd rfl hside
      | first => exact ⟨.around, .second, .first⟩
      | second => exact ⟨.before, .apart (by decide), .second⟩

/-- Behind the last piece there is nothing around the literal. -/
theorem Splits.eq_of_ne (h : Splits side first rest) (hrest : rest ≠ .around) : side = first := by
  cases h with
  | apart => rfl
  | first => rfl
  | second => exact absurd rfl hrest

end Side

namespace Cursor

variable {old new before after taken gap left : Text} {place : Nat} {side : Side}
  {cursor other : Cursor}

/-- The literals lie ahead of the cursors, with the same text before and behind them. -/
structure Faces (old new : Text) (place : Nat) (before after : Text) (cursor other : Cursor) :
    Prop where
  old_literal : Text.Literal old
  new_literal : Text.Literal new
  closed : Quoting.outside.run before = .outside
  rest_eq : cursor.rest = before ++ (old ++ after)
  other_rest_eq : other.rest = before ++ (new ++ after)
  position_eq : cursor.position = other.position
  place_eq : cursor.position + before.byteLength = place

/-- The text behind a cursor lies on one side of the literal, and its counterpart is
behind the other cursor. -/
inductive Requoted (old new : Text) (place : Nat) (cursor other : Cursor) : Side → Prop
  | apart {side : Side} (hside : side ≠ .around) (hrest : cursor.rest = other.rest)
      (hmoves : side.Moves old new cursor.position other.position) :
      Requoted old new place cursor other side
  | around {before after : Text} (hfaces : Faces old new place before after cursor other) :
      Requoted old new place cursor other .around

/-! Cursors which move on -/

theorem requoted_moveTo (hside : side ≠ .around) (hrest : cursor.rest = taken ++ left)
    (hother : other.rest = taken ++ left)
    (hmoves : side.Moves old new cursor.position other.position) :
    Requoted old new place (cursor.moveTo left) (other.moveTo left) side := by
  refine .apart hside rfl ?_
  rw [moveTo_position hrest, moveTo_position hother]
  exact hmoves.add _

theorem Faces.moveTo (taken : Text) (h : Faces old new place (taken ++ gap) after cursor other)
    (hgap : Quoting.outside.run gap = .outside) :
    Faces old new place gap after (cursor.moveTo (gap ++ (old ++ after)))
      (other.moveTo (gap ++ (new ++ after))) := by
  have hrest : cursor.rest = taken ++ (gap ++ (old ++ after)) := by
    rw [h.rest_eq, List.append_assoc]
  have hother : other.rest = taken ++ (gap ++ (new ++ after)) := by
    rw [h.other_rest_eq, List.append_assoc]
  refine ⟨h.old_literal, h.new_literal, hgap, rfl, rfl, ?_, ?_⟩
  · rw [moveTo_position hrest, moveTo_position hother, h.position_eq]
  · rw [moveTo_position hrest, Nat.add_assoc, ← Text.byteLength_append]
    exact h.place_eq

/-- Cursors which pass the literals are apart as their lengths are. -/
theorem Faces.moveTo_behind (gap : Text)
    (h : Faces old new place before (gap ++ left) cursor other) :
    Requoted old new place (cursor.moveTo left) (other.moveTo left) .behind := by
  have hrest : cursor.rest = (before ++ old ++ gap) ++ left := by
    simp [h.rest_eq]
  have hother : other.rest = (before ++ new ++ gap) ++ left := by
    simp [h.other_rest_eq]
  refine .apart (by decide) rfl ?_
  rw [Side.Moves, moveTo_position hrest, moveTo_position hother, h.position_eq]
  simp only [Text.byteLength_append]
  omega

/-- The text up to a place behind the literals, taken for itself. -/
theorem Faces.alone (h : Faces old new place before after cursor other) (gap : Text) :
    Faces old new place before gap (.start (before ++ (old ++ gap)) cursor.position)
      (.start (before ++ (new ++ gap)) other.position) :=
  ⟨h.old_literal, h.new_literal, h.closed, rfl, rfl, h.position_eq, h.place_eq⟩

theorem Requoted.rest_eq_nil_iff (h : Requoted old new place cursor other side) :
    cursor.rest = [] ↔ other.rest = [] := by
  cases h with
  | apart hside hrest hmoves => rw [hrest]
  | around hfaces =>
      simp [hfaces.rest_eq, hfaces.other_rest_eq, hfaces.old_literal.ne_nil,
        hfaces.new_literal.ne_nil]

/-- Where nothing is left, the literal is not ahead. -/
theorem Requoted.ne_around (h : Requoted old new place cursor other side)
    (hend : cursor.rest = []) : side ≠ .around := by
  cases h with
  | apart hside hrest hmoves => exact hside
  | around hfaces =>
      rw [hfaces.rest_eq] at hend
      simp [hfaces.old_literal.ne_nil] at hend

theorem Requoted.skipBlanks (h : Requoted old new place cursor other side) :
    Requoted old new place cursor.skipBlanks other.skipBlanks side := by
  cases h with
  | apart hside hrest hmoves =>
      obtain ⟨blanks, -, hsplit⟩ := Text.exists_append_skipBlanks cursor.rest
      rw [Cursor.skipBlanks, Cursor.skipBlanks, ← hrest]
      exact requoted_moveTo hside hsplit (hrest ▸ hsplit) hmoves
  | @around before after hfaces =>
      obtain ⟨blanks, -, hsplit⟩ := Text.exists_append_skipBlanks before
      rw [Cursor.skipBlanks, Cursor.skipBlanks, hfaces.rest_eq, hfaces.other_rest_eq,
        Text.skipBlanks_literal hfaces.old_literal, Text.skipBlanks_literal hfaces.new_literal]
      have hgap := (Text.run_skipBlanks before).trans hfaces.closed
      exact .around (Faces.moveTo blanks (hsplit ▸ hfaces) hgap)

/-- No literal starts with the character, so it is skipped in both texts or in neither. -/
theorem Requoted.skipChar? {c : Char} (h : Requoted old new place cursor other side)
    (hquote : c ≠ '"') :
    Option.Rel (fun cursor other => Requoted old new place cursor other side)
      (cursor.skipChar? c) (other.skipChar? c) := by
  cases h with
  | apart hside hrest hmoves =>
      by_cases hhead : cursor.rest.head? = some c
      · obtain ⟨left, hleft⟩ := List.head?_eq_some_iff.mp hhead
        have hother : other.rest = [c] ++ left := hrest ▸ hleft
        rw [skipChar?_of_rest hleft, skipChar?_of_rest hother]
        exact .some (requoted_moveTo hside hleft hother hmoves)
      · rw [skipChar?_eq_none hhead, skipChar?_eq_none (hrest ▸ hhead)]
        exact .none
  | @around before after hfaces =>
      -- the first character is the same in both texts: where nothing is before it, a quote
      have hhead {literal : Text} (hliteral : Text.Literal literal) :
          (before ++ (literal ++ after)).head? = (before ++ ['"']).head? := by
        obtain ⟨rest, rfl, -⟩ := hliteral
        cases before <;> rfl
      by_cases hfirst : (before ++ ['"']).head? = some c
      · cases before with
        | nil => exact absurd (Option.some.inj hfirst).symm hquote
        | cons d gap =>
            obtain rfl : d = c := Option.some.inj hfirst
            have hplain : '"' ∉ [d] := by simp [hquote.symm]
            have hgap := Lexeme.run_of_run_append hplain hfaces.closed
            rw [skipChar?_of_rest hfaces.rest_eq, skipChar?_of_rest hfaces.other_rest_eq]
            exact .some (.around (Faces.moveTo [d] hfaces hgap))
      · rw [skipChar?_eq_none, skipChar?_eq_none]
        · exact .none
        · rwa [hfaces.other_rest_eq, hhead hfaces.new_literal]
        · rwa [hfaces.rest_eq, hhead hfaces.old_literal]

/-- The same token stands at both cursors, or none at either. -/
theorem Requoted.tokenAt?_eq {tokens : List Text} (h : Requoted old new place cursor other side)
    (hquote : ∀ token ∈ tokens, '"' ∉ token) :
    Lexeme.tokenAt? tokens cursor.rest = Lexeme.tokenAt? tokens other.rest := by
  cases h with
  | apart hside hrest hmoves => rw [hrest]
  | around hfaces =>
      rw [hfaces.rest_eq, hfaces.other_rest_eq, Lexeme.tokenAt?_literal hfaces.old_literal hquote,
        Lexeme.tokenAt?_literal hfaces.new_literal hquote]

theorem Requoted.dropToken {tokens : List Text} {token : Text}
    (h : Requoted old new place cursor other side) (hquote : ∀ token ∈ tokens, '"' ∉ token)
    (htoken : Lexeme.tokenAt? tokens cursor.rest = some token) :
    Requoted old new place (cursor.moveTo (cursor.rest.drop token.length))
      (other.moveTo (other.rest.drop token.length)) side := by
  cases h with
  | apart hside hrest hmoves =>
      obtain ⟨-, -, left, hsplit⟩ := Lexeme.tokenAt?_eq_some htoken
      rw [← hrest, ← hsplit, List.drop_left]
      exact requoted_moveTo hside hsplit.symm (hrest ▸ hsplit.symm) hmoves
  | around hfaces =>
      rw [hfaces.rest_eq, Lexeme.tokenAt?_literal hfaces.old_literal hquote] at htoken
      obtain ⟨hmem, -, gap, rfl⟩ := Lexeme.tokenAt?_eq_some htoken
      have hgap := Lexeme.run_of_run_append (hquote token hmem) hfaces.closed
      rw [hfaces.rest_eq, hfaces.other_rest_eq, List.append_assoc, List.append_assoc,
        List.drop_left, List.drop_left]
      exact .around (hfaces.moveTo _ hgap)

/-! Pieces which are cut off the text behind a cursor -/

/-- A piece and what follows it, at counterparts in the two scripts. A piece is given by
the cursor at its start. -/
def Cut (old new : Text) (place : Nat) (side : Side) (piece piece' next next' : Cursor) : Prop :=
  ∃ first rest, side.Splits first rest ∧ Requoted old new place piece piece' first ∧
    Requoted old new place next next' rest

theorem cut_apart (piece : Text) (hside : side ≠ .around) (hrest : cursor.rest = taken ++ left)
    (hother : other.rest = taken ++ left)
    (hmoves : side.Moves old new cursor.position other.position) :
    Cut old new place side (.start piece cursor.position) (.start piece other.position)
      (cursor.moveTo left) (other.moveTo left) :=
  ⟨side, side, .apart hside, .apart hside rfl hmoves, requoted_moveTo hside hrest hother hmoves⟩

/-- The piece ends before the literals. -/
theorem Faces.cut_before (piece : Text)
    (h : Faces old new place (taken ++ gap) after cursor other)
    (hgap : Quoting.outside.run gap = .outside) :
    Cut old new place .around (.start piece cursor.position) (.start piece other.position)
      (cursor.moveTo (gap ++ (old ++ after))) (other.moveTo (gap ++ (new ++ after))) :=
  ⟨.before, .around, .second, .apart (by decide) rfl h.position_eq, .around (h.moveTo taken hgap)⟩

/-- The piece ends behind the literals. -/
theorem Faces.cut_behind (inside gap : Text)
    (h : Faces old new place before (gap ++ left) cursor other) :
    Cut old new place .around (.start (before ++ (old ++ inside)) cursor.position)
      (.start (before ++ (new ++ inside)) other.position) (cursor.moveTo left)
      (other.moveTo left) :=
  ⟨.around, .behind, .first, .around (h.alone inside), h.moveTo_behind gap⟩

theorem Requoted.takeUntil {tokens : List Text} (h : Requoted old new place cursor other side)
    (hquote : ∀ token ∈ tokens, '"' ∉ token) :
    (cursor.takeUntil tokens).2.1 = (other.takeUntil tokens).2.1 ∧
      Cut old new place side (.start (cursor.takeUntil tokens).1 cursor.position)
        (.start (other.takeUntil tokens).1 other.position) (cursor.takeUntil tokens).2.2
        (other.takeUntil tokens).2.2 := by
  cases h with
  | apart hside hrest hmoves =>
      obtain ⟨taken, -, hsplit⟩ := Lexeme.exists_append_splitAtToken tokens cursor.rest
      rw [Cursor.takeUntil, Cursor.takeUntil, ← hrest]
      exact ⟨rfl, cut_apart _ hside hsplit (hrest ▸ hsplit) hmoves⟩
  | @around before after hfaces =>
      rw [Cursor.takeUntil, Cursor.takeUntil, hfaces.rest_eq, hfaces.other_rest_eq]
      rcases Lexeme.splitAtToken_literal hfaces.closed hquote after with
        ⟨left, token, gap, rfl, hgap, hsplit⟩ | hsplit
      · rw [hsplit old hfaces.old_literal, hsplit new hfaces.new_literal]
        rw [← List.append_assoc left] at hfaces
        exact ⟨rfl, hfaces.cut_before left hgap⟩
      · obtain ⟨gap, -, hafter⟩ := Lexeme.exists_append_splitAtToken tokens after
        rw [hsplit old hfaces.old_literal, hsplit new hfaces.new_literal]
        exact ⟨rfl, Faces.cut_behind _ gap (hafter ▸ hfaces)⟩

/-- Either both groups end, or neither does. -/
theorem Requoted.takeGroup (h : Requoted old new place cursor other side) :
    (cursor.takeGroup.1 = none ∧ other.takeGroup.1 = none) ∨
      ∃ interior interior', cursor.takeGroup.1 = some interior ∧
        other.takeGroup.1 = some interior' ∧
        Cut old new place side (.start interior cursor.position)
          (.start interior' other.position) cursor.takeGroup.2 other.takeGroup.2 := by
  cases h with
  | apart hside hrest hmoves =>
      rw [Cursor.takeGroup, Cursor.takeGroup, ← hrest]
      cases hgroup : Lexeme.group? cursor.rest with
      | none => exact .inl ⟨rfl, rfl⟩
      | some found =>
          obtain ⟨hsplit, -, -⟩ := Lexeme.group?_eq_some_iff.mp hgroup
          exact .inr ⟨_, _, rfl, rfl, cut_apart _ hside hsplit (hrest ▸ hsplit) hmoves⟩
  | @around before after hfaces =>
      rw [Cursor.takeGroup, Cursor.takeGroup, hfaces.rest_eq, hfaces.other_rest_eq]
      rcases Lexeme.group?_literal hfaces.closed after with
        ⟨interior, gap, rfl, hgap, hsplit⟩ | ⟨depth, hsplit⟩
      · rw [hsplit old hfaces.old_literal, hsplit new hfaces.new_literal]
        exact .inr ⟨_, _, rfl, rfl, hfaces.cut_before interior hgap⟩
      · rw [hsplit old hfaces.old_literal, hsplit new hfaces.new_literal]
        cases hclose : Lexeme.splitBeforeClose? depth .outside after with
        | none => exact .inl ⟨rfl, rfl⟩
        | some found =>
            obtain ⟨hafter, -⟩ := Lexeme.splitBeforeClose?_eq_some_iff.mp hclose
            exact .inr ⟨_, _, rfl, rfl, Faces.cut_behind _ found.1 (hafter ▸ hfaces)⟩

/-- Blanks at the end of a piece are not part of the literal. -/
theorem Requoted.trim {text text' : Text} {position position' : Nat}
    (h : Requoted old new place (.start text position) (.start text' position') side)
    (hstart : text.StartsFull) :
    Requoted old new place (.start text.trim position) (.start text'.trim position') side := by
  cases h with
  | apart hside hrest hmoves =>
      obtain rfl : text = text' := hrest
      exact .apart hside rfl hmoves
  | @around before after hfaces =>
      obtain rfl : text = before ++ (old ++ after) := hfaces.rest_eq
      obtain rfl : text' = before ++ (new ++ after) := hfaces.other_rest_eq
      have hbefore : Text.skipBlanks before = before :=
        Text.skipBlanks_of_startsFull hstart.of_append
      rw [Text.trim_literal hfaces.old_literal, Text.trim_literal hfaces.new_literal, hbefore]
      exact .around (hfaces.alone _)

end Cursor

end Criteria
