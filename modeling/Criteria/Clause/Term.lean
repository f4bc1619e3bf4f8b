import Criteria.Clause
import Criteria.Cursor
import Criteria.Error

/-!
The terms of a chain of clauses. Each function reads one piece of the text at a
cursor, and each piece that is read leaves a shorter text.
-/

namespace Criteria.Clause

/-- A comparison or a group before the inside of the group is read. -/
inductive Term where
  | comparison (text : Text) (position : Nat) (next : Option Connective) (after : Cursor)
  | group (negated : Bool) (interior : Text) (position : Nat) (after : Cursor)

namespace Term

/-- Reads a group up to its closing parenthesis, which must come. `start` is where
the group or its negation starts. -/
def readGroup (start : Nat) (negated : Bool) (cursor opened : Cursor) : Except Error Term :=
  match opened.takeGroup with
  | (some interior, closing) =>
      match closing.skipChar? ')' with
      | some after => .ok (.group negated interior opened.position after)
      | none => .error (.format .unbalanced cursor.rest start)
  | (none, _) => .error (.format .unbalanced cursor.rest start)

/-- Reads a comparison up to the next connective. It may not be blank, and a
parenthesis may not close in it. -/
def readComparison (cursor : Cursor) : Except Error Term :=
  let (fragment, token, after) := cursor.takeUntil Connective.tokens
  let text := Text.trim fragment
  if text.isEmpty then .error (.format .missingComparison cursor.source cursor.position)
  else
    match Lexeme.splitAtToken [[')']] text with
    | (before, some _, _) =>
        .error (.format .unbalanced cursor.source (cursor.position + Text.byteLength before))
    | (_, none, _) => .ok (.comparison text cursor.position (token.bind Connective.ofToken?) after)

/-- Reads the term at a cursor which does not stand before a blank. -/
def read (cursor : Cursor) : Except Error Term :=
  match cursor.skipChar? '!' with
  | some negation =>
      let opening := negation.skipBlanks
      match opening.skipChar? '(' with
      | some opened => readGroup cursor.position true opening opened
      | none => .error (.format .missingGroup cursor.source opening.position)
  | none =>
      match cursor.skipChar? '(' with
      | some opened => readGroup cursor.position false cursor opened
      | none => readComparison cursor

end Term

/-- The connective after a group, unless the text ends there. -/
def readConnective (cursor : Cursor) : Except Error (Option Connective × Cursor) :=
  let cursor := cursor.skipBlanks
  if cursor.atEnd then .ok (none, cursor)
  else
    match Lexeme.tokenAt? Connective.tokens cursor.rest with
    | some token =>
        .ok (Connective.ofToken? token, cursor.moveTo (cursor.rest.drop token.length))
    | none => .error (.format .missingConnective cursor.rest cursor.position)

/-- The clause that a connective joins, which must come. -/
def readNext (next : Option Connective) (cursor : Cursor) :
    Except Error (Option (Connective × Cursor)) :=
  match next with
  | none => .ok none
  | some connective =>
      let following := cursor.skipBlanks
      if following.atEnd then
        .error (.format (.missingOperand connective) following.source following.position)
      else .ok (some (connective, following))

theorem Term.readGroup_shorter {start : Nat} {negated : Bool} {cursor opened : Cursor}
    {term : Term} (h : readGroup start negated cursor opened = .ok term) :
    ∃ interior position after, term = .group negated interior position after ∧
      interior.length + after.rest.length < opened.rest.length := by
  unfold readGroup at h
  split at h
  · next interior closing found =>
    split at h
    · next after past =>
      have whole := Cursor.takeGroup_length found
      have shorter := Cursor.skipToken?_shorter past
      exact ⟨interior, opened.position, after, (Except.ok.inj h).symm, by omega⟩
    · simp at h
  · simp at h

theorem Term.readComparison_shorter {cursor : Cursor} {term : Term}
    (h : readComparison cursor = .ok term) :
    ∃ text position next after, term = .comparison text position next after ∧
      after.rest.length < cursor.rest.length := by
  unfold readComparison at h
  have whole := cursor.takeUntil_length Connective.tokens
  generalize cursor.takeUntil Connective.tokens = parts at h whole
  obtain ⟨fragment, token, after⟩ := parts
  simp only at h whole
  split at h
  · simp at h
  · next nonblank =>
    have nonempty : 0 < List.length fragment := by
      cases fragment with
      | nil => exact absurd rfl nonblank
      | cons => simp
    split at h
    · simp at h
    · exact ⟨_, _, _, after, (Except.ok.inj h).symm, by omega⟩

/-- Reading a term moves the cursor, and what is inside a group is shorter than
the text that holds the group. -/
theorem Term.read_shorter {cursor : Cursor} {term : Term} (h : read cursor = .ok term) :
    match term with
    | .comparison _ _ _ after => after.rest.length < cursor.rest.length
    | .group _ interior _ after =>
        interior.length < cursor.rest.length ∧ after.rest.length < cursor.rest.length := by
  unfold read at h
  split at h
  · next negation negated =>
    have first := Cursor.skipToken?_shorter negated
    have blanks := negation.skipBlanks_le
    simp only at h
    split at h
    · next opened open' =>
      have second := Cursor.skipToken?_shorter open'
      obtain ⟨interior, position, after, rfl, bound⟩ := readGroup_shorter h
      exact ⟨by omega, by omega⟩
    · simp at h
  · split at h
    · next opened open' =>
      have first := Cursor.skipToken?_shorter open'
      obtain ⟨interior, position, after, rfl, bound⟩ := readGroup_shorter h
      exact ⟨by omega, by omega⟩
    · obtain ⟨text, position, next, after, rfl, bound⟩ := readComparison_shorter h
      exact bound

theorem Term.comparison_shorter {cursor after : Cursor} {text : Text} {position : Nat}
    {next : Option Connective} (h : read cursor = .ok (.comparison text position next after)) :
    after.rest.length < cursor.rest.length :=
  Term.read_shorter h

theorem Term.interior_shorter {cursor after : Cursor} {interior : Text} {position : Nat}
    {negated : Bool} (h : read cursor = .ok (.group negated interior position after)) :
    (Cursor.start interior position).rest.length < cursor.rest.length :=
  (Term.read_shorter h).1

theorem Term.group_shorter {cursor after : Cursor} {interior : Text} {position : Nat}
    {negated : Bool} (h : read cursor = .ok (.group negated interior position after)) :
    after.rest.length < cursor.rest.length :=
  (Term.read_shorter h).2

theorem readConnective_le {cursor after : Cursor} {next : Option Connective}
    (h : readConnective cursor = .ok (next, after)) :
    after.rest.length ≤ cursor.rest.length := by
  have blanks := cursor.skipBlanks_le
  unfold readConnective at h
  simp only at h
  split at h
  · obtain ⟨_, rfl⟩ := Prod.mk.inj (Except.ok.inj h)
    exact blanks
  · split at h
    · obtain ⟨_, rfl⟩ := Prod.mk.inj (Except.ok.inj h)
      simp only [Cursor.moveTo_rest, List.length_drop]
      omega
    · simp at h

theorem readNext_le {cursor following : Cursor} {next : Option Connective}
    {connective : Connective} (h : readNext next cursor = .ok (some (connective, following))) :
    following.rest.length ≤ cursor.rest.length := by
  unfold readNext at h
  split at h
  · simp at h
  · simp only at h
    split at h
    · simp at h
    · obtain ⟨_, rfl⟩ := Prod.mk.inj (Option.some.inj (Except.ok.inj h))
      exact cursor.skipBlanks_le

end Criteria.Clause
