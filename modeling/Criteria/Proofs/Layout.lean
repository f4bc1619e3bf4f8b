import Criteria.Clause
import Criteria.Proofs.Scanning.Nesting

/-!
Clauses as they stand in a text. A layout is a clause with the blanks that are
written around its parts, so it has one text, and read from a place in a script it
gives one clause. A layout is legible when its text is read as that clause: the
fragments must not be mistaken for groups or run into what follows them, and what
stands inside a group must be balanced.
-/

namespace Criteria

/-- Whether a clause joins two others. -/
def Clause.isLogic : Clause → Bool
  | logic .. => true
  | _ => false

/-- A text which stands for a comparison: it has no blanks around it, does not start
like a group, and neither a connective nor the end of a group is seen in it. -/
structure Fragment (text : Text) : Prop where
  nonempty : text ≠ []
  startsFull : text.StartsFull
  endsFull : text.EndsFull
  noGroup : text.head? ≠ some '!' ∧ text.head? ≠ some '('
  noClose : Lexeme.Avoids (· = ')') .outside text
  noConnective : Lexeme.Clear Connective.tokens .outside text []

/-- A negated group is written with an exclamation mark and the blanks given here
before its opening parenthesis. -/
inductive Layout where
  | comparison (text : Text)
  | group (negation : Option Text) (lead : Text) (inner : Layout) (trail : Text)
  | logic (left : Layout) (before : Text) (connective : Connective) (after : Text)
      (right : Layout)

namespace Layout

/-- What is written before the interior of a group. -/
def opening : (negation : Option Text) → Text
  | none => ['(']
  | some gap => '!' :: (gap ++ ['('])

def text : Layout → Text
  | comparison text => text
  | group negation lead inner trail =>
      opening negation ++ (lead ++ inner.text ++ trail ++ [')'])
  | logic left before connective after right =>
      left.text ++ (before ++ (connective.token ++ (after ++ right.text)))

/-- The clause of a layout which stands at `position` in the script. -/
def clause : Layout → (position : Nat) → Clause
  | comparison text, position => .comparison text position
  | group negation lead inner _, position =>
      .group negation.isSome (inner.clause (position + (opening negation ++ lead).byteLength))
  | logic left before connective after right, position =>
      .logic (left.clause position) connective
        (right.clause (position + (left.text ++ before ++ connective.token ++ after).byteLength))

/-- The texts of the comparisons, from left to right. -/
def fragments : Layout → List Text
  | comparison text => [text]
  | group _ _ inner _ => inner.fragments
  | logic left _ _ _ right => left.fragments ++ right.fragments

def isLogic : Layout → Bool
  | logic .. => true
  | _ => false

theorem isLogic_clause (layout : Layout) (position : Nat) :
    (layout.clause position).isLogic = layout.isLogic := by
  cases layout <;> rfl

/-- Whether the layout can stand inside a group. -/
def Enclosable (layout : Layout) : Prop :=
  ∀ text ∈ layout.fragments, Lexeme.Balanced text

/-- Whether a connective is seen after the layout and some blanks. A comparison must
close its quotes, and its last character must not begin the connective. -/
def Precedes : Layout → (before : Text) → Connective → Prop
  | comparison text, before, connective =>
      Lexeme.Clear Connective.tokens .outside (text ++ before) connective.token ∧
        Quoting.outside.run text = .outside
  | group .., _, _ => True
  | logic _ _ _ _ right, before, connective => right.Precedes before connective

def Legible : Layout → Prop
  | comparison text => Fragment text
  | group negation lead inner trail =>
      (∀ gap, negation = some gap → gap.Blank) ∧ lead.Blank ∧ trail.Blank ∧
        inner.Legible ∧ inner.Enclosable
  | logic left before connective after right =>
      left.Legible ∧ before.Blank ∧ after.Blank ∧ right.Legible ∧ right.isLogic = false ∧
        left.Precedes before connective

/-! What the text of a legible layout starts with -/

theorem Legible.text_ne_nil {layout : Layout} (h : layout.Legible) : layout.text ≠ [] := by
  induction layout with
  | comparison text => exact Fragment.nonempty h
  | group negation lead inner trail ih => simp [text]
  | logic left before connective after right ihl ihr => simp [text, ihl h.1]

theorem Legible.startsFull {layout : Layout} (h : layout.Legible) : layout.text.StartsFull := by
  induction layout with
  | comparison text => exact Fragment.startsFull h
  | group negation lead inner trail ih =>
      intro c hc
      cases negation with
      | none =>
          obtain rfl : '(' = c := by simpa [text, opening] using hc
          decide
      | some gap =>
          obtain rfl : '!' = c := by simpa [text, opening] using hc
          decide
  | logic left before connective after right ihl ihr =>
      exact (ihl h.1).append (Legible.text_ne_nil h.1) _

/-! Which layouts are balanced -/

theorem balanced_token (connective : Connective) : Lexeme.Balanced connective.token := by
  cases connective <;> decide

theorem balanced_opening {negation : Option Text} (h : ∀ gap, negation = some gap → gap.Blank)
    {interior : Text} (hinterior : Lexeme.Balanced interior) :
    Lexeme.Balanced (opening negation ++ (interior ++ [')'])) := by
  cases negation with
  | none => exact hinterior.group
  | some gap =>
      have hmark : Lexeme.Balanced ['!'] := by decide
      have hgap := Lexeme.balanced_of_blank (h gap rfl)
      have hwhole := hmark.append (hgap.append hinterior.group)
      simpa [opening] using hwhole

theorem Legible.balanced {layout : Layout} (h : layout.Legible) (henclosable : layout.Enclosable) :
    Lexeme.Balanced layout.text := by
  induction layout with
  | comparison text => exact henclosable text (by simp [fragments])
  | group negation lead inner trail ih =>
      obtain ⟨hnegation, hlead, htrail, hinner, hinnerEnclosable⟩ := h
      have hinterior : Lexeme.Balanced (lead ++ inner.text ++ trail) :=
        ((Lexeme.balanced_of_blank hlead).append (ih hinner hinnerEnclosable)).append
          (Lexeme.balanced_of_blank htrail)
      exact balanced_opening hnegation hinterior
  | logic left before connective after right ihl ihr =>
      obtain ⟨hleft, hbefore, hafter, hright, -, -⟩ := h
      have hl := ihl hleft fun t ht => henclosable t (by simp [fragments, ht])
      have hr := ihr hright fun t ht => henclosable t (by simp [fragments, ht])
      exact hl.append ((Lexeme.balanced_of_blank hbefore).append
        ((balanced_token connective).append ((Lexeme.balanced_of_blank hafter).append hr)))

/-- Behind a connective a text is read as if nothing were before it. -/
theorem run_logic {left right : Layout} {before after : Text} (connective : Connective)
    (hleft : Quoting.outside.run left.text = .outside) (hbefore : before.Blank)
    (hafter : after.Blank) :
    Quoting.outside.run (logic left before connective after right).text =
      Quoting.outside.run right.text := by
  rw [text, Quoting.run_append, hleft, Quoting.run_append, (Lexeme.balanced_of_blank hbefore).2,
    Quoting.run_append, (balanced_token connective).2, Quoting.run_append,
    (Lexeme.balanced_of_blank hafter).2]

/-- Before a connective all quotes are closed. -/
theorem Legible.run_of_precedes {layout : Layout} {before : Text} {connective : Connective}
    (h : layout.Legible) (hprecedes : layout.Precedes before connective) :
    Quoting.outside.run layout.text = .outside := by
  induction layout generalizing before connective with
  | comparison text => exact hprecedes.2
  | group negation lead inner trail ih =>
      exact (@Legible.balanced (.group negation lead inner trail) h h.2.2.2.2).2
  | logic left before' connective' after right ihl ihr =>
      obtain ⟨hleft, hbefore, hafter, hright, -, hjoined⟩ := h
      rw [run_logic connective' (ihl hleft hjoined) hbefore hafter]
      exact ihr hright hprecedes

theorem isBlank_of_mem_token :
    ∀ token ∈ Connective.tokens, ∀ c ∈ token, Text.isBlank c = false := by
  simp [Connective.tokens, Connective.token, Text.isBlank]

/-- Blanks keep a layout which closes its quotes apart from any connective. -/
theorem Legible.precedes {layout : Layout} {before : Text} (h : layout.Legible)
    (hclosed : Quoting.outside.run layout.text = .outside) (hblank : before.Blank)
    (hne : before ≠ []) (connective : Connective) : layout.Precedes before connective := by
  induction layout with
  | comparison text =>
      have hclear := Fragment.noConnective h
      exact ⟨hclear.append_blank isBlank_of_mem_token hblank hne _, hclosed⟩
  | group negation lead inner trail ih => trivial
  | logic left before' connective' after right ihl ihr =>
      obtain ⟨hleft, hbefore, hafter, hright, -, hjoined⟩ := h
      rw [run_logic connective' (hleft.run_of_precedes hjoined) hbefore hafter] at hclosed
      exact ihr hright hclosed

/-! What stands inside a group -/

theorem Legible.nesting {layout : Layout} (h : layout.Legible) :
    ∃ opened, (∀ depth, Lexeme.nesting depth .outside layout.text = some (depth + opened)) ∧
      (opened = 0 → Quoting.outside.run layout.text = .outside → layout.Enclosable) := by
  induction layout with
  | comparison text =>
      obtain ⟨opened, hdepth⟩ := Lexeme.nesting_of_avoids_close (Fragment.noClose h)
      refine ⟨opened, hdepth, ?_⟩
      rintro rfl hclosed fragment hmem
      obtain rfl := List.mem_singleton.mp hmem
      exact ⟨hdepth 0, hclosed⟩
  | group negation lead inner trail ih =>
      have hwhole := @Legible.balanced (.group negation lead inner trail) h h.2.2.2.2
      exact ⟨0, hwhole.nesting_eq, fun _ _ => h.2.2.2.2⟩
  | logic left before connective after right ihl ihr =>
      obtain ⟨hleft, hbefore, hafter, hright, -, hjoined⟩ := h
      obtain ⟨openedLeft, hdepthLeft, henclosableLeft⟩ := ihl hleft
      obtain ⟨openedRight, hdepthRight, henclosableRight⟩ := ihr hright
      have hclosedLeft := hleft.run_of_precedes hjoined
      have hmiddle : Lexeme.Balanced (before ++ (connective.token ++ after)) :=
        (Lexeme.balanced_of_blank hbefore).append
          ((balanced_token connective).append (Lexeme.balanced_of_blank hafter))
      have hsplit : text (.logic left before connective after right) =
          left.text ++ (before ++ (connective.token ++ after) ++ right.text) := by
        simp [text]
      rw [hsplit]
      refine ⟨openedLeft + openedRight, ?_, ?_⟩
      · intro depth
        rw [Lexeme.nesting_append, hdepthLeft, Option.bind_some, hclosedLeft, Lexeme.nesting_append,
          hmiddle.nesting_eq, Option.bind_some, hmiddle.2, hdepthRight, Nat.add_assoc]
      · intro hnone hclosed fragment hmem
        rw [Quoting.run_append, hclosedLeft, Quoting.run_append, hmiddle.2] at hclosed
        rcases List.mem_append.mp hmem with hmem | hmem
        · exact henclosableLeft (by omega) hclosedLeft fragment hmem
        · exact henclosableRight (by omega) hclosed fragment hmem

/-- What stands in a balanced text can stand in a group. -/
theorem Legible.enclosable {layout : Layout} {lead trail : Text} (h : layout.Legible)
    (hlead : lead.Blank) (htrail : trail.Blank)
    (hbalanced : Lexeme.Balanced (lead ++ layout.text ++ trail)) : layout.Enclosable := by
  obtain ⟨opened, hdepth, henclosable⟩ := h.nesting
  have hleadBalanced := Lexeme.balanced_of_blank hlead
  obtain ⟨hnone, hclosed⟩ := hbalanced
  rw [List.append_assoc, Lexeme.nesting_append, hleadBalanced.1, Option.bind_some,
    hleadBalanced.2, Lexeme.nesting_append, hdepth, Option.bind_some,
    Lexeme.nesting_of_avoids (Lexeme.avoids_of_forall ?_)] at hnone
  · rw [List.append_assoc, Quoting.run_append, hleadBalanced.2, Quoting.run_append] at hclosed
    exact henclosable (by simpa using hnone) (Lexeme.run_of_blank_eq_outside htrail hclosed)
  · rintro c hc (rfl | rfl)
    · exact absurd (htrail _ hc) (by decide)
    · exact absurd (htrail _ hc) (by decide)

end Layout

end Criteria
