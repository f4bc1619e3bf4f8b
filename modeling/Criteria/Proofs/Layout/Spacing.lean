import Criteria.Proofs.Layout.Reading

/-!
Clauses can be written and read back. A well-spaced layout writes a tree of clauses
with any blanks around its parts, as long as a comparison is kept apart from the
connective that follows it. Its comparisons close their quotes and show no
parentheses, so that no blank but this one is needed to read the tree back.
-/

namespace Criteria

/-- A fragment which closes its quotes and shows no parenthesis. It can stand anywhere
in a script. -/
structure PlainFragment (text : Text) : Prop extends Fragment text where
  closed : Quoting.outside.run text = .outside
  noOpen : Lexeme.Avoids (· = '(') .outside text

namespace PlainFragment

variable {text : Text}

theorem balanced (h : PlainFragment text) : Lexeme.Balanced text := by
  refine Lexeme.balanced_of_avoids ?_ h.closed
  exact Lexeme.avoids_or_iff.mpr ⟨h.noOpen, h.noClose⟩

instance (text : Text) : Decidable (PlainFragment text) :=
  decidable_of_iff
    ((text ≠ [] ∧ text.StartsFull ∧ text.EndsFull ∧ text.head? ≠ some '!' ∧ text.head? ≠ some '(') ∧
      Lexeme.Avoids (· = ')') .outside text ∧ Lexeme.Clear Connective.tokens .outside text [] ∧
      Quoting.outside.run text = .outside ∧ Lexeme.Avoids (· = '(') .outside text)
    (by
      constructor
      · rintro ⟨⟨hne, hstart, hend, hgroup⟩, hclose, hconnective, hclosed, hopen⟩
        exact ⟨⟨hne, hstart, hend, hgroup, hclose, hconnective⟩, hclosed, hopen⟩
      · rintro ⟨⟨hne, hstart, hend, hgroup, hclose, hconnective⟩, hclosed, hopen⟩
        exact ⟨⟨hne, hstart, hend, hgroup⟩, hclose, hconnective, hclosed, hopen⟩)

end PlainFragment

namespace Layout

variable {layout : Layout}

/-- Whether a comparison is the last part of the layout. -/
def endsBare : Layout → Bool
  | comparison _ => true
  | group .. => false
  | logic _ _ _ _ right => right.endsBare

/-- The blanks are blank, the right side of every connective is a comparison or a group,
and a comparison is followed by a blank before a connective. -/
def Spaced : Layout → Prop
  | comparison text => PlainFragment text
  | group negation lead inner trail =>
      (∀ gap, negation = some gap → gap.Blank) ∧ lead.Blank ∧ inner.Spaced ∧ trail.Blank
  | logic left before _ after right =>
      left.Spaced ∧ before.Blank ∧ (left.endsBare = true → before ≠ []) ∧ after.Blank ∧
        right.Spaced ∧ right.isLogic = false

instance decidableSpaced : (layout : Layout) → Decidable layout.Spaced
  | comparison text => inferInstanceAs (Decidable (PlainFragment text))
  | group negation _ inner _ =>
      have := decidableSpaced inner
      have : Decidable (∀ gap, negation = some gap → Text.Blank gap) :=
        inferInstanceAs (Decidable (∀ gap ∈ negation, Text.Blank gap))
      inferInstanceAs (Decidable (_ ∧ _ ∧ _ ∧ _))
  | logic left _ _ _ right =>
      have := decidableSpaced left
      have := decidableSpaced right
      inferInstanceAs (Decidable (_ ∧ _ ∧ _ ∧ _ ∧ _ ∧ _))

theorem Spaced.enclosable (h : layout.Spaced) : layout.Enclosable := by
  induction layout with
  | comparison text =>
      intro fragment hmem
      obtain rfl := List.mem_singleton.mp hmem
      exact PlainFragment.balanced h
  | group negation lead inner trail ih => exact ih h.2.2.1
  | logic left before connective after right ihl ihr =>
      obtain ⟨hleft, -, -, -, hright, -⟩ := h
      intro fragment hmem
      rcases List.mem_append.mp hmem with hmem | hmem
      · exact ihl hleft fragment hmem
      · exact ihr hright fragment hmem

/-- A layout which ends in a group stands before a connective without a blank. -/
theorem precedes_of_not_endsBare {before : Text} (h : layout.endsBare = false)
    (connective : Connective) : layout.Precedes before connective := by
  induction layout with
  | comparison text => cases h
  | group negation lead inner trail ih => trivial
  | logic left before' connective' after right ihl ihr => exact ihr h

theorem Spaced.legible (h : layout.Spaced) : layout.Legible := by
  induction layout with
  | comparison text => exact PlainFragment.toFragment h
  | group negation lead inner trail ih =>
      obtain ⟨hnegation, hlead, hinner, htrail⟩ := h
      exact ⟨hnegation, hlead, htrail, ih hinner, hinner.enclosable⟩
  | logic left before connective after right ihl ihr =>
      obtain ⟨hleft, hbefore, hapart, hafter, hright, hlogic⟩ := h
      refine ⟨ihl hleft, hbefore, hafter, ihr hright, hlogic, ?_⟩
      cases hbare : left.endsBare with
      | false => exact precedes_of_not_endsBare hbare connective
      | true =>
          have hclosed := ((ihl hleft).balanced hleft.enclosable).2
          exact (ihl hleft).precedes hclosed hbefore (hapart hbare) connective

end Layout

/-- A well-spaced layout is read back as the tree it writes, with every comparison at the
byte where it was written. -/
theorem Clause.parse_spaced {layout : Layout} {lead trail : Text} (h : layout.Spaced)
    (hlead : lead.Blank) (htrail : trail.Blank) :
    parse (lead ++ (layout.text ++ trail)) = .ok (layout.clause lead.byteLength) :=
  parse_of_legible h.legible hlead htrail

/-- Blanks of several widths, a fragment which ends like a connective, and literals with
parentheses and an escaped quote. -/
theorem Clause.parse_spaced_nested :
    let member : Layout := .comparison "é == \"(&&\"".toList
    let inside : Layout := .group none [] (.comparison "n<3".toList) ['\u2003']
    let layout : Layout :=
      .logic (.group (some ['\u00a0']) ['\t'] (.logic member [' '] .and [] inside) [' ']) [] .or
        ['\n'] (.comparison "t& != \"\\\")\"".toList)
    layout.Spaced ∧ Text.Blank ['\u3000'] ∧
      parse "\u3000!\u00a0(\té == \"(&&\" &&(n<3\u2003) )||\nt& != \"\\\")\" ".toList =
        .ok (.logic
          (.group true (.logic (.comparison "é == \"(&&\"".toList 8) .and
            (.group false (.comparison "n<3".toList 23))))
          .or (.comparison "t& != \"\\\")\"".toList 35)) := by
  intro member inside layout
  have hspaced : layout.Spaced := by decide +kernel
  have hlead : Text.Blank ['\u3000'] := by decide
  have hread := parse_spaced hspaced hlead Text.blank_space
  refine ⟨hspaced, hlead, ?_⟩
  have htext : "\u3000!\u00a0(\té == \"(&&\" &&(n<3\u2003) )||\nt& != \"\\\")\" ".toList =
      ['\u3000'] ++ (layout.text ++ [' ']) := by decide +kernel
  rw [htext, hread]
  decide +kernel

end Criteria
