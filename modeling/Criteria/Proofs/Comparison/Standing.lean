import Criteria.Proofs.Comparison.Spelling

/-!
Texts which stand for one operand. Wherever such a text is written beside a comparator, the
comparison is split at this comparator, and the whole text is taken for the operand.
-/

namespace Criteria

open Operation (comparators)

variable {text before lead gap trail token after : Text} {operand : Operand}

/-- In every comparison the text is one operand. It is split off on the left of each
comparator, and on the right of the first one. No connective and no parenthesis of it is
seen, the parsers take it for the operand, and so does each comparison that is accepted. -/
structure Text.StandsFor (text : Text) (operand : Operand) : Prop where
  left {lead gap token after : Text} (hlead : lead.Blank) (hgap : gap.Blank)
    (htoken : Lexeme.tokenAt? comparators (token ++ after) = some token) :
    Comparison.split? (lead ++ text ++ gap ++ (token ++ after)) =
      some (text, token, Text.trim after)
  right {before token gap trail : Text} (htoken : token ∈ comparators) (hgap : gap.Blank)
    (htrail : trail.Blank)
    (hclear : Lexeme.Clear comparators .outside before (token ++ (gap ++ text ++ trail)))
    (hclosed : Quoting.outside.run before = .outside) :
    Comparison.split? (before ++ (token ++ (gap ++ text ++ trail))) =
      some (Text.trim before, token, text)
  hides : text.Hides Text.joints
  selects : ∃ index, Registry.builtin.Selects text index operand
  accepts {fragment first token second : Text} {position : Nat} {context : Context}
    {comparison : Comparison} (hsplit : Comparison.split? fragment = some (first, token, second))
    (hparse : Comparison.parse fragment position .builtin context = .ok comparison) :
    (first = text → comparison.left = operand) ∧ (second = text → comparison.right = operand)

/-- Behind a comparator no solid text lengthens it. -/
theorem Text.Solid.tokenAt?_comparator (h : text.Solid) (htoken : token ∈ comparators)
    (hgap : gap.Blank) :
    Lexeme.tokenAt? comparators (token ++ (gap ++ text ++ trail)) = some token := by
  apply Operation.tokenAt?_append htoken
  have hsealed : Text.Sealed (gap ++ text) := (sealed_of_blank hgap).append h.isSealed
  obtain ⟨c, rest, hsplit⟩ := List.exists_cons_of_ne_nil (List.append_ne_nil_of_right_ne_nil gap
    h.nonempty)
  rw [hsplit] at hsealed ⊢
  rintro ⟨⟩
  exact hsealed.avoids.1 rfl (by decide)

/-- An accepted comparison takes each of its texts for what the parsers take it for. -/
theorem Registry.Selects.operands_of_parse {fragment first second : Text} {index position : Nat}
    {context : Context} {comparison : Comparison} (h : builtin.Selects text index operand)
    (hsplit : Comparison.split? fragment = some (first, token, second))
    (hparse : Comparison.parse fragment position .builtin context = .ok comparison) :
    (first = text → comparison.left = operand) ∧ (second = text → comparison.right = operand) := by
  obtain ⟨token', i, j, left, right, hsplit', hreads, -⟩ :=
    Comparison.reads_of_parse Registry.builtin_settled hparse
  obtain ⟨rfl, -, rfl⟩ : first = comparison.left.source ∧ token = token' ∧
      second = comparison.right.source := by
    simpa using hsplit.symm.trans hsplit'
  constructor
  · rintro rfl
    exact (hreads.left.unique h).2
  · rintro rfl
    exact (hreads.right.unique h).2

/-- What the parsers which every script may use recognize stands for the operand. -/
theorem Registry.Selects.standsFor {index : Nat} (h : builtin.Selects text index operand)
    (htrim : Text.trim text = text) : text.StandsFor operand := by
  have hsolid := h.solid htrim
  constructor
  case left =>
    intro lead gap token after hlead hgap htoken
    -- What stands before the token is sealed, so the token is the first one.
    have hbefore : Text.Sealed (lead ++ text ++ gap) :=
      ((Text.sealed_of_blank hlead).append hsolid.isSealed).append (Text.sealed_of_blank hgap)
    have hclear : Lexeme.Clear comparators .outside (lead ++ text ++ gap) (token ++ after) :=
      hbefore.avoids.clear (by simp [comparators, Text.marks]) _
    have hvisible : Lexeme.visibleToken? comparators (Quoting.outside.run (lead ++ text ++ gap))
        (token ++ after) = some token := by
      rw [hbefore.closed]
      exact Operation.visibleToken?_of_tokenAt? htoken
    rw [Comparison.split?, Lexeme.splitAtToken_of_token hclear hvisible]
    simp only [Text.trim_append_blank hgap, Text.trim_blank_append hlead, htrim]
  case right =>
    intro before token gap trail htoken hgap htrail hclear hclosed
    have hvisible : Lexeme.visibleToken? comparators (Quoting.outside.run before)
        (token ++ (gap ++ text ++ trail)) = some token := by
      rw [hclosed]
      exact Operation.visibleToken?_of_tokenAt? (hsolid.tokenAt?_comparator htoken hgap)
    rw [Comparison.split?, Lexeme.splitAtToken_of_token hclear hvisible]
    simp only [Text.trim_append_blank htrail, Text.trim_blank_append hgap, htrim]
  case hides => exact hsolid.isSealed.hides_joints
  case selects => exact ⟨index, h⟩
  case accepts => exact h.operands_of_parse

end Criteria
