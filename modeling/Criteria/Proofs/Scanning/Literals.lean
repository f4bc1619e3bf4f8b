import Criteria.Proofs.Scanning.Sealing

/-!
Closed literals inside a text. A search that meets a literal outside quotes passes it
whole, whatever stands in it. So it ends before the literal or behind it, at a place
which is found without regard to its content.
-/

namespace Criteria

theorem Quoting.eq_quote_of_next {quoting : Quoting} {c : Char} (hinside : quoting ≠ .outside)
    (h : quoting.next c = .outside) : c = '"' := by
  cases quoting with
  | outside => exact absurd rfl hinside
  | inside =>
      by_contra hc
      rw [next, if_neg hc] at h
      split at h <;> cases h
  | escaped => cases h

namespace Text

variable {literal a b : Text}

/-- A double-quoted literal which is closed by its last character. -/
def Literal (text : Text) : Prop :=
  ∃ rest, text = '"' :: rest ∧ Closing rest

namespace Literal

theorem ne_nil (h : Literal literal) : literal ≠ [] := by
  obtain ⟨rest, rfl, -⟩ := h
  exact List.cons_ne_nil _ _

theorem run (h : Literal literal) : Quoting.outside.run literal = .outside := by
  obtain ⟨rest, rfl, hclosing⟩ := h
  exact hclosing.closed

/-- No character but its opening quote stands outside quotes. -/
theorem avoids (h : Literal literal) {bad : Char → Prop} (hquote : ¬bad '"') :
    Lexeme.Avoids bad .outside literal := by
  obtain ⟨rest, rfl, hclosing⟩ := h
  exact ⟨fun _ => hquote, hclosing.hidden.imp fun _ _ => trivial⟩

/-- No token starts in it. -/
theorem clear (h : Literal literal) {candidates : List Text}
    (hquote : ∀ token ∈ candidates, '"' ∉ token) (following : Text) :
    Lexeme.Clear candidates .outside literal following := by
  have havoids : Lexeme.Avoids (· ≠ '"') .outside literal := h.avoids (by simp)
  refine havoids.clear ?_ following
  rintro token htoken c hc rfl
  exact hquote token htoken (List.mem_of_mem_head? hc)

/-- An initial part which closes its quotes is empty or the whole literal. -/
theorem eq_nil_of_run (h : Literal (a ++ b)) (hclosed : Quoting.outside.run a = .outside) :
    a = [] ∨ b = [] := by
  obtain ⟨rest, hsplit, hclosing⟩ := h
  cases a with
  | nil => exact .inl rfl
  | cons c more =>
      obtain ⟨rfl, rfl⟩ := List.cons_eq_cons.mp hsplit
      cases b with
      | nil => exact .inr rfl
      | cons d left =>
          have hhidden := (Lexeme.avoids_append_iff.mp hclosing.hidden).2
          exact absurd trivial (hhidden.1 hclosed)

theorem startsFull (h : Literal literal) : literal.StartsFull := by
  obtain ⟨rest, rfl, -⟩ := h
  rintro c ⟨⟩
  decide

theorem endsFull (h : Literal literal) : literal.EndsFull := by
  intro c hc
  obtain ⟨front, rfl⟩ := List.getLast?_eq_some_iff.mp hc
  have hclosed := h.run
  rw [Quoting.run_append] at hclosed
  have hinside : Quoting.outside.run front ≠ .outside := by
    intro houtside
    rcases h.eq_nil_of_run houtside with rfl | hnil
    · obtain ⟨rest, hsplit, hclosing⟩ := h
      obtain ⟨-, rfl⟩ := List.cons_eq_cons.mp hsplit
      exact absurd hclosing.closed (by decide)
    · cases hnil
  rw [Quoting.eq_quote_of_next hinside hclosed]
  decide

end Literal

theorem closing_escape (text : Text) : Closing (Quoted.escape text ++ ['"']) := by
  induction text with
  | nil => exact closing_quote
  | cons c rest ih =>
      by_cases hspecial : c = '"' ∨ c = '\\'
      · simpa [Quoted.escape, hspecial] using ih.escape c
      · obtain ⟨hquote, hbackslash⟩ := not_or.mp hspecial
        simpa [Quoted.escape, hspecial] using ih.cons hquote hbackslash

theorem literal_encode (text : Text) : Literal (Quoted.encode text) :=
  ⟨_, rfl, closing_escape text⟩

theorem skipBlanks_literal (h : Literal literal) (before after : Text) :
    skipBlanks (before ++ (literal ++ after)) = skipBlanks before ++ (literal ++ after) := by
  obtain ⟨lead, hlead, hsplit⟩ := exists_append_skipBlanks before
  have hstart : StartsFull (skipBlanks before ++ (literal ++ after)) := by
    by_cases hnil : skipBlanks before = []
    · rw [hnil]
      exact h.startsFull.append h.ne_nil after
    · exact (startsFull_skipBlanks before).append hnil _
  calc skipBlanks (before ++ (literal ++ after))
      = skipBlanks (lead ++ (skipBlanks before ++ (literal ++ after))) := by
        rw [← List.append_assoc lead, ← hsplit]
    _ = skipBlanks before ++ (literal ++ after) := by
        rw [skipBlanks_append hlead, skipBlanks_of_startsFull hstart]

theorem trimEnd_literal (h : Literal literal) (before after : Text) :
    trimEnd (before ++ (literal ++ after)) = before ++ (literal ++ trimEnd after) := by
  obtain ⟨trail, htrail, hsplit⟩ := exists_trimEnd_append after
  have hend : EndsFull (before ++ (literal ++ trimEnd after)) := by
    refine EndsFull.append ?_ (by simp [h.ne_nil]) before
    by_cases hnil : trimEnd after = []
    · rw [hnil, List.append_nil]
      exact h.endsFull
    · exact (endsFull_trimEnd after).append hnil literal
  calc trimEnd (before ++ (literal ++ after))
      = trimEnd (before ++ (literal ++ trimEnd after) ++ trail) := by
        rw [List.append_assoc, List.append_assoc, ← hsplit]
    _ = before ++ (literal ++ trimEnd after) := by
        rw [trimEnd_append htrail, trimEnd_of_endsFull hend]

theorem trim_literal (h : Literal literal) (before after : Text) :
    trim (before ++ (literal ++ after)) = skipBlanks before ++ (literal ++ trimEnd after) := by
  rw [trim, skipBlanks_literal h, trimEnd_literal h]

theorem run_skipBlanks (text : Text) :
    Quoting.outside.run (skipBlanks text) = Quoting.outside.run text := by
  obtain ⟨lead, hlead, hsplit⟩ := exists_append_skipBlanks text
  have hrun := congrArg Quoting.outside.run hsplit
  rw [Quoting.run_append, (Lexeme.balanced_of_blank hlead).2] at hrun
  exact hrun.symm

end Text

/-! A search either ends before a literal or passes it -/

namespace Lexeme

variable {candidates : List Text} {before after literal : Text}

/-- A text without quotes keeps what follows it at its place. -/
theorem run_of_run_append {token gap : Text} (hquote : '"' ∉ token)
    (h : Quoting.outside.run (token ++ gap) = .outside) : Quoting.outside.run gap = .outside := by
  have htoken : Quoting.outside.run token = .outside :=
    run_of_forall_ne_quote fun c hc hsame => hquote (hsame ▸ hc)
  rwa [Quoting.run_append, htoken] at h

theorem tokenAt?_literal (h : Text.Literal literal) (hquote : ∀ token ∈ candidates, '"' ∉ token)
    (before after : Text) :
    tokenAt? candidates (before ++ (literal ++ after)) = tokenAt? candidates before := by
  obtain ⟨rest, rfl, -⟩ := h
  exact tokenAt?_append_mark hquote (rest ++ after)

/-- The first token is before the literal, or else it is the first one behind it. -/
theorem splitAtToken_literal (hclosed : Quoting.outside.run before = .outside)
    (hquote : ∀ token ∈ candidates, '"' ∉ token) (after : Text) :
    (∃ left token gap, before = left ++ (token ++ gap) ∧ Quoting.outside.run gap = .outside ∧
      ∀ literal, Text.Literal literal →
        splitAtToken candidates (before ++ (literal ++ after)) =
          (left, some token, gap ++ (literal ++ after))) ∨
      ∀ literal, Text.Literal literal →
        splitAtToken candidates (before ++ (literal ++ after)) =
          (before ++ (literal ++ (splitAtToken candidates after).1),
            (splitAtToken candidates after).2) := by
  cases hsplit : splitAtToken candidates before with
  | mk left others =>
      obtain ⟨token, gap⟩ := others
      cases token with
      | none =>
          obtain ⟨-, -, hclear⟩ := splitAtToken_eq_none hsplit
          refine .inr fun literal h => ?_
          -- no token which starts in `before` reaches into the literal: none has a quote in it
          have hbefore : Clear candidates .outside before (literal ++ after) := by
            obtain ⟨rest, rfl, -⟩ := h
            exact hclear.separated hquote (rest ++ after)
          rw [splitAtToken_append_of_clear hbefore hclosed,
            splitAtToken_append_of_clear (h.clear hquote after) h.run]
      | some token =>
          obtain ⟨rfl, -, hvisible⟩ := splitAtToken_eq_some hsplit
          obtain ⟨hplace, hmem, -, -⟩ := visibleToken?_eq_some hvisible
          rw [Quoting.run_append, hplace] at hclosed
          refine .inl ⟨left, token, gap, rfl, run_of_run_append (hquote token hmem) hclosed, ?_⟩
          rintro _ ⟨rest, rfl, -⟩
          exact splitAtToken_append_mark hquote hsplit (rest ++ after)

/-- A group ends before the literal, or else where it ends does not depend on it. -/
theorem group?_literal (hclosed : Quoting.outside.run before = .outside) (after : Text) :
    (∃ interior gap, before = interior ++ gap ∧ Quoting.outside.run gap = .outside ∧
      ∀ literal, Text.Literal literal →
        group? (before ++ (literal ++ after)) = some (interior, gap ++ (literal ++ after))) ∨
      ∃ depth, ∀ literal, Text.Literal literal →
        group? (before ++ (literal ++ after)) =
          (splitBeforeClose? depth .outside after).map
            fun (inner, left) => (before ++ (literal ++ inner), left) := by
  cases hdepth : nesting 0 .outside before with
  | none =>
      obtain ⟨interior, gap, hsplit⟩ := exists_of_nesting_eq_none hdepth
      obtain ⟨rfl, hclose, hnesting, hrun⟩ := splitBeforeClose?_eq_some_iff.mp hsplit
      rw [Quoting.run_append, hrun] at hclosed
      refine .inl ⟨interior, gap, rfl, hclosed, fun literal _ => ?_⟩
      refine group?_eq_some_iff.mpr ⟨List.append_assoc .., ?_, hnesting, hrun⟩
      rw [List.head?_append, hclose]
      rfl
  | some depth =>
      refine .inr ⟨depth, fun literal h => ?_⟩
      have hliteral : nesting depth .outside literal = some depth :=
        nesting_of_avoids (h.avoids (by simp))
      rw [group?, splitBeforeClose?_of_nesting hdepth, hclosed,
        splitBeforeClose?_of_nesting hliteral, h.run, Option.map_map]
      rfl

end Lexeme

end Criteria
