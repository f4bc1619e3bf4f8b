import Criteria.Operand.Measures
import Criteria.Proofs.Layout.Canonical

/-!
The canonical text of a script without negated groups is read as the same script. A
comparison which does not close its quotes or parentheses stands at the end of a
script and outside all groups, so it is neither enclosed nor followed by anything in
the canonical text.
-/

namespace Criteria

/-- Whether a group of the clause is negated. -/
def Clause.negates : Clause → Bool
  | comparison _ _ => false
  | group negated inner => negated || inner.negates
  | logic left _ right => left.negates || right.negates

namespace Layout

/-- One layout can be written in place of another. -/
structure Replaces (other layout : Layout) : Prop where
  legible : other.Legible
  fragments : other.fragments = layout.fragments
  closed : Quoting.outside.run layout.text = .outside → Quoting.outside.run other.text = .outside

variable {registry : Registry} {context : Context} {criterion : Criterion}

theorem Replaces.enclosable {other layout : Layout} (h : other.Replaces layout)
    (henclosable : layout.Enclosable) : other.Enclosable :=
  (enclosable_congr h.fragments).mpr henclosable

theorem text_of_build_comparison {text : Text} (h : Fragment text) {position : Nat}
    (hbuild : ((comparison text).clause position).build registry context = .ok criterion) :
    ∃ leaf, Comparison.parse text position registry context = .ok leaf ∧ leaf.text = text ∧
      .comparison leaf = criterion := by
  obtain ⟨leaf, hleaf, hsame⟩ := Clause.build_comparison_eq_ok_iff.mp hbuild
  refine ⟨leaf, hleaf, ?_, hsame⟩
  rw [Comparison.text_of_parse hleaf, Text.trim_of_full h.startsFull h.endsFull]

/-- The right side of a connective is a comparison, which stays one, or a group. -/
theorem Replaces.asOperand {right : Layout} (hright : right.Legible)
    (hlogic : right.isLogic = false) {position : Nat}
    (hbuild : (right.clause position).build registry context = .ok criterion)
    (h : criterion.layout.Replaces right) : criterion.layout.asOperand.Replaces right := by
  have hinside : criterion.layout.isLogic = true → criterion.layout.Enclosable := by
    intro hjoined
    cases right with
    | comparison text =>
        obtain ⟨leaf, -, -, rfl⟩ := text_of_build_comparison hright hbuild
        cases hjoined
    | group negation lead inner trail => exact h.enclosable hright.2.2.2.2
    | logic left before connective after right => cases hlogic
  refine ⟨h.legible.asOperand hinside, ?_, fun hclosed => ?_⟩
  · rw [fragments_asOperand, h.fragments]
  · cases hjoined : criterion.layout.isLogic with
    | false =>
        rw [asOperand_of_not_isLogic hjoined]
        exact h.closed hclosed
    | true =>
        apply (h.legible.asOperand hinside).run_of_enclosable
        exact (enclosable_congr (fragments_asOperand _)).mpr (hinside hjoined)

/-- The canonical layout of what is built from a layout can be written in its place. -/
theorem replaces_of_build {layout : Layout} (h : layout.Legible) {position : Nat}
    (hplain : (layout.clause position).negates = false)
    (hbuild : (layout.clause position).build registry context = .ok criterion) :
    criterion.layout.Replaces layout := by
  induction layout generalizing position criterion with
  | comparison text =>
      obtain ⟨leaf, -, hsame, rfl⟩ := text_of_build_comparison h hbuild
      rw [Criterion.layout, hsame]
      exact ⟨h, rfl, id⟩
  | group negation lead inner trail ih =>
      obtain ⟨-, -, -, hinner, henclosable⟩ := h
      obtain ⟨hnegated, hplain⟩ := Bool.or_eq_false_iff.mp hplain
      obtain ⟨core, hcore, hsame⟩ := Clause.build_group_eq_ok_iff.mp hbuild
      rw [hnegated, if_neg Bool.false_ne_true] at hsame
      obtain rfl := hsame
      have hreplaces := ih hinner hplain hcore
      refine ⟨hreplaces.legible, hreplaces.fragments, fun _ => ?_⟩
      exact hreplaces.legible.run_of_enclosable (hreplaces.enclosable henclosable)
  | logic left before connective after right ihl ihr =>
      obtain ⟨hleft, hbefore, hafter, hright, hlogic, hprecedes⟩ := h
      obtain ⟨hplainLeft, hplainRight⟩ := Bool.or_eq_false_iff.mp hplain
      obtain ⟨first, second, hfirst, hsecond, rfl⟩ := Clause.build_logic_eq_ok_iff.mp hbuild
      have hreplacesLeft := ihl hleft hplainLeft hfirst
      have hreplacesRight := (ihr hright hplainRight hsecond).asOperand hright hlogic hsecond
      have hclosed := hleft.run_of_precedes hprecedes
      have hclosedLeft := hreplacesLeft.closed hclosed
      have hblank := Text.blank_space
      refine ⟨⟨hreplacesLeft.legible, hblank, hblank, hreplacesRight.legible, isLogic_asOperand _,
        hreplacesLeft.legible.precedes hclosedLeft hblank (by simp) connective⟩, ?_,
        fun hwhole => ?_⟩
      · rw [Criterion.layout, fragments, fragments, hreplacesLeft.fragments,
          hreplacesRight.fragments]
      · rw [run_logic connective hclosed hbefore hafter] at hwhole
        rw [Criterion.layout, run_logic connective hclosedLeft hblank hblank]
        exact hreplacesRight.closed hwhole

/-- The comparisons of a script without negated groups are stable. -/
theorem stable_of_build {layout : Layout} (h : layout.Legible) {position : Nat}
    (hplain : (layout.clause position).negates = false)
    (hbuild : (layout.clause position).build registry context = .ok criterion) :
    criterion.Stable registry context := by
  induction layout generalizing position criterion with
  | comparison text =>
      obtain ⟨leaf, hleaf, hsame, rfl⟩ := text_of_build_comparison h hbuild
      intro c hc other
      obtain rfl := List.mem_singleton.mp hc
      rw [hsame]
      exact Comparison.parse_position other hleaf
  | group negation lead inner trail ih =>
      obtain ⟨hnegated, hplain⟩ := Bool.or_eq_false_iff.mp hplain
      obtain ⟨core, hcore, hsame⟩ := Clause.build_group_eq_ok_iff.mp hbuild
      rw [hnegated, if_neg Bool.false_ne_true] at hsame
      obtain rfl := hsame
      exact ih h.2.2.2.1 hplain hcore
  | logic left before connective after right ihl ihr =>
      obtain ⟨hplainLeft, hplainRight⟩ := Bool.or_eq_false_iff.mp hplain
      obtain ⟨first, second, hfirst, hsecond, rfl⟩ := Clause.build_logic_eq_ok_iff.mp hbuild
      exact Criterion.Stable.logic_iff.mpr
        ⟨ihl h.1 hplainLeft hfirst, ihr h.2.2.2.1 hplainRight hsecond⟩

end Layout

/-- The canonical text of a script whose clauses have no negated group is read, with
any registry and context, as the same criterion. -/
theorem Script.parse_canonical {registry : Registry} {text : Text} {given : Option Context}
    {script : Script} {clause : Clause} (hclause : Clause.parse text = .ok clause)
    (hplain : clause.negates = false) (hparse : parse registry text given = .ok script) :
    parse registry script.criterion.text given =
      .ok { script with text := script.criterion.text } := by
  obtain ⟨-, clause', criterion, hclause', hbuild, rfl⟩ := parse_eq_ok_iff.mp hparse
  obtain rfl := Except.ok.inj (hclause.symm.trans hclause')
  obtain ⟨lead, layout, trail, hlead, htrail, hlegible, rfl, rfl⟩ :=
    Clause.parse_eq_ok_iff.mp hclause
  exact (accepts_text_iff (Layout.replaces_of_build hlegible hplain hbuild).legible).mpr
    (Layout.stable_of_build hlegible hplain hbuild)

/-- One length measures an opening parenthesis and another one a quote which is never
closed. -/
theorem Script.parse_canonical_lengths :
    let registry := Registry.builtin.registerFront .length
    let text := "(#ab == 2)&&#( == 1 && ((2==2 || true == false))||4 == #\"ab( ".toList
    ∃ clause script, Clause.parse text = .ok clause ∧ clause.negates = false ∧
      parse registry text none = .ok script ∧
      script.criterion.text =
        "#ab == 2 && #( == 1 && (2==2 || true == false) || 4 == #\"ab(".toList ∧
      parse registry script.criterion.text none =
        .ok { script with text := script.criterion.text } := by
  intro registry text
  have hclauses : (Clause.parse text).map Clause.negates = .ok false := by decide +kernel
  have hcanonical : (parse registry text none).map (fun script => script.criterion.text) =
      .ok "#ab == 2 && #( == 1 && (2==2 || true == false) || 4 == #\"ab(".toList := by
    decide +kernel
  obtain ⟨clause, hclause, hplain⟩ := Except.map_eq_ok_iff.mp hclauses
  obtain ⟨script, hparse, htext⟩ := Except.map_eq_ok_iff.mp hcanonical
  exact ⟨clause, script, hclause, hplain, hparse, htext, parse_canonical hclause hplain hparse⟩

end Criteria
