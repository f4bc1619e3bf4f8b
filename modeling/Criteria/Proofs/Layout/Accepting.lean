import Criteria.Proofs.Evaluation
import Criteria.Proofs.Layout.Coverage

/-!
Accepted scripts. A text is accepted when it is that of a legible layout with blanks
around it and a criterion can be built from the clause. Where the layout stands in the
script has no part in the criterion.
-/

namespace Criteria

/-- The text is accepted, and understood as the criterion. -/
def Script.Accepts (registry : Registry) (given : Option Context) (text : Text)
    (criterion : Criterion) : Prop :=
  parse registry text given = .ok { text, criterion, bound := given }

variable {registry : Registry} {context : Context} {given : Option Context} {criterion : Criterion}

theorem Layout.build_position {layout : Layout} {position : Nat}
    (h : (layout.clause position).build registry context = .ok criterion) (other : Nat) :
    (layout.clause other).build registry context = .ok criterion := by
  induction layout generalizing position other criterion with
  | comparison text =>
      obtain ⟨leaf, hleaf, hsame⟩ := Clause.build_comparison_eq_ok_iff.mp h
      exact Clause.build_comparison_eq_ok_iff.mpr
        ⟨leaf, Comparison.parse_position other hleaf, hsame⟩
  | group negation lead inner trail ih =>
      obtain ⟨core, hcore, hsame⟩ := Clause.build_group_eq_ok_iff.mp h
      exact Clause.build_group_eq_ok_iff.mpr ⟨core, ih hcore _, hsame⟩
  | logic left before connective after right ihl ihr =>
      obtain ⟨first, second, hfirst, hsecond, hsame⟩ := Clause.build_logic_eq_ok_iff.mp h
      exact Clause.build_logic_eq_ok_iff.mpr ⟨first, second, ihl hfirst _, ihr hsecond _, hsame⟩

namespace Script

theorem Accepts.of_parse {text : Text} {script : Script}
    (h : parse registry text given = .ok script) :
    Accepts registry given text script.criterion := by
  obtain ⟨-, _, _, _, _, rfl⟩ := parse_eq_ok_iff.mp h
  exact h

/-- An accepted text is that of a legible layout with blanks around it. -/
theorem accepts_iff {text : Text} :
    Accepts registry given text criterion ↔
      ∃ lead layout trail, Text.Blank lead ∧ Text.Blank trail ∧ Layout.Legible layout ∧
        text = lead ++ (layout.text ++ trail) ∧
        ∀ position,
          (layout.clause position).build registry (given.getD .default) = .ok criterion := by
  constructor
  · intro h
    obtain ⟨-, clause, criterion', hclause, hbuild, hsame⟩ := parse_eq_ok_iff.mp h
    obtain ⟨lead, layout, trail, hlead, htrail, hlegible, rfl, rfl⟩ :=
      Clause.parse_eq_ok_iff.mp hclause
    cases hsame
    exact ⟨lead, layout, trail, hlead, htrail, hlegible, rfl, Layout.build_position hbuild⟩
  · rintro ⟨lead, layout, trail, hlead, htrail, hlegible, rfl, hbuild⟩
    have hclause := Clause.parse_of_legible hlegible hlead htrail
    exact parse_eq_ok_iff.mpr
      ⟨Clause.trim_ne_nil_of_parse hclause, _, criterion, hclause, hbuild _, rfl⟩

end Script

end Criteria
