import Criteria.Proofs.Layout.Accepting

/-!
The canonical text of a criterion as a layout: one blank around every connective, and
a group around what is joined on the right unless it is a comparison. A canonical text
is read as the same criterion when this layout is legible and the comparisons are
stable.
-/

namespace Criteria

namespace Layout

/-- The layout as the right side of a connective. -/
def asOperand (layout : Layout) : Layout :=
  if layout.isLogic then group none [] layout [] else layout

section

variable {layout : Layout}

theorem asOperand_of_isLogic (h : layout.isLogic = true) :
    layout.asOperand = group none [] layout [] :=
  if_pos h

theorem asOperand_of_not_isLogic (h : layout.isLogic = false) : layout.asOperand = layout := by
  rw [asOperand, h]
  rfl

@[simp] theorem isLogic_asOperand (layout : Layout) : layout.asOperand.isLogic = false := by
  unfold asOperand
  split
  · rfl
  · next h => simpa using h

@[simp] theorem fragments_asOperand (layout : Layout) :
    layout.asOperand.fragments = layout.fragments := by
  unfold asOperand
  split <;> rfl

theorem enclosable_congr {other : Layout} (h : layout.fragments = other.fragments) :
    layout.Enclosable ↔ other.Enclosable := by
  unfold Enclosable
  rw [h]

theorem Enclosable.logic_iff {left right : Layout} {before after : Text} {connective : Connective} :
    (logic left before connective after right).Enclosable ↔ left.Enclosable ∧ right.Enclosable := by
  unfold Enclosable
  exact List.forall_mem_append

theorem Legible.asOperand (h : layout.Legible)
    (hinside : layout.isLogic = true → layout.Enclosable) : layout.asOperand.Legible := by
  cases hlogic : layout.isLogic with
  | false => rwa [asOperand_of_not_isLogic hlogic]
  | true =>
      rw [asOperand_of_isLogic hlogic]
      exact ⟨by simp, Text.blank_nil, Text.blank_nil, h, hinside hlogic⟩

/-- Two layouts with the same comparisons both close their quotes when the second one
stands in a group. -/
theorem Legible.run_of_enclosable (h : layout.Legible) (henclosable : layout.Enclosable) :
    Quoting.outside.run layout.text = .outside :=
  (h.balanced henclosable).2

end

end Layout

namespace Criterion

/-- How the canonical text is laid out. -/
def layout : Criterion → Layout
  | comparison c => .comparison c.text
  | logic left connective right =>
      .logic left.layout [' '] connective [' '] right.layout.asOperand

theorem text_layout (criterion : Criterion) : criterion.layout.text = criterion.text := by
  induction criterion with
  | comparison c => rfl
  | logic left connective right ihl ihr =>
      cases right with
      | comparison c =>
          rw [layout, Layout.text, ihl, Layout.asOperand_of_not_isLogic rfl, ihr]
          simp [text]
      | logic first connective' second =>
          rw [layout, Layout.text, ihl, Layout.asOperand_of_isLogic rfl, Layout.text, ihr]
          simp [text, Layout.opening]

theorem fragments_layout (criterion : Criterion) :
    criterion.layout.fragments = criterion.leaves.map Comparison.text := by
  induction criterion with
  | comparison c => rfl
  | logic left connective right ihl ihr => simp [layout, leaves, Layout.fragments, ihl, ihr]

/-- Comparisons which close their quotes and parentheses make a legible layout. -/
theorem legible_layout {criterion : Criterion}
    (h : ∀ comparison ∈ criterion.leaves,
      Fragment comparison.text ∧ Lexeme.Balanced comparison.text) :
    criterion.layout.Legible := by
  have henclosable {part : Criterion} (hpart : ∀ comparison ∈ part.leaves,
      Fragment comparison.text ∧ Lexeme.Balanced comparison.text) : part.layout.Enclosable := by
    intro text htext
    rw [fragments_layout] at htext
    obtain ⟨comparison, hleaf, rfl⟩ := List.mem_map.mp htext
    exact (hpart comparison hleaf).2
  induction criterion with
  | comparison c => exact (h c (by simp [leaves])).1
  | logic left connective right ihl ihr =>
      have hleft := ihl fun c hc => h c (by simp [leaves, hc])
      have hright := ihr fun c hc => h c (by simp [leaves, hc])
      have hclosed := hleft.run_of_enclosable (henclosable fun c hc => h c (by simp [leaves, hc]))
      exact ⟨hleft, Text.blank_space, Text.blank_space,
        hright.asOperand fun _ => henclosable fun c hc => h c (by simp [leaves, hc]),
        Layout.isLogic_asOperand _, hleft.precedes hclosed Text.blank_space (by simp) connective⟩

/-- Every comparison is read from its own text, wherever that lies. -/
def Stable (registry : Registry) (context : Context) (criterion : Criterion) : Prop :=
  ∀ comparison ∈ criterion.leaves, ∀ position,
    Comparison.parse comparison.text position registry context = .ok comparison

section

variable {registry : Registry} {context : Context} {left right criterion : Criterion}
  {connective : Connective}

theorem Stable.logic_iff :
    (logic left connective right).Stable registry context ↔
      left.Stable registry context ∧ right.Stable registry context := by
  unfold Stable
  exact List.forall_mem_append

theorem build_asOperand {layout : Layout}
    (h : ∀ position, (layout.clause position).build registry context = .ok criterion)
    (position : Nat) :
    (layout.asOperand.clause position).build registry context = .ok criterion := by
  unfold Layout.asOperand
  split
  · exact Clause.build_group_eq_ok_iff.mpr ⟨criterion, h _, rfl⟩
  · exact h position

theorem Stable.build_layout (h : criterion.Stable registry context) (position : Nat) :
    (criterion.layout.clause position).build registry context = .ok criterion := by
  induction criterion generalizing position with
  | comparison c =>
      exact Clause.build_comparison_eq_ok_iff.mpr ⟨c, h c (by simp [leaves]) position, rfl⟩
  | logic left connective right ihl ihr =>
      obtain ⟨hleft, hright⟩ := Stable.logic_iff.mp h
      exact Clause.build_logic_eq_ok_iff.mpr
        ⟨left, right, ihl hleft position, build_asOperand (ihr hright) _, rfl⟩

theorem build_of_asOperand {layout : Layout} {position : Nat}
    (h : (layout.asOperand.clause position).build registry context = .ok criterion) :
    ∃ other, (layout.clause other).build registry context = .ok criterion := by
  unfold Layout.asOperand at h
  split at h
  · obtain ⟨core, hcore, rfl⟩ := Clause.build_group_eq_ok_iff.mp h
    exact ⟨_, hcore⟩
  · exact ⟨position, h⟩

/-- What is read from its own canonical text has stable comparisons. -/
theorem Stable.of_build_layout {position : Nat}
    (h : (criterion.layout.clause position).build registry context = .ok criterion) :
    criterion.Stable registry context := by
  induction criterion generalizing position with
  | comparison c =>
      obtain ⟨leaf, hleaf, hsame⟩ := Clause.build_comparison_eq_ok_iff.mp h
      cases hsame
      intro other hother place
      obtain rfl := List.mem_singleton.mp hother
      exact Comparison.parse_position place hleaf
  | logic left connective right ihl ihr =>
      obtain ⟨first, second, hfirst, hsecond, hsame⟩ := Clause.build_logic_eq_ok_iff.mp h
      cases hsame
      obtain ⟨other, hright⟩ := build_of_asOperand hsecond
      exact Stable.logic_iff.mpr ⟨ihl hfirst, ihr hright⟩

end

end Criterion

/-- The canonical text of a legible criterion is read as the criterion exactly when its
comparisons are stable. -/
theorem Script.accepts_text_iff {registry : Registry} {given : Option Context}
    {criterion : Criterion} (hlegible : criterion.layout.Legible) :
    Accepts registry given criterion.text criterion ↔
      criterion.Stable registry (given.getD .default) := by
  have hclause := Clause.parse_of_legible hlegible Text.blank_nil Text.blank_nil
  rw [List.nil_append, List.append_nil, Criterion.text_layout] at hclause
  constructor
  · intro h
    obtain ⟨-, clause, built, hclause', hbuild, hsame⟩ := parse_eq_ok_iff.mp h
    obtain rfl := Except.ok.inj (hclause.symm.trans hclause')
    cases hsame
    exact Criterion.Stable.of_build_layout hbuild
  · intro hstable
    refine accepts_iff.mpr ⟨[], criterion.layout, [], Text.blank_nil, Text.blank_nil, hlegible, ?_,
      hstable.build_layout⟩
    rw [List.nil_append, List.append_nil, Criterion.text_layout]

end Criteria
