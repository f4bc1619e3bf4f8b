import Criteria.Proofs.Comparison.Inversion
import Criteria.Proofs.Layout.Canonical

/-!
The canonical text of an inverted script. Its layout is legible, and all its
comparisons are read again except those whose comparator needs a value where neither
operand has one. Inversion makes such comparisons of `!<` and `!>`, whose meaning needs
no value: `a < b` is not read where `a !< b` is.
-/

namespace Criteria

variable {context : Context} {given : Option Context} {criterion : Criterion}

namespace Criterion

/-- Every comparison was read in the context or is the inverse of one that was. -/
def Sound (context : Context) (criterion : Criterion) : Prop :=
  ∀ comparison ∈ criterion.leaves, ∃ token value, comparison.Sound context token value

theorem Sound.invert (h : criterion.Sound context) : criterion.invert.Sound context := by
  intro comparison hleaf
  rw [leaves_invert] at hleaf
  obtain ⟨original, horiginal, rfl⟩ := List.mem_map.mp hleaf
  obtain ⟨token, value, hsound⟩ := h original horiginal
  exact ⟨_, value, hsound.invert⟩

theorem Sound.legible (h : criterion.Sound context) : criterion.layout.Legible := by
  apply legible_layout
  intro comparison hleaf
  obtain ⟨token, value, hsound⟩ := h comparison hleaf
  exact ⟨hsound.fragment, hsound.hides.balanced⟩

/-- The comparisons of a sound criterion are stable unless one of them needs a value and
has none. -/
theorem Sound.stable_iff (h : criterion.Sound context) :
    criterion.Stable .builtin context ↔
      ∀ comparison ∈ criterion.leaves,
        ¬(comparison.operation.needsValue = true ∧ comparison.Valueless context) := by
  constructor
  · intro hstable comparison hleaf
    obtain ⟨token, value, hsound⟩ := h comparison hleaf
    exact hsound.parse_eq_ok_iff.mp (hstable comparison hleaf 0)
  · intro hneeds comparison hleaf position
    obtain ⟨token, value, hsound⟩ := h comparison hleaf
    exact hsound.parse_eq_ok_iff.mpr (hneeds comparison hleaf)

end Criterion

theorem Layout.sound_of_build {layout : Layout} (h : layout.Legible) {position : Nat}
    (hbuild : (layout.clause position).build .builtin context = .ok criterion) :
    criterion.Sound context := by
  induction layout generalizing position criterion with
  | comparison text =>
      obtain ⟨leaf, hleaf, rfl⟩ := Clause.build_comparison_eq_ok_iff.mp hbuild
      intro comparison hmem
      obtain rfl := List.mem_singleton.mp hmem
      exact Comparison.sound_of_parse h hleaf
  | group negation lead inner trail ih =>
      obtain ⟨core, hcore, rfl⟩ := Clause.build_group_eq_ok_iff.mp hbuild
      have hsound := ih h.2.2.2.1 hcore
      split
      · exact hsound.invert
      · exact hsound
  | logic left before connective after right ihl ihr =>
      obtain ⟨first, second, hfirst, hsecond, rfl⟩ := Clause.build_logic_eq_ok_iff.mp hbuild
      intro comparison hmem
      rcases List.mem_append.mp hmem with hmem | hmem
      · exact ihl h.1 hfirst comparison hmem
      · exact ihr h.2.2.2.1 hsecond comparison hmem

namespace Script

theorem Accepts.sound {text : Text} (h : Accepts .builtin given text criterion) :
    criterion.Sound (given.getD .default) := by
  obtain ⟨lead, layout, trail, -, -, hlegible, -, hbuild⟩ := accepts_iff.mp h
  exact Layout.sound_of_build hlegible (hbuild 0)

/-- The canonical text of the inverse of an accepted script is accepted as this inverse
exactly when the inverse has no comparison which needs a value and has none. The same
holds of the canonical text of the script itself, which has inverted comparisons where
a group was negated. -/
theorem accepts_invert_iff {text : Text} (h : Accepts .builtin given text criterion) :
    (Accepts .builtin given criterion.invert.text criterion.invert ↔
      ∀ comparison ∈ criterion.leaves, ¬(comparison.operation.invert.needsValue = true ∧
        comparison.Valueless (given.getD .default))) ∧
    (Accepts .builtin given criterion.text criterion ↔
      ∀ comparison ∈ criterion.leaves, ¬(comparison.operation.needsValue = true ∧
        comparison.Valueless (given.getD .default))) := by
  have hsound := h.sound
  constructor
  · rw [accepts_text_iff hsound.invert.legible, hsound.invert.stable_iff, Criterion.leaves_invert]
    exact List.forall_mem_map
  · rw [accepts_text_iff hsound.legible, hsound.stable_iff]

/-- The inverses of `==` and of a containment in a text need no value. -/
theorem accepts_invert_equal :
    let text := "a == 1 || b < \"x\"".toList
    ∃ criterion, Accepts .builtin none text criterion ∧
      criterion.invert.text = "a != 1 && b !< \"x\"".toList ∧
      Accepts .builtin none criterion.invert.text criterion.invert := by
  intro text
  have hvalues : (parse .builtin text none).map (fun script =>
      (script.criterion.invert.text,
        script.criterion.leaves.all fun comparison => !comparison.operation.invert.needsValue)) =
      .ok ("a != 1 && b !< \"x\"".toList, true) := by
    decide +kernel
  obtain ⟨script, hparse, hsame⟩ := Except.map_eq_ok_iff.mp hvalues
  obtain ⟨hinverse, hneeds⟩ := Prod.mk.inj hsame
  refine ⟨script.criterion, .of_parse hparse, hinverse, ?_⟩
  apply (accepts_invert_iff (.of_parse hparse)).1.mpr
  intro comparison hleaf hvalue
  have hnone := List.all_eq_true.mp hneeds comparison hleaf
  rw [hvalue.1] at hnone
  cases hnone

/-- Where `a` and `b` have no values `a !< b` is accepted but its inverse `a < b` is not,
and this is also the canonical text of the negated group. -/
theorem not_accepts_inverse_notContained :
    (∃ criterion, Accepts .builtin none "a !< b".toList criterion ∧
      ¬Accepts .builtin none criterion.invert.text criterion.invert) ∧
    ∃ criterion, Accepts .builtin none "!(a !< b)".toList criterion ∧
      ¬Accepts .builtin none criterion.text criterion := by
  have hrefused (criterion : Criterion) : ¬Accepts .builtin none "a < b".toList criterion := by
    have hfails : (parse .builtin "a < b".toList none).map Script.text =
        .error (.script (.unrecognizedComparison ['<'] ['a'] ['b'])) := by decide +kernel
    intro haccepts
    rw [Accepts, Except.map_eq_error_iff.mp hfails] at haccepts
    cases haccepts
  constructor
  · have hinverse : (parse .builtin "a !< b".toList none).map
        (fun script => script.criterion.invert.text) = .ok "a < b".toList := by decide +kernel
    obtain ⟨script, hparse, htext⟩ := Except.map_eq_ok_iff.mp hinverse
    exact ⟨script.criterion, .of_parse hparse, htext ▸ hrefused _⟩
  · have hcanonical : (parse .builtin "!(a !< b)".toList none).map
        (fun script => script.criterion.text) = .ok "a < b".toList := by decide +kernel
    obtain ⟨script, hparse, htext⟩ := Except.map_eq_ok_iff.mp hcanonical
    exact ⟨script.criterion, .of_parse hparse, htext ▸ hrefused _⟩

end Script

end Criteria
