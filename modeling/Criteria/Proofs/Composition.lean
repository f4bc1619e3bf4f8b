import Criteria.Proofs.Comparison.Spelling
import Criteria.Proofs.Layout.Canonical

/-!
Accepted scripts are parts of other scripts. With the parsers which every script may
use no comparison has a parenthesis, a connective or an open quote that can be seen, so
the text of a script can be put into a group or before a connective.
-/

namespace Criteria

variable {registry : Registry} {context : Context} {given : Option Context} {criterion : Criterion}

namespace Layout

/-- Sealed comparisons can stand in a group. -/
theorem enclosable_of_build (hregistry : registry.Settled Text.Sealed) {layout : Layout}
    {position : Nat} (h : (layout.clause position).build registry context = .ok criterion) :
    layout.Enclosable := by
  induction layout generalizing position criterion with
  | comparison text =>
      obtain ⟨leaf, hleaf, -⟩ := Clause.build_comparison_eq_ok_iff.mp h
      intro fragment hmem
      obtain rfl := List.mem_singleton.mp hmem
      exact (Comparison.hides_joints_of_parse hregistry hleaf).balanced
  | group negation lead inner trail ih =>
      obtain ⟨core, hcore, -⟩ := Clause.build_group_eq_ok_iff.mp h
      exact ih hcore
  | logic left before connective after right ihl ihr =>
      obtain ⟨first, second, hfirst, hsecond, -⟩ := Clause.build_logic_eq_ok_iff.mp h
      exact Enclosable.logic_iff.mpr ⟨ihl hfirst, ihr hsecond⟩

end Layout

namespace Script

/-- A group around an accepted text is accepted. -/
theorem Accepts.group {text : Text} (hregistry : registry.Settled Text.Sealed)
    (h : Accepts registry given text criterion) (negation : Option Text)
    (hnegation : ∀ gap, negation = some gap → gap.Blank) :
    Accepts registry given (Layout.opening negation ++ (text ++ [')']))
      (if negation.isSome then criterion.invert else criterion) := by
  obtain ⟨lead, layout, trail, hlead, htrail, hlegible, rfl, hbuild⟩ := accepts_iff.mp h
  have henclosable := Layout.enclosable_of_build hregistry (hbuild 0)
  refine accepts_iff.mpr ⟨[], .group negation lead layout trail, [], Text.blank_nil, Text.blank_nil,
    ⟨hnegation, hlead, htrail, hlegible, henclosable⟩, ?_, fun position => ?_⟩
  · simp [Layout.text]
  · exact Clause.build_group_eq_ok_iff.mpr ⟨criterion, hbuild _, rfl⟩

/-- A connective after an accepted text joins what can stand on its right. -/
theorem Accepts.join {text after trail : Text} {right : Layout} {second : Criterion}
    (hregistry : registry.Settled Text.Sealed) (h : Accepts registry given text criterion)
    (connective : Connective) (hafter : after.Blank) (htrail : trail.Blank)
    (hright : right.Legible) (hlogic : right.isLogic = false) (hbuild : ∀ position,
      (right.clause position).build registry (given.getD .default) = .ok second) :
    Accepts registry given (text ++ ' ' :: (connective.token ++ (after ++ (right.text ++ trail))))
      (.logic criterion connective second) := by
  obtain ⟨lead, left, before, hlead, hbefore, hleft, rfl, hfirst⟩ := accepts_iff.mp h
  have hclosed : Quoting.outside.run left.text = .outside :=
    hleft.run_of_enclosable (Layout.enclosable_of_build hregistry (hfirst 0))
  have hblank : Text.Blank (before ++ [' ']) :=
    Text.blank_append_iff.mpr ⟨hbefore, Text.blank_space⟩
  refine accepts_iff.mpr ⟨lead, .logic left (before ++ [' ']) connective after right, trail, hlead,
    htrail, ⟨hleft, hblank, hafter, hright, hlogic, ?_⟩, ?_, fun position => ?_⟩
  · exact hleft.precedes hclosed hblank (by simp) connective
  · simp [Layout.text]
  · exact Clause.build_logic_eq_ok_iff.mpr ⟨criterion, second, hfirst _, hbuild _, rfl⟩

/-- Concrete syntax composes: a group around an accepted text is accepted, and so are a
group and, unless it is a chain itself, a bare text behind a connective. -/
theorem accepts_composed {t u : Text} {first second : Criterion}
    (ht : Accepts .builtin given t first) (hu : Accepts .builtin given u second) :
    Accepts .builtin given ('(' :: (t ++ [')'])) first ∧
      Accepts .builtin given ('!' :: '(' :: (t ++ [')'])) first.invert ∧
      ∀ connective : Connective,
        Accepts .builtin given (t ++ ' ' :: (connective.token ++ ' ' :: '(' :: (u ++ [')'])))
          (.logic first connective second) ∧
        ∀ clause, Clause.parse u = .ok clause → clause.isLogic = false →
          Accepts .builtin given (t ++ ' ' :: (connective.token ++ ' ' :: u))
            (.logic first connective second) := by
  have hregistry := Registry.builtin_settled
  obtain ⟨lead, layout, trail, hlead, htrail, hlegible, rfl, hbuild⟩ := accepts_iff.mp hu
  have henclosable := Layout.enclosable_of_build hregistry (hbuild 0)
  refine ⟨ht.group hregistry none (by simp), ?_, fun connective =>
    ⟨?_, fun clause hclause hlogic => ?_⟩⟩
  · apply ht.group hregistry (some [])
    rintro _ ⟨⟩
    exact Text.blank_nil
  · have hgroup : (Layout.group none lead layout trail).Legible :=
      ⟨by simp, hlead, htrail, hlegible, henclosable⟩
    have hjoined := ht.join hregistry connective Text.blank_space Text.blank_nil hgroup rfl
      fun position => Clause.build_group_eq_ok_iff.mpr ⟨second, hbuild _, rfl⟩
    simpa [Layout.text, Layout.opening] using hjoined
  · have hsame := Clause.parse_of_legible hlegible hlead htrail
    obtain rfl := Except.ok.inj (hclause.symm.trans hsame)
    rw [Layout.isLogic_clause] at hlogic
    have hafter := Text.blank_append_iff.mpr ⟨Text.blank_space, hlead⟩
    have hjoined := ht.join hregistry connective hafter htrail hlegible hlogic hbuild
    simpa using hjoined

/-- Parentheses stand in a text, a list and a key of a symbol. -/
theorem accepts_composed_quoted :
    let t := " x !> \"a)b\" || [1, \"(\"] == y ".toList
    let u := " !( n[ \"k)\" ] < 3 ) ".toList
    ∃ first second, Accepts .builtin none t first ∧ Accepts .builtin none u second ∧
      Accepts .builtin none ('!' :: '(' :: (t ++ [')'])) first.invert ∧
      Accepts .builtin none (t ++ ' ' :: (Connective.or.token ++ ' ' :: '(' :: (u ++ [')'])))
        (.logic first .or second) ∧
      Accepts .builtin none (t ++ ' ' :: (Connective.and.token ++ ' ' :: u))
        (.logic first .and second) := by
  intro t u
  have hfirst : (parse .builtin t none).map (fun script => script.criterion.leafCount) =
      .ok 2 := by decide +kernel
  have hsecond : (parse .builtin u none).map (fun script => script.criterion.leafCount) =
      .ok 1 := by decide +kernel
  have hclauses : (Clause.parse u).map Clause.isLogic = .ok false := by decide +kernel
  obtain ⟨first, ht, -⟩ := Except.map_eq_ok_iff.mp hfirst
  obtain ⟨second, hu, -⟩ := Except.map_eq_ok_iff.mp hsecond
  obtain ⟨clause, hclause, hlogic⟩ := Except.map_eq_ok_iff.mp hclauses
  obtain ⟨-, hnegated, hjoined⟩ := accepts_composed (.of_parse ht) (.of_parse hu)
  exact ⟨first.criterion, second.criterion, .of_parse ht, .of_parse hu, hnegated, (hjoined .or).1,
    (hjoined .and).2 clause hclause hlogic⟩

end Script

end Criteria
