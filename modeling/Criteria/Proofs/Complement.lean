import Criteria.Proofs.Evaluation

/-!
Inversion is an exact complement on every criterion that can be made. Criteria come
from parsed scripts, by inverting and by joining. All their comparisons have an
operation, so the inverse gives the other answer in every context. An operation that
was inverted twice may be written differently, as `>=` between containers becomes `>`,
but a third inversion gives what the first one gave.
-/

namespace Criteria

theorem Operation.invert_invert_invert (op : Operation) : op.invert.invert.invert = op.invert := by
  cases op <;> rfl

namespace Comparison

/-- The operands from left to right. -/
def operands (comparison : Comparison) : Operand × Operand :=
  (comparison.left, comparison.right)

theorem operands_invert (comparison : Comparison) :
    comparison.invert.operands = comparison.operands := rfl

/-- The text of an inverse depends on its operation and operands alone. -/
theorem invert_invert_invert (comparison : Comparison) :
    comparison.invert.invert.invert = comparison.invert := by
  simp only [invert, Operation.invert_invert_invert]

end Comparison

namespace Criterion

theorem Decided.join {left right : Criterion} (hleft : left.Decided) (hright : right.Decided)
    (connective : Connective) : (logic left connective right).Decided :=
  Decided.logic_iff.mpr ⟨hleft, hright⟩

theorem invert_invert_invert (criterion : Criterion) :
    criterion.invert.invert.invert = criterion.invert := by
  induction criterion with
  | comparison c => exact congrArg comparison c.invert_invert_invert
  | logic left connective right ihl ihr =>
      have hconnective : connective.invert.invert = connective := by cases connective <;> rfl
      simp only [invert, ihl, ihr, hconnective]

theorem leafCount_invert (criterion : Criterion) :
    criterion.invert.leafCount = criterion.leafCount := by
  rw [← length_leaves, leaves_invert, List.length_map, length_leaves]

theorem map_operands_invert (criterion : Criterion) :
    criterion.invert.leaves.map Comparison.operands =
      criterion.leaves.map Comparison.operands := by
  rw [leaves_invert, List.map_map]
  exact List.map_congr_left fun comparison _ => comparison.operands_invert

/-- The criteria which can be made: those of parsed scripts, with any parsers and in any
contexts, and what inverting, joining and expanding make of such criteria. Expanding
joins one more criterion to the end of a chain. -/
inductive Reachable : Criterion → Prop
  | parsed {registry : Registry} {text : Text} {given : Option Context} {script : Script}
      (h : Script.parse registry text given = .ok script) : Reachable script.criterion
  | invert {criterion : Criterion} (h : Reachable criterion) : Reachable criterion.invert
  | join {left right : Criterion} (hleft : Reachable left) (connective : Connective)
      (hright : Reachable right) : Reachable (logic left connective right)
  | expand {left middle right : Criterion} {connective : Connective}
      (hchain : Reachable (logic left connective middle)) (next : Connective)
      (hright : Reachable right) : Reachable (logic (logic left connective middle) next right)

theorem Reachable.decided {criterion : Criterion} (h : Reachable criterion) :
    criterion.Decided := by
  induction h with
  | parsed h =>
      obtain ⟨-, _, _, -, hbuild, rfl⟩ := Script.parse_eq_ok_iff.mp h
      exact Clause.decided_of_build hbuild
  | invert _ ih => exact ih.invert
  | join _ connective _ ihl ihr => exact ihl.join ihr connective
  | expand _ next _ ihchain ihr => exact ihchain.join ihr next

/-- The inverse of a reachable criterion gives the other answer in every context, also in
those with missing values or values without an order, and fails with the same error.
Two inversions change no answer, three are one, and every inversion keeps the leaves
with their operands in order. -/
theorem invert_complement {criterion : Criterion} (h : Reachable criterion) :
    (∀ context, criterion.invert.isMatch context = (criterion.isMatch context).map not ∧
      criterion.invert.invert.isMatch context = criterion.isMatch context) ∧
    criterion.invert.invert.invert = criterion.invert ∧
    criterion.invert.leafCount = criterion.leafCount ∧
    criterion.invert.leaves.map Comparison.operands =
      criterion.leaves.map Comparison.operands := by
  have hcomplement (context : Context) := isMatch_invert h.decided context
  refine ⟨fun context => ⟨hcomplement context, ?_⟩, criterion.invert_invert_invert,
    criterion.leafCount_invert, criterion.map_operands_invert⟩
  rw [isMatch_invert h.decided.invert, hcomplement]
  cases criterion.isMatch context with
  | error error => rfl
  | ok holds => rw [Except.ok_map, Except.ok_map, Bool.not_not]

/-- A containment joined to an inverted ordering. Inverted twice it is written with
another comparator. The ordering is asked of a number that is none, of a text and of no
value, and in a context without the symbols both criteria fail. -/
theorem invert_complement_joined :
    let first := "tags >= \"a\"".toList
    let second := "level >= 5".toList
    let level (value : Scalar) : Context :=
      { values := [("level".toList, value), ("tags".toList, .list [.text ['a']])] }
    ∃ left right, Script.parse .builtin first none = .ok left ∧
      Script.parse .builtin second none = .ok right ∧
      let criterion := logic left.criterion .and right.criterion.invert
      criterion.text = "tags >= \"a\" && level < 5".toList ∧
      criterion.invert.invert.text = "tags > \"a\" && level < 5".toList ∧
      criterion.invert.invert.invert = criterion.invert ∧
      (∀ value ∈ [Scalar.number .nan, .text ['x'], .null],
        criterion.invert.isMatch (level value) = .ok true ∧
        criterion.invert.invert.isMatch (level value) = .ok false) ∧
      criterion.invert.isMatch .empty =
        .error (.script (.unresolvedSymbol "tags".toList)) := by
  intro first second level
  have hjoined : (do
      let left ← Script.parse .builtin first none
      let right ← Script.parse .builtin second none
      let criterion := logic left.criterion .and right.criterion.invert
      return (criterion.text, criterion.invert.invert.text, criterion.isMatch .empty,
        [Scalar.number .nan, .text ['x'], .null].map fun value =>
          criterion.isMatch (level value))) =
      .ok ("tags >= \"a\" && level < 5".toList, "tags > \"a\" && level < 5".toList,
        .error (.script (.unresolvedSymbol "tags".toList)), [.ok false, .ok false, .ok false]) := by
    decide +kernel
  obtain ⟨left, hleft, hrest⟩ := Except.bind_eq_ok_iff.mp hjoined
  obtain ⟨right, hright, hvalues⟩ := Except.bind_eq_ok_iff.mp hrest
  simp only [Except.pure_eq_ok, Except.ok.injEq, Prod.mk.injEq, List.map_cons, List.map_nil,
    List.cons.injEq, and_true] at hvalues
  obtain ⟨htext, hinverse, hempty, hnan, hword, hnull⟩ := hvalues
  obtain ⟨hmatch, hthird, -⟩ :=
    invert_complement ((Reachable.parsed hleft).join .and (Reachable.parsed hright).invert)
  refine ⟨left, right, hleft, hright, htext, hinverse, hthird, ?_, ?_⟩
  · intro value hvalue
    have hfalse : (logic left.criterion .and right.criterion.invert).isMatch (level value) =
        .ok false := by
      simp only [List.mem_cons, List.not_mem_nil, or_false] at hvalue
      rcases hvalue with rfl | rfl | rfl
      · exact hnan
      · exact hword
      · exact hnull
    rw [(hmatch _).1, (hmatch _).2, hfalse]
    exact ⟨rfl, rfl⟩
  · rw [(hmatch _).1, hempty]
    rfl

end Criterion

end Criteria
