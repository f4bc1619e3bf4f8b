import Criteria.Proofs.Comparison.Reading
import Criteria.Script

/-!
Matching a parsed script gives what its clauses say. A criterion has no negation:
that of a group was carried to the comparisons inside it. So the value of a script
is compared here with an evaluation of its clauses in which a negated group is
evaluated first and its answer negated then.
-/

namespace Criteria

/-- The value of a clause when `ask` answers its comparisons. The right side of a
connective is asked only when the left one leaves the answer open. -/
def Clause.evaluate (ask : (text : Text) → (position : Nat) → Except Error Bool) :
    Clause → Except Error Bool
  | comparison text position => ask text position
  | group negated inner => do
      let holds ← inner.evaluate ask
      return if negated then !holds else holds
  | logic left connective right => do
      match connective, ← left.evaluate ask with
      | .or, true => return true
      | .and, false => return false
      | _, _ => right.evaluate ask

namespace Operation

theorem invert_ne_undecided {op : Operation} (h : op ≠ .undecided) :
    op.invert ≠ .undecided := by
  cases op <;> simp_all [invert]

end Operation

/-- Every decided operation and its inverse answer differently, also for values
which have no order. -/
theorem Scalar.satisfies_invert (collation : Collation) {op : Operation}
    (h : op ≠ .undecided) (left right : Scalar) :
    satisfies collation op.invert left right = !satisfies collation op left right := by
  cases op <;> simp_all [Operation.invert, satisfies]

theorem Comparison.isMatch_invert {comparison : Comparison}
    (h : comparison.operation ≠ .undecided) (context : Context) :
    comparison.invert.isMatch context = (comparison.isMatch context).map not := by
  unfold isMatch invert
  cases comparison.left.resolve context with
  | error error => rfl
  | ok left =>
      cases comparison.right.resolve context with
      | error error => rfl
      | ok right => simp [Scalar.satisfies_invert _ h]

namespace Criterion

/-- Every comparison has an operation. -/
def Decided (criterion : Criterion) : Prop :=
  ∀ comparison ∈ criterion.leaves, comparison.operation ≠ .undecided

theorem leaves_invert (criterion : Criterion) :
    criterion.invert.leaves = criterion.leaves.map Comparison.invert := by
  induction criterion with
  | comparison c => rfl
  | logic left connective right ihl ihr => simp [invert, leaves, ihl, ihr]

theorem forall_leaves_invert {P : Comparison → Prop}
    (hinvert : ∀ comparison : Comparison, P comparison → P comparison.invert)
    {criterion : Criterion} (h : ∀ comparison ∈ criterion.leaves, P comparison) :
    ∀ comparison ∈ criterion.invert.leaves, P comparison := by
  rw [leaves_invert]
  exact List.forall_mem_map.mpr fun comparison hleaf => hinvert comparison (h comparison hleaf)

theorem Decided.invert {criterion : Criterion} (h : criterion.Decided) :
    criterion.invert.Decided :=
  forall_leaves_invert (fun _ => Operation.invert_ne_undecided) h

theorem Decided.logic_iff {left right : Criterion} {connective : Connective} :
    (logic left connective right).Decided ↔ left.Decided ∧ right.Decided := by
  unfold Decided
  exact List.forall_mem_append

theorem settledBy_invert (connective : Connective) :
    connective.invert.settledBy = !connective.settledBy := by
  cases connective <;> rfl

/-- The inverse of a criterion gives the other answer in every context, and fails
where the criterion fails. It stops at the same comparison: the negated left part
settles the inverse when the left part settles the criterion. -/
theorem isMatch_invert {criterion : Criterion} (h : criterion.Decided) (context : Context) :
    criterion.invert.isMatch context = (criterion.isMatch context).map not := by
  induction criterion with
  | comparison c => exact Comparison.isMatch_invert (h c (by simp [leaves])) context
  | logic left connective right ihl ihr =>
      obtain ⟨hleft, hright⟩ := Decided.logic_iff.mp h
      simp only [invert, isMatch, ihl hleft, ihr hright, settledBy_invert]
      cases left.isMatch context with
      | error error => rfl
      | ok holds =>
          simp only [Except.ok_map, Except.ok_bind]
          by_cases hsettled : holds = connective.settledBy
          · simp [hsettled]
          · simp [hsettled]

end Criterion

namespace Clause

variable {registry : Registry} {context : Context}

/-- A clause of each shape is built when its parts are. -/
theorem build_comparison_eq_ok_iff {text : Text} {position : Nat} {criterion : Criterion} :
    (comparison text position).build registry context = .ok criterion ↔
      ∃ leaf, Comparison.parse text position registry context = .ok leaf ∧
        .comparison leaf = criterion := by
  simp only [build, Except.bind_eq_ok_iff, Except.pure_eq_ok, Except.ok.injEq]

theorem build_group_eq_ok_iff {negated : Bool} {inner : Clause} {criterion : Criterion} :
    (group negated inner).build registry context = .ok criterion ↔
      ∃ core, inner.build registry context = .ok core ∧
        (if negated then core.invert else core) = criterion := by
  simp only [build, Except.bind_eq_ok_iff, Except.pure_eq_ok, Except.ok.injEq]

theorem build_logic_eq_ok_iff {left right : Clause} {connective : Connective}
    {criterion : Criterion} :
    (logic left connective right).build registry context = .ok criterion ↔
      ∃ first second, left.build registry context = .ok first ∧
        right.build registry context = .ok second ∧
        .logic first connective second = criterion := by
  simp only [build, Except.bind_eq_ok_iff, Except.pure_eq_ok, Except.ok.injEq]
  constructor
  · rintro ⟨first, hfirst, second, hsecond, rfl⟩
    exact ⟨first, second, hfirst, hsecond, rfl⟩
  · rintro ⟨first, second, hfirst, hsecond, rfl⟩
    exact ⟨first, hfirst, second, hsecond, rfl⟩

/-- What holds of every comparison that is read, and of the inverse where it holds, holds
of every comparison in what is built from a clause. -/
theorem forall_leaves_of_build {P : Comparison → Prop}
    (hparse : ∀ text position comparison,
      Comparison.parse text position registry context = .ok comparison → P comparison)
    (hinvert : ∀ comparison : Comparison, P comparison → P comparison.invert) {clause : Clause}
    {criterion : Criterion} (h : clause.build registry context = .ok criterion) :
    ∀ comparison ∈ criterion.leaves, P comparison := by
  induction clause generalizing criterion with
  | comparison text position =>
      obtain ⟨leaf, hleaf, rfl⟩ := build_comparison_eq_ok_iff.mp h
      intro comparison hmem
      obtain rfl := List.mem_singleton.mp hmem
      exact hparse _ _ _ hleaf
  | group negated inner ih =>
      obtain ⟨core, hcore, rfl⟩ := build_group_eq_ok_iff.mp h
      cases negated with
      | false => exact ih hcore
      | true => exact Criterion.forall_leaves_invert hinvert (ih hcore)
  | logic left connective right ihl ihr =>
      obtain ⟨first, second, hfirst, hsecond, rfl⟩ := build_logic_eq_ok_iff.mp h
      exact List.forall_mem_append.mpr ⟨ihl hfirst, ihr hsecond⟩

theorem decided_of_build {clause : Clause} {criterion : Criterion}
    (h : clause.build registry context = .ok criterion) : criterion.Decided :=
  forall_leaves_of_build (fun _ _ _ => Comparison.operation_of_parse)
    (fun _ => Operation.invert_ne_undecided) h

/-- What a comparison of the text answers in the context `evaluation`, when it is
read in the context `context`. -/
def askIn (registry : Registry) (context evaluation : Context) (text : Text) (position : Nat) :
    Except Error Bool := do
  (← Comparison.parse text position registry context).isMatch evaluation

/-- The criterion built from a clause has the value of the clause in every context. -/
theorem isMatch_of_build {clause : Clause} {criterion : Criterion}
    (h : clause.build registry context = .ok criterion) (evaluation : Context) :
    criterion.isMatch evaluation = clause.evaluate (askIn registry context evaluation) := by
  induction clause generalizing criterion with
  | comparison text position =>
      obtain ⟨leaf, hleaf, rfl⟩ := build_comparison_eq_ok_iff.mp h
      simp only [Criterion.isMatch, evaluate, askIn, hleaf, Except.ok_bind]
  | group negated inner ih =>
      obtain ⟨core, hcore, rfl⟩ := build_group_eq_ok_iff.mp h
      rw [evaluate, ← ih hcore]
      cases negated with
      | false =>
          rw [if_neg Bool.false_ne_true]
          cases core.isMatch evaluation <;> rfl
      | true =>
          rw [if_pos rfl, Criterion.isMatch_invert (decided_of_build hcore)]
          cases core.isMatch evaluation <;> rfl
  | logic left connective right ihl ihr =>
      obtain ⟨first, second, hfirst, hsecond, rfl⟩ := build_logic_eq_ok_iff.mp h
      rw [evaluate, Criterion.isMatch, ihl hfirst, ihr hsecond]
      cases left.evaluate (askIn registry context evaluation) with
      | error error => rfl
      | ok holds => cases connective <;> cases holds <;> rfl

end Clause

namespace Script

/-- A script that is not blank has its clauses read, and then a criterion built from
them. -/
theorem parse_eq (registry : Registry) (text : Text) (given : Option Context) :
    parse registry text given =
      if Text.trim text = [] then .error (.script .emptyScript)
      else Clause.parse text >>= fun clause =>
        (clause.build registry (given.getD .default)).map fun criterion =>
          { text, criterion, bound := given } := by
  unfold parse
  by_cases hblank : Text.trim text = []
  · simp [hblank]
  · simp only [List.isEmpty_iff, hblank, if_false]
    rfl

theorem parse_eq_ok_iff {registry : Registry} {text : Text} {given : Option Context}
    {script : Script} :
    parse registry text given = .ok script ↔
      Text.trim text ≠ [] ∧ ∃ clause criterion, Clause.parse text = .ok clause ∧
        clause.build registry (given.getD .default) = .ok criterion ∧
        script = { text, criterion, bound := given } := by
  unfold parse
  by_cases hblank : Text.trim text = []
  · simp [hblank]
  · simp only [List.isEmpty_iff, hblank, if_false, Except.pure_eq_ok,
      Except.bind_eq_ok_iff, Except.ok.injEq]
    constructor
    · rintro ⟨clause, hclause, criterion, hbuild, rfl⟩
      exact ⟨hblank, clause, criterion, hclause, hbuild, rfl⟩
    · rintro ⟨-, clause, criterion, hclause, hbuild, rfl⟩
      exact ⟨clause, hclause, criterion, hbuild, rfl⟩

/-- A parsed script has the value of its clauses in every context: the same answer,
or the same error. -/
theorem isMatchWith_eq_evaluate {registry : Registry} {text : Text} {given : Option Context}
    {script : Script} (hparse : parse registry text given = .ok script)
    (evaluation : Context) :
    ∃ clause, Clause.parse text = .ok clause ∧
      script.isMatchWith evaluation =
        clause.evaluate (Clause.askIn registry (given.getD .default) evaluation) := by
  obtain ⟨-, clause, criterion, hclause, hbuild, rfl⟩ := parse_eq_ok_iff.mp hparse
  exact ⟨clause, hclause, Clause.isMatch_of_build hbuild evaluation⟩

/-- Two nested negations, matched where `c` has no value: `b` settles the answer, so
that `c` is never asked. -/
theorem isMatchWith_eq_evaluate_nested :
    let text := "!(a == 1 && !(b >= \"x\" && c < 2))".toList
    let given : Context := { values := [(['a'], .number .zero), (['b'], .text ['x']),
      (['c'], .number .zero)] }
    let evaluation : Context := { values := [(['a'], .number (.ofNat 1)), (['b'], .text ['y'])] }
    ∃ script clause, parse .builtin text (some given) = .ok script ∧
      Clause.parse text = .ok clause ∧
      script.isMatchWith evaluation =
        clause.evaluate (Clause.askIn .builtin given evaluation) ∧
      script.isMatchWith evaluation = .ok false := by
  intro text given evaluation
  have hvalue : (do (← parse .builtin text (some given)).isMatchWith evaluation) = .ok false := by
    decide +kernel
  obtain ⟨script, hparse, hmatch⟩ := Except.bind_eq_ok_iff.mp hvalue
  obtain ⟨clause, hclause, hsame⟩ := isMatchWith_eq_evaluate hparse evaluation
  exact ⟨script, clause, hparse, hclause, hsame, hmatch⟩

end Script

end Criteria
