import Criteria.Proofs.Evaluation
import Criteria.Proofs.Layout.Spans
import Mathlib.Algebra.Ring.Parity
import Mathlib.Data.List.Forall2
import Mathlib.Logic.Function.Iterate

/-!
The criterion of a text, as a walk from the outermost clause inwards gives it. The reader
builds the criterion of a group first and inverts all of it then, once for each negated
group around it. The walk counts those groups on its way in, and what a comparison or a
connective becomes depends on the count alone. Comparisons are read from left to right,
so the first one that cannot be read is the error of the text.
-/

namespace Criteria

/-- The comparison of a fragment that was read as `parsed`, after `depth` inversions. -/
structure Comparison.Inverted (depth : Nat) (fragment : Text) (parsed leaf : Comparison) :
    Prop where
  left : leaf.left = parsed.left
  right : leaf.right = parsed.right
  operation : leaf.operation = Operation.invert^[depth] parsed.operation
  text : leaf.text =
    if depth = 0 then fragment
    else leaf.left.source ++ ' ' :: leaf.operation.token ++ ' ' :: leaf.right.source

/-- What the span is read as when it stands for a comparison. -/
def Span.read (registry : Registry) (context : Context) (span : Span) : Except Error Comparison :=
  Comparison.parse span.text span.position registry context

namespace Clause

/-- The criterion is the clause without its groups, where `depth` negated groups are
around the clause. -/
inductive Erases (registry : Registry) (context : Context) :
    (depth : Nat) → Clause → Criterion → Prop
  | comparison {depth : Nat} {text : Text} {position : Nat} {parsed leaf : Comparison}
      (hparse : Comparison.parse text position registry context = .ok parsed)
      (hleaf : Comparison.Inverted depth text parsed leaf) :
      Erases registry context depth (.comparison text position) (.comparison leaf)
  | group {depth : Nat} {negated : Bool} {inner : Clause} {criterion : Criterion}
      (hinner : Erases registry context (if negated then depth + 1 else depth) inner criterion) :
      Erases registry context depth (.group negated inner) criterion
  | logic {depth : Nat} {left right : Clause} {connective : Connective} {first second : Criterion}
      (hleft : Erases registry context depth left first)
      (hright : Erases registry context depth right second) :
      Erases registry context depth (.logic left connective right)
        (.logic first (if Odd depth then connective.invert else connective) second)

end Clause

variable {registry : Registry} {context : Context} {depth : Nat}

namespace Comparison

variable {fragment : Text} {parsed leaf other : Comparison}

theorem Inverted.zero (htext : parsed.text = fragment) : Inverted 0 fragment parsed parsed :=
  ⟨rfl, rfl, rfl, htext⟩

theorem Inverted.succ (h : Inverted depth fragment parsed leaf) :
    Inverted (depth + 1) fragment parsed leaf.invert where
  left := h.left
  right := h.right
  operation := by
    rw [Function.iterate_succ_apply', ← h.operation]
    rfl
  text := rfl

theorem Inverted.unique (h : Inverted depth fragment parsed leaf)
    (hother : Inverted depth fragment parsed other) : leaf = other := by
  have hleft := h.left.trans hother.left.symm
  have hright := h.right.trans hother.right.symm
  have hop := h.operation.trans hother.operation.symm
  have htext : leaf.text = other.text := by rw [h.text, hother.text, hleft, hright, hop]
  cases leaf
  cases other
  simp_all

end Comparison

theorem Connective.invert_flipped (connective : Connective) (depth : Nat) :
    (if Odd depth then connective.invert else connective).invert =
      if Odd (depth + 1) then connective.invert else connective := by
  by_cases hodd : Odd depth
  · have hnext : ¬Odd (depth + 1) := fun h => Nat.odd_add_one.mp h hodd
    rw [if_pos hodd, if_neg hnext]
    cases connective <;> rfl
  · rw [if_neg hodd, if_pos (Nat.odd_add_one.mpr hodd)]

namespace Clause

variable {clause : Clause} {criterion other : Criterion} {error : Error}

/-! One more inversion is one more negated group -/

theorem Erases.invert (h : clause.Erases registry context depth criterion) :
    clause.Erases registry context (depth + 1) criterion.invert := by
  induction h with
  | comparison hparse hleaf => exact .comparison hparse hleaf.succ
  | @group depth negated inner criterion hinner ih =>
      apply Erases.group
      cases negated with
      | false => exact ih
      | true => exact ih
  | @logic depth left right connective first second hleft hright ihl ihr =>
      rw [Criterion.invert, Connective.invert_flipped]
      exact .logic ihl ihr

theorem erases_of_build (htrim : ∀ span ∈ clause.spans, Text.trim span.text = span.text)
    (h : clause.build registry context = .ok criterion) :
    clause.Erases registry context 0 criterion := by
  induction clause generalizing criterion with
  | comparison text position =>
      obtain ⟨leaf, hleaf, rfl⟩ := build_comparison_eq_ok_iff.mp h
      have htext : leaf.text = text :=
        (Comparison.text_of_parse hleaf).trans (htrim _ (List.mem_singleton_self _))
      exact .comparison hleaf (.zero htext)
  | group negated inner ih =>
      obtain ⟨core, hcore, rfl⟩ := build_group_eq_ok_iff.mp h
      apply Erases.group
      cases negated with
      | false => exact ih htrim hcore
      | true => exact (ih htrim hcore).invert
  | logic left connective right ihl ihr =>
      obtain ⟨first, second, hfirst, hsecond, rfl⟩ := build_logic_eq_ok_iff.mp h
      obtain ⟨htrimLeft, htrimRight⟩ := List.forall_mem_append.mp htrim
      exact .logic (ihl htrimLeft hfirst) (ihr htrimRight hsecond)

theorem Erases.unique (h : clause.Erases registry context depth criterion)
    (hother : clause.Erases registry context depth other) : criterion = other := by
  induction h generalizing other with
  | comparison hparse hleaf =>
      cases hother with
      | comparison hparse' hleaf' =>
          obtain rfl := Except.ok.inj (hparse.symm.trans hparse')
          rw [hleaf.unique hleaf']
  | group hinner ih =>
      cases hother with
      | group hinner' => exact ih hinner'
  | logic hleft hright ihl ihr =>
      cases hother with
      | logic hleft' hright' => rw [ihl hleft', ihr hright']

/-! Which comparison fails first -/

theorem exists_build_iff :
    (∃ criterion, clause.build registry context = .ok criterion) ↔
      ∀ span ∈ clause.spans, ∃ comparison, span.read registry context = .ok comparison := by
  induction clause with
  | comparison text position =>
      simp [build_comparison_eq_ok_iff, spans, Span.read]
  | group negated inner ih => simp [build_group_eq_ok_iff, spans, ih]
  | logic left connective right ihl ihr =>
      rw [spans, List.forall_mem_append, ← ihl, ← ihr]
      simp [build_logic_eq_ok_iff]

theorem build_eq_error_iff :
    clause.build registry context = .error error ↔
      Except.FirstError (Span.read registry context) clause.spans error := by
  induction clause with
  | comparison text position =>
      simp [build, spans, Span.read, Except.bind_eq_error_iff, Except.firstError_singleton_iff]
  | group negated inner ih => simp [build, spans, ih, Except.bind_eq_error_iff]
  | logic left connective right ihl ihr =>
      rw [spans, Except.firstError_append_iff, ← ihl, ← ihr, ← exists_build_iff, build]
      simp [Except.bind_eq_error_iff]

theorem Erases.exists_read (h : clause.Erases registry context depth criterion) :
    ∀ span ∈ clause.spans, ∃ comparison, span.read registry context = .ok comparison := by
  induction h with
  | comparison hparse _ =>
      intro span hspan
      obtain rfl := List.mem_singleton.mp hspan
      exact ⟨_, hparse⟩
  | group _ ih => exact ih
  | logic _ _ ihl ihr => exact List.forall_mem_append.mpr ⟨ihl, ihr⟩

theorem Erases.spans_forall₂ (h : clause.Erases registry context depth criterion) :
    List.Forall₂ (fun span leaf => ∃ parsed enclosing, span.read registry context = .ok parsed ∧
      Comparison.Inverted enclosing span.text parsed leaf) clause.spans criterion.leaves := by
  induction h with
  | comparison hparse hleaf => exact .cons ⟨_, _, hparse, hleaf⟩ .nil
  | group _ ih => exact ih
  | logic _ _ ihl ihr => exact List.rel_append ihl ihr

theorem trim_of_mem_spans {text : Text} (h : parse text = .ok clause) :
    ∀ span ∈ clause.spans, Text.trim span.text = span.text := by
  obtain ⟨lead, layout, trail, -, -, hlegible, -, rfl⟩ := parse_eq_ok_iff.mp h
  intro span hspan
  have hfragment := hlegible.fragment_of_mem_spans hspan
  exact Text.trim_of_full hfragment.startsFull hfragment.endsFull

end Clause

namespace Script

/-- A text whose clauses can be read is accepted exactly when all its comparisons can be
read, and otherwise the first of them that cannot be read is its error. The criterion is
the tree of the clauses without the groups, and its comparisons are those of the text in
order: one inside `k` negated groups is inverted `k` times, and a connective there is the
other one exactly when `k` is odd. -/
theorem parse_traverses {text : Text} {clause : Clause} (hclause : Clause.parse text = .ok clause)
    (registry : Registry) (given : Option Context) :
    let context := given.getD .default
    ((∃ script, parse registry text given = .ok script) ↔
      ∀ span ∈ clause.spans, ∃ comparison, span.read registry context = .ok comparison) ∧
    (∀ error, parse registry text given = .error error ↔
      Except.FirstError (Span.read registry context) clause.spans error) ∧
    (∀ script, parse registry text given = .ok script ↔
      script.text = text ∧ script.bound = given ∧
        clause.Erases registry context 0 script.criterion) ∧
    ∀ script, parse registry text given = .ok script →
      List.Forall₂ (fun span leaf => ∃ parsed depth, span.read registry context = .ok parsed ∧
        Comparison.Inverted depth span.text parsed leaf) clause.spans script.criterion.leaves := by
  intro context
  have hparse : parse registry text given =
      (clause.build registry context).map fun criterion => { text, criterion, bound := given } := by
    rw [parse_eq, if_neg (Clause.trim_ne_nil_of_parse hclause), hclause, Except.ok_bind]
  have herases : ∀ script, parse registry text given = .ok script ↔
      script.text = text ∧ script.bound = given ∧
        clause.Erases registry context 0 script.criterion := by
    intro script
    rw [hparse, Except.map_eq_ok_iff]
    constructor
    · rintro ⟨criterion, hbuild, rfl⟩
      exact ⟨rfl, rfl, Clause.erases_of_build (Clause.trim_of_mem_spans hclause) hbuild⟩
    · rintro ⟨rfl, rfl, herases⟩
      obtain ⟨criterion, hbuild⟩ := Clause.exists_build_iff.mpr herases.exists_read
      have hsame := Clause.erases_of_build (Clause.trim_of_mem_spans hclause) hbuild
      exact ⟨criterion, hbuild, by rw [hsame.unique herases]⟩
  refine ⟨?_, fun error => ?_, herases, fun script hscript => ?_⟩
  · rw [← Clause.exists_build_iff, hparse]
    simp [Except.map_eq_ok_iff]
  · rw [hparse, Except.map_eq_error_iff, Clause.build_eq_error_iff]
  · obtain ⟨-, -, hcriterion⟩ := (herases script).mp hscript
    exact hcriterion.spans_forall₂

/-- A containment inside two negated groups is written with another comparator than before,
and one outside of them keeps its blanks. A comparison that cannot be read is an error also
behind one that holds. -/
theorem parse_traverses_nested :
    let text := "!(a == 1 && !(b >= \"x\")) || c  !=2".toList
    let broken := "1 == 1 || !(a ~ 1 && b)".toList
    let given : Context := { values := [(['a'], .number .zero), (['b'], .text ['x', 'y']),
      (['c'], .number .zero)] }
    ∃ clause script other, Clause.parse text = .ok clause ∧
      parse .builtin text (some given) = .ok script ∧
      clause.Erases .builtin given 0 script.criterion ∧
      script.criterion.text = "a != 1 || b > \"x\" || c  !=2".toList ∧
      Clause.parse broken = .ok other ∧
      Except.FirstError (Span.read .builtin given) other.spans
        (.script (.missingComparator "a ~ 1".toList 12)) := by
  intro text broken given
  have htext : (do
      let clause ← Clause.parse text
      let script ← parse .builtin text (some given)
      let _ ← Clause.parse broken
      return script.criterion.text) = .ok "a != 1 || b > \"x\" || c  !=2".toList := by
    decide +kernel
  have hfault : (parse .builtin broken (some given)).map (fun script => script.text) =
      .error (.script (.missingComparator "a ~ 1".toList 12)) := by
    decide +kernel
  obtain ⟨clause, hclause, hrest⟩ := Except.bind_eq_ok_iff.mp htext
  obtain ⟨script, hscript, hrest⟩ := Except.bind_eq_ok_iff.mp hrest
  obtain ⟨other, hother, hcriterion⟩ := Except.bind_eq_ok_iff.mp hrest
  obtain ⟨-, -, herases, -⟩ := parse_traverses hclause .builtin (some given)
  obtain ⟨-, herror, -⟩ := parse_traverses hother .builtin (some given)
  exact ⟨clause, script, other, hclause, hscript, ((herases script).mp hscript).2.2,
    Except.ok.inj hcriterion, hother, (herror _).mp (Except.map_eq_error_iff.mp hfault)⟩

end Script

end Criteria
