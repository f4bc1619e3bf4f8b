import Criteria.Proofs.Comparison.Spelling
import Criteria.Proofs.Layout.Accepting

/-!
Comparators written between two operands. Which operands the texts are does not depend on
the comparator, so a pair of texts settles for all comparators at once what becomes of
them: what a comparator means to the values of the pair, and whether this fits them. A
script which is nothing but a comparator between two operands is read as the comparison.
-/

namespace Criteria

namespace Comparison

/-- Two operands, each with the place of the parser that recognizes it and with the value
it has in a context. -/
structure Pair where
  leftIndex : Nat
  left : Operand
  leftValue : Option Scalar
  rightIndex : Nat
  right : Operand
  rightValue : Option Scalar

namespace Pair

/-- The value that gives comparators between the operands their meaning. -/
def preferred (pair : Pair) : Option Scalar :=
  Comparison.preferred pair.leftIndex pair.rightIndex pair.leftValue pair.rightValue

/-- What a comparator means between the operands. -/
def meaning (pair : Pair) (token : Text) : Operation :=
  Operation.meaning pair.preferred token

/-- The operation fits the values of the operands. -/
def Fits (pair : Pair) (collation : Collation) (op : Operation) : Prop :=
  op.Fits collation pair.leftValue pair.rightValue

instance (pair : Pair) (collation : Collation) (op : Operation) :
    Decidable (pair.Fits collation op) :=
  inferInstanceAs (Decidable (op.Fits collation pair.leftValue pair.rightValue))

/-- The comparison of the operands by the operation. -/
def comparison (pair : Pair) (text : Text) (op : Operation) : Comparison where
  text := text
  operation := op
  left := pair.left
  right := pair.right

/-- The texts are recognized as these operands, which have these values in the context. -/
structure Selected (pair : Pair) (registry : Registry) (context : Context)
    (left right : Text) : Prop where
  left : Registry.Selects left registry pair.leftIndex pair.left
  leftValue : pair.left.value? context = .ok pair.leftValue
  right : Registry.Selects right registry pair.rightIndex pair.right
  rightValue : pair.right.value? context = .ok pair.rightValue

variable {pair other : Pair} {registry : Registry} {context : Context} {left token right : Text}
  {shape : Text → Prop} {op : Operation}

theorem meaning_of_preferred {value : Scalar} (h : pair.preferred = some value) (token : Text) :
    pair.meaning token = Operation.familyMeaning value.isContainer token := by
  rw [meaning, h, Operation.meaning_some]

theorem Selected.unique (h : pair.Selected registry context left right)
    (hother : other.Selected registry context left right) : pair = other := by
  obtain ⟨i, a, first, j, b, second⟩ := pair
  obtain ⟨i', a', first', j', b', second'⟩ := other
  obtain ⟨rfl, rfl⟩ := h.left.unique hother.left
  obtain ⟨rfl, rfl⟩ := h.right.unique hother.right
  obtain rfl := Except.ok.inj (h.leftValue.symm.trans hother.leftValue)
  obtain rfl := Except.ok.inj (h.rightValue.symm.trans hother.rightValue)
  rfl

theorem Selected.resolve_eq (h : pair.Selected registry context left right)
    (htoken : token ∈ Operation.comparators) :
    resolve left token right registry context =
      if pair.meaning token = .undecided then
        .error (.script (.unrecognizedComparison token left right))
      else
        .ok { left := pair.left, right := pair.right, operation := pair.meaning token } := by
  have hrun : Search.run left token right context registry {} =
      .ok { left := some pair.left, right := some pair.right, operation := pair.meaning token } :=
    Search.run_of_selected htoken h.left h.right h.leftValue h.rightValue
  simp only [resolve, hrun, Except.ok_bind, Except.throw_eq_error, Except.pure_eq_ok]

/-- A comparator between two recognized operands is rejected when it has no meaning or its
meaning does not fit the values, and otherwise the comparison has this meaning. -/
theorem Selected.parse_written (h : pair.Selected registry context left right)
    (hregistry : registry.Settled shape) (hjoinable : Joinable left right)
    (htoken : token ∈ Operation.comparators) (position : Nat) :
    parse (written left token right) position registry context =
      let op := pair.meaning token
      let text := Text.trim (written left token right)
      if op = .undecided then .error (.script (.unrecognizedComparison token left right))
      else if pair.Fits context.collation op then .ok (pair.comparison text op)
      else .error (.script (.invalidOperation op text)) := by
  simp only [parse, hjoinable.split?_written htoken, h.resolve_eq htoken]
  by_cases hdecided : pair.meaning token = .undecided
  · rw [if_pos hdecided, if_pos hdecided]
    rfl
  · let resolved : Resolved :=
      { left := pair.left, right := pair.right, operation := pair.meaning token }
    have hvalid : resolved.isValid context =
        .ok (decide (pair.Fits context.collation (pair.meaning token))) :=
      Resolved.isValid_eq (h.left.writtenAs hregistry).1.own (h.right.writtenAs hregistry).1.own
        h.leftValue h.rightValue
    rw [if_neg hdecided, if_neg hdecided, Except.ok_bind, hvalid, Except.ok_bind]
    by_cases hfits : pair.Fits context.collation (pair.meaning token)
    · rw [if_pos hfits, if_pos (decide_eq_true hfits)]
      rfl
    · rw [if_neg hfits, if_neg (by rwa [decide_eq_true_iff])]
      rfl

/-- An accepted comparator between two texts makes them a pair, and compares this pair by
an operation which it means and which fits the values. -/
theorem exists_selected_of_parse {comparison : Comparison} {position : Nat}
    (hregistry : registry.Settled shape) (hjoinable : Joinable left right)
    (htoken : token ∈ Operation.comparators)
    (h : parse (written left token right) position registry context = .ok comparison) :
    ∃ pair : Pair, pair.Selected registry context left right ∧
      comparison = pair.comparison (Text.trim (written left token right)) (pair.meaning token) ∧
      pair.meaning token ≠ .undecided ∧ pair.Fits context.collation (pair.meaning token) := by
  obtain ⟨token', i, j, first, second, hsplit, hreads, hop⟩ := reads_of_parse hregistry h
  obtain ⟨rfl, rfl, rfl⟩ : left = comparison.left.source ∧ token = token' ∧
      right = comparison.right.source := by
    simpa using (hjoinable.split?_written htoken).symm.trans hsplit
  let pair : Pair := ⟨i, comparison.left, first, j, comparison.right, second⟩
  have hmeaning : comparison.operation = pair.meaning token := hop
  have hwhole : comparison = pair.comparison comparison.text comparison.operation := rfl
  rw [text_of_parse h, hmeaning] at hwhole
  refine ⟨pair, ⟨hreads.left, hreads.leftValue, hreads.right, hreads.rightValue⟩, hwhole, ?_, ?_⟩
  · rw [← hmeaning]
    exact hreads.decided
  · rw [← hmeaning]
    exact hreads.fits

theorem Selected.resolve_left (h : pair.Selected registry context left right)
    (hregistry : registry.Settled shape) :
    pair.left.resolve context = .ok (pair.leftValue.getD .null) := by
  rw [Operand.resolve_eq (h.left.writtenAs hregistry).1.own, h.leftValue, Except.ok_map]

theorem Selected.resolve_right (h : pair.Selected registry context left right)
    (hregistry : registry.Settled shape) :
    pair.right.resolve context = .ok (pair.rightValue.getD .null) := by
  rw [Operand.resolve_eq (h.right.writtenAs hregistry).1.own, h.rightValue, Except.ok_map]

/-- The values of a pair answer its comparisons. -/
theorem Selected.isMatch_comparison (h : pair.Selected registry context left right)
    (hregistry : registry.Settled shape) (text : Text) (op : Operation) :
    (pair.comparison text op).isMatch context =
      .ok (Scalar.satisfies context.collation op (pair.leftValue.getD .null)
        (pair.rightValue.getD .null)) := by
  simp only [isMatch, comparison, h.resolve_left hregistry, h.resolve_right hregistry,
    Except.ok_bind, Except.pure_eq_ok]

end Pair

end Comparison

/-- A script of two operands and a comparator between them is matched as the comparison. -/
theorem Script.run_written {left token right : Text} (hleft : left.Solid) (hright : right.Solid)
    (htoken : token ∈ Operation.comparators) (given : Option Context) :
    let text := Comparison.written left token right
    run .builtin text given =
      Clause.askIn .builtin (given.getD .default) (given.getD .default) text 0 := by
  intro text
  have hfragment := Comparison.fragment_written hleft hright htoken
  have hclause : Clause.parse text = .ok (.comparison text 0) := by
    have hlegible : (Layout.comparison text).Legible := hfragment
    have hread := Clause.parse_of_legible hlegible Text.blank_nil Text.blank_nil
    simpa [Layout.text, Layout.clause] using hread
  have hnonempty := Clause.trim_ne_nil_of_parse hclause
  simp only [run, parse_eq, if_neg hnonempty, hclause, Except.ok_bind, Clause.build, Clause.askIn]
  cases Comparison.parse text 0 .builtin (given.getD .default) <;> rfl

/-- A script that is read as a comparison of a pair has the answer of the values. -/
theorem Comparison.Pair.Selected.run_of_parse {pair : Pair} {given : Option Context}
    {left right text : Text} {op : Operation}
    (h : pair.Selected .builtin (given.getD .default) left right) (hleft : left.Solid)
    (hright : right.Solid) (htoken : op.token ∈ Operation.comparators)
    (hparse : parse (written left op.token right) 0 .builtin (given.getD .default) =
      .ok (pair.comparison text op)) :
    Script.run .builtin (written left op.token right) given =
      .ok (Scalar.satisfies (given.getD .default).collation op (pair.leftValue.getD .null)
        (pair.rightValue.getD .null)) := by
  rw [Script.run_written hleft hright htoken, Clause.askIn, hparse, Except.ok_bind,
    h.isMatch_comparison Registry.builtin_settled]

end Criteria
