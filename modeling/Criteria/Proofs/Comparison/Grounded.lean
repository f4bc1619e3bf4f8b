import Criteria.Proofs.Comparison.Inversion
import Criteria.Proofs.Operand.Measures

/-!
Comparisons whose operands are grounded in a context: the context gave them the values
they have, or none, and the values can take part in the operation. This is so when a
comparison is read, and inversion changes neither the operands nor what they can take
part in. So it is so for all comparisons of a script in the context it was parsed in.
-/

namespace Criteria

variable {registry : Registry} {context : Context} {shape : Text → Prop}

namespace Comparison

variable {comparison : Comparison} {first second : Option Scalar}

/-- The operands are of the library and have these values in the context, and both can
take part in the operation. -/
structure Grounded (context : Context) (comparison : Comparison)
    (first second : Option Scalar) : Prop where
  leftOwn : comparison.left.isForeign = false
  rightOwn : comparison.right.isForeign = false
  leftValue : comparison.left.value? context = .ok first
  rightValue : comparison.right.value? context = .ok second
  decided : comparison.operation ≠ .undecided
  fits : comparison.operation.Fits context.collation first second

theorem grounded_of_parse (hregistry : registry.Settled shape) {text : Text} {position : Nat}
    (h : parse text position registry context = .ok comparison) :
    ∃ first second, comparison.Grounded context first second := by
  obtain ⟨_, _, _, first, second, -, hreads, -⟩ := reads_of_parse hregistry h
  exact ⟨first, second, (hreads.left.writtenAs hregistry).1.own,
    (hreads.right.writtenAs hregistry).1.own, hreads.leftValue, hreads.rightValue,
    hreads.decided, hreads.fits⟩

theorem Grounded.invert (h : comparison.Grounded context first second) :
    comparison.invert.Grounded context first second :=
  ⟨h.leftOwn, h.rightOwn, h.leftValue, h.rightValue, Operation.invert_ne_undecided h.decided,
    h.fits.invert h.decided⟩

end Comparison

/-- All comparisons of the criterion are grounded in the context. -/
def Criterion.Grounded (context : Context) (criterion : Criterion) : Prop :=
  ∀ comparison ∈ criterion.leaves, ∃ first second, comparison.Grounded context first second

theorem Criterion.Grounded.decided {criterion : Criterion} (h : criterion.Grounded context) :
    criterion.Decided := by
  intro comparison hleaf
  obtain ⟨_, _, hgrounded⟩ := h comparison hleaf
  exact hgrounded.decided

theorem Clause.grounded_of_build (hregistry : registry.Settled shape) {clause : Clause}
    {criterion : Criterion} (h : clause.build registry context = .ok criterion) :
    criterion.Grounded context :=
  forall_leaves_of_build (fun _ _ _ => Comparison.grounded_of_parse hregistry)
    (fun _ ⟨first, second, h⟩ => ⟨first, second, h.invert⟩) h

end Criteria
