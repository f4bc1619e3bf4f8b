import Criteria.Comparison

/-!
Criteria: comparisons joined by connectives. A criterion has no negation; the
negation of a group is carried to its comparisons, where it inverts the operation.
-/

namespace Criteria

inductive Criterion where
  | comparison (comparison : Comparison)
  | logic (left : Criterion) (connective : Connective) (right : Criterion)

namespace Criterion

/-- The negated criterion. -/
def invert : Criterion → Criterion
  | comparison c => comparison c.invert
  | logic left connective right => logic left.invert connective.invert right.invert

/-- Whether a criterion holds. The right part is not asked when the left one
settles the answer. -/
def isMatch (criterion : Criterion) (context : Context) : Except Error Bool :=
  match criterion with
  | comparison c => c.isMatch context
  | logic left connective right => do
      let holds ← left.isMatch context
      if holds = connective.settledBy then return holds else right.isMatch context

def leaves : Criterion → List Comparison
  | comparison c => [c]
  | logic left _ right => left.leaves ++ right.leaves

def leafCount : Criterion → Nat
  | comparison _ => 1
  | logic left _ right => left.leafCount + right.leafCount

theorem length_leaves (criterion : Criterion) :
    criterion.leaves.length = criterion.leafCount := by
  induction criterion with
  | comparison c => rfl
  | logic left connective right ihl ihr => simp [leaves, leafCount, ihl, ihr]

/-- The canonical text. A logic criterion on the right stands in parentheses, so
that the text is read as the same criterion. -/
def text : Criterion → Text
  | comparison c => c.text
  | logic left connective (comparison c) =>
      left.text ++ ' ' :: connective.token ++ ' ' :: c.text
  | logic left connective right =>
      left.text ++ ' ' :: connective.token ++ ' ' :: '(' :: right.text ++ [')']

end Criterion

end Criteria
