import Criteria.Cursor
import Criteria.Operand.Parser

/-!
Comparisons: two operands and an operation between them. A comparison is accepted
only when both operands can take part in its operation.
-/

namespace Criteria

structure Comparison where
  text : Text
  operation : Operation
  left : Operand
  right : Operand

namespace Comparison

/-- The comparison that holds exactly when this one does not. -/
def invert (comparison : Comparison) : Comparison where
  text := comparison.left.source ++ ' ' :: comparison.operation.invert.token ++
    ' ' :: comparison.right.source
  operation := comparison.operation.invert
  left := comparison.left
  right := comparison.right

def isMatch (comparison : Comparison) (context : Context) : Except Error Bool := do
  let left ← comparison.left.resolve context
  let right ← comparison.right.resolve context
  return Scalar.satisfies context.collation comparison.operation left right

/-- What is known of a comparison while its operands are looked for. -/
structure Search where
  left : Option Operand := none
  right : Option Operand := none
  operation : Operation := .undecided

namespace Search

def isComplete (search : Search) : Bool :=
  search.left.isSome && search.right.isSome && search.operation != .undecided

/-- The first operation that is decided stays. -/
def settle (search : Search) (operation : Operation) : Operation :=
  if search.operation = .undecided then operation else search.operation

/-- Asks a parser for the left operand, unless it is known. -/
def tryLeft (search : Search) (parser : OperandParser) (text token : Text)
    (context : Context) : Except Error Search :=
  if search.left.isSome then .ok search
  else
    (parser.readLeft text token context).map fun
      | some reading =>
          { search with
            left := some reading.operand
            operation := search.settle reading.operation }
      | none => search

/-- Asks a parser for the right operand, unless it is known. -/
def tryRight (search : Search) (parser : OperandParser) (text token : Text)
    (context : Context) : Except Error Search :=
  if search.right.isSome then .ok search
  else
    (parser.readRight text token search.operation context).map fun
      | some reading =>
          { search with
            right := some reading.operand
            operation := search.settle reading.operation }
      | none => search

/-- Asks the parsers in turn until everything is known. -/
def run (left token right : Text) (context : Context) : Registry → Search → Except Error Search
  | [], search => .ok search
  | parser :: rest, search => do
      let search ← search.tryLeft parser left token context
      let search ← search.tryRight parser right token context
      if search.isComplete then return search else run left token right context rest search

end Search

/-- Two operands and the operation that a comparator means between them. -/
structure Resolved where
  left : Operand
  right : Operand
  operation : Operation

/-- Finds the operands of a comparison and its operation. -/
def resolve (left token right : Text) (registry : Registry) (context : Context) :
    Except Error Resolved := do
  let search ← Search.run left token right context registry {}
  match search.left, search.right with
  | none, _ => throw (.script (.unrecognizedLeft left))
  | some _, none => throw (.script (.unrecognizedRight right))
  | some leftOperand, some rightOperand =>
      if search.operation = .undecided then
        throw (.script (.unrecognizedComparison token left right))
      else
        return { left := leftOperand, right := rightOperand, operation := search.operation }

namespace Resolved

/-- Values between which an ordering is asked must have one. A missing value is
left to evaluation. -/
def isOrderable (resolved : Resolved) (context : Context) : Except Error Bool :=
  if resolved.operation.isOrdering then do
    let left ← resolved.left.resolve context
    let right ← resolved.right.resolve context
    return left.isNull || right.isNull || (left.compare context.collation right).isSome
  else .ok true

/-- Whether both operands can take part in the operation. The right one sees it
mirrored. -/
def isValid (resolved : Resolved) (context : Context) : Except Error Bool := do
  if ← resolved.left.allows resolved.operation context then
    if ← resolved.right.allows resolved.operation.mirror context then
      resolved.isOrderable context
    else return false
  else return false

end Resolved

/-- Splits a fragment at its comparator: the left operand, the comparator and the
right operand. -/
def split? (fragment : Text) : Option (Text × Text × Text) :=
  match Lexeme.splitAtToken Operation.comparators fragment with
  | (left, some token, right) => some (Text.trim left, token, Text.trim right)
  | (_, none, _) => none

/-- Reads a comparison which lies at `position` in the script. -/
def parse (fragment : Text) (position : Nat) (registry : Registry) (context : Context) :
    Except Error Comparison := do
  match split? fragment with
  | none => throw (.script (.missingComparator fragment position))
  | some (left, token, right) =>
      let resolved ← resolve left token right registry context
      if ← resolved.isValid context then
        return {
          text := Text.trim fragment
          operation := resolved.operation
          left := resolved.left
          right := resolved.right }
      else throw (.script (.invalidOperation resolved.operation (Text.trim fragment)))

end Comparison

end Criteria
