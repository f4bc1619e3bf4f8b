import Criteria.Symbol

/-!
Operands of comparisons: values written in the script, and symbols, whose values
come from a context each time they are asked for. An operand parser from outside
the library may give operands of its own kind.
-/

namespace Criteria

/-- An operand from outside the library, by what it answers. -/
structure ForeignOperand where
  source : Text
  resolve : Context → Except Error Scalar
  allows : Operation → Context → Except Error Bool

inductive Operand where
  | literal (source : Text) (value : Scalar)
  | symbol (symbol : Symbol)
  | foreign (operand : ForeignOperand)

namespace Operand

/-- The text that writes the operand. -/
def source : Operand → Text
  | literal source _ => source
  | symbol s => s.source
  | foreign operand => operand.source

/-- The value of the operand. A symbol without a value is null. -/
def resolve (operand : Operand) (context : Context) : Except Error Scalar :=
  match operand with
  | literal _ value => .ok value
  | symbol s => (s.lookup context).map fun value => value.getD .null
  | foreign operand => operand.resolve context

/-- Whether the operand can stand on the left of an operation. A symbol without a
value is not ruled out. -/
def allows (operand : Operand) (op : Operation) (context : Context) : Except Error Bool :=
  match operand with
  | literal _ value => .ok (value.supports op)
  | symbol s =>
      (s.lookup context).map fun
        | some value => value.supports op
        | none => op != .undecided
  | foreign operand => operand.allows op context

end Operand

end Criteria
