import Criteria.Operand

/-!
Operand parsers and the lists in which they are tried. A parser recognizes one
kind of operand; a text which is not of that kind is left to the others, and a
malformed one is an error.
-/

namespace Criteria

/-- A recognized operand, and what the comparator means to it. -/
structure Reading where
  operand : Operand
  operation : Operation

/-- A kind of operand. The right operand is read with the operation that is known
so far. -/
structure OperandParser where
  name : String
  readLeft : (text token : Text) → Context → Except Error (Option Reading)
  readRight : (text token : Text) → (inferred : Operation) → Context →
    Except Error (Option Reading)

/-- A kind of operand which is read in the same way on both sides. -/
def OperandParser.symmetric (name : String)
    (read : (text token : Text) → Context → Except Error (Option Reading)) : OperandParser where
  name
  readLeft := read
  readRight text token _ context := read text token context

/-- Parsers in the order in which they are tried. -/
abbrev Registry := List OperandParser

namespace Registry

/-- Adds a parser which is tried after all others. -/
def register (registry : Registry) (parser : OperandParser) : Registry :=
  registry ++ [parser]

/-- Adds a parser which is tried before all others. -/
def registerFront (registry : Registry) (parser : OperandParser) : Registry :=
  parser :: registry

def names (registry : Registry) : List String :=
  registry.map OperandParser.name

end Registry

end Criteria
