import Criteria.Operand.Parser
import Criteria.Symbol.Reader

/-!
Symbols as operands. What a comparator means to a symbol follows from the value
that it has while the script is parsed.
-/

namespace Criteria.OperandParser

/-- The meaning of a comparator to a value. Without a value it may stay open. -/
def inferFrom (value : Option Scalar) (token : Text) : Option Operation :=
  match value with
  | some (.text _) | some (.list _) => Operation.ofContainmentToken? token
  | some _ => Operation.ofOrderingToken? token
  | none => Operation.ofUnambiguousToken? token

def infer (symbol : Symbol) (token : Text) (context : Context) : Except Error Operation :=
  (symbol.lookup context).map fun value => (inferFrom value token).getD .undecided

/-- Reads a symbol. When the operation is already known the value is not asked
for. -/
def readSymbol (text token : Text) (inferred : Operation) (context : Context) :
    Except Error (Option Reading) := do
  match ← Symbol.ofText? text with
  | none => return none
  | some symbol =>
      let operation ← if inferred = .undecided then infer symbol token context else pure inferred
      return some { operand := .symbol symbol, operation }

def symbol : OperandParser where
  name := "symbol"
  readLeft text token context := readSymbol text token .undecided context
  readRight := readSymbol

end Criteria.OperandParser
