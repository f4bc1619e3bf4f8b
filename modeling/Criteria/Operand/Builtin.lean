import Criteria.Operand.Literals
import Criteria.Operand.Symbols

/-!
The registry of the operands that every script may use.
-/

namespace Criteria.Registry

/-- Texts, numbers, keywords, lists and symbols, in this order. -/
def builtin : Registry :=
  [.string, .number, .keyword, .list, .symbol]

end Criteria.Registry
