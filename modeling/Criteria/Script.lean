import Criteria.Clause.Reader
import Criteria.Criterion
import Criteria.Operand.Builtin

/-!
Scripts. A script is parsed once, against the values its symbols have then, and
can be matched against any number of contexts.
-/

namespace Criteria

/-- The criterion of a clause. Groups leave no trace, except that a negated one
inverts what is inside it. -/
def Clause.build (registry : Registry) (context : Context) : Clause → Except Error Criterion
  | comparison text position => do
      return .comparison (← Comparison.parse text position registry context)
  | group negated inner => do
      let criterion ← inner.build registry context
      return if negated then criterion.invert else criterion
  | logic left connective right => do
      let left ← left.build registry context
      let right ← right.build registry context
      return .logic left connective right

/-- A parsed script and the context bound to it, if there is one. -/
structure Script where
  text : Text
  criterion : Criterion
  bound : Option Context

namespace Script

/-- Parses a script. Symbols are looked up in the context given, or in the default
one. -/
def parse (registry : Registry) (text : Text) (context : Option Context) :
    Except Error Script := do
  if (Text.trim text).isEmpty then throw (.script .emptyScript)
  let clause ← Clause.parse text
  let criterion ← clause.build registry (context.getD .default)
  return { text, criterion, bound := context }

/-- The bound context, or the default one. -/
def context (script : Script) : Context :=
  script.bound.getD .default

def bind (script : Script) (context : Context) : Script :=
  { script with bound := some context }

def unbind (script : Script) : Script :=
  { script with bound := none }

def isMatchWith (script : Script) (context : Context) : Except Error Bool :=
  script.criterion.isMatch context

def isMatch (script : Script) : Except Error Bool :=
  script.isMatchWith script.context

/-- The outcome as a JSON value. -/
def evaluate (script : Script) : Except Error Json :=
  script.isMatch.map .bool

/-- Parses and matches a script. -/
def run (registry : Registry) (text : Text) (context : Option Context) : Except Error Bool := do
  (← parse registry text context).isMatch

end Script

end Criteria
