import Criteria.Script

/-!
The outcome of a script given as a value of another type. An outcome is a boolean,
so only types which have booleans among their values can take it.
-/

namespace Criteria

/-- A type in which an outcome may be asked for. -/
inductive OutcomeType where
  | bool
  | optionalBool
  | json
  | string
  | integer
  | bools
deriving DecidableEq, Repr

namespace OutcomeType

/-- What a type expects where it does not take a boolean. -/
def refusal? : OutcomeType → Option String
  | bool | optionalBool | json => none
  | string => some "a string"
  | integer => some "i64"
  | bools => some "a sequence"

def convert (type : OutcomeType) (outcome : Bool) : Except Error Bool :=
  match type.refusal? with
  | none => .ok outcome
  | some expected => .error (.conversion (.mismatch outcome expected))

end OutcomeType

/-- Parses and matches a script and gives the outcome as a value of a type. -/
def Script.runAs (type : OutcomeType) (registry : Registry) (text : Text)
    (context : Option Context) : Except Error Bool := do
  type.convert (← Script.run registry text context)

end Criteria
