import Criteria.Operation

/-!
What can go wrong with a script. Structural faults carry the text and position
they were found at; every other fault of a script has a code, and the codes are
stable.
-/

namespace Criteria

inductive ErrorCode where
  | emptyScript
  | invalidOperation
  | unrecognizedComparison
  | unrecognizedLeft
  | unrecognizedRight
  | missingComparator
  | unresolvedSymbol
  | expectedIndexer
  | malformedLiteral
deriving DecidableEq, Repr

/-- Codes from 2000 on are given while a script is parsed. -/
def ErrorCode.number : ErrorCode → Nat
  | emptyScript => 1000
  | invalidOperation => 2001
  | unrecognizedComparison => 2002
  | unrecognizedLeft => 2003
  | unrecognizedRight => 2004
  | missingComparator => 2005
  | unresolvedSymbol => 2006
  | expectedIndexer => 2007
  | malformedLiteral => 2008

/-- A text between two backticks, as messages show it. -/
def Text.ticked (text : Text) : String :=
  "`" ++ String.ofList text ++ "`"

/-- Faults in the structure of a text. Contexts and operand parsers from outside the
library report theirs as `other`. -/
inductive FormatFault where
  | missingOperand (connective : Connective)
  | missingGroup
  | unbalanced
  | missingConnective
  | missingComparison
  | contextJson
  | contextNotObject
  | contextDocument
  | assignmentForm
  | other (message : Text)
deriving DecidableEq, Repr

def FormatFault.message : FormatFault → String
  | missingOperand connective => "expected an operand after " ++ connective.token.ticked
  | missingGroup => "expected `(` after `!`"
  | unbalanced => "unbalanced parentheses"
  | missingConnective => "expected `&&` or `||` after group"
  | missingComparison => "expected a comparison"
  | contextJson => "invalid context JSON"
  | contextNotObject => "context JSON must be an object"
  | contextDocument => "invalid context document"
  | assignmentForm => "expected KEY=VALUE"
  | other message => String.ofList message

/-- Faults with a code. Contexts and operand parsers from outside the library report
theirs as `other`. -/
inductive ScriptFault where
  | emptyScript
  | invalidOperation (op : Operation) (fragment : Text)
  | unrecognizedComparison (token left right : Text)
  | unrecognizedLeft (text : Text)
  | unrecognizedRight (text : Text)
  | missingComparator (fragment : Text) (position : Nat)
  | unresolvedSymbol (key : Text)
  | expectedIndexer (text : Text) (position : Nat)
  | unterminatedText (text : Text)
  | malformedList (text : Text)
  | other (code : ErrorCode) (message : Text)
deriving DecidableEq, Repr

namespace ScriptFault

def code : ScriptFault → ErrorCode
  | emptyScript => .emptyScript
  | invalidOperation _ _ => .invalidOperation
  | unrecognizedComparison _ _ _ => .unrecognizedComparison
  | unrecognizedLeft _ => .unrecognizedLeft
  | unrecognizedRight _ => .unrecognizedRight
  | missingComparator _ _ => .missingComparator
  | unresolvedSymbol _ => .unresolvedSymbol
  | expectedIndexer _ _ => .expectedIndexer
  | unterminatedText _ => .malformedLiteral
  | malformedList _ => .malformedLiteral
  | other code _ => code

def message : ScriptFault → String
  | emptyScript => "script is empty"
  | invalidOperation op fragment =>
      "operation " ++ op.name ++ " is not valid for the operands of " ++ fragment.ticked
  | unrecognizedComparison token left right =>
      "cannot tell what " ++ token.ticked ++ " means between " ++ left.ticked ++ " and " ++
        right.ticked
  | unrecognizedLeft text => "unrecognized left operand " ++ text.ticked
  | unrecognizedRight text => "unrecognized right operand " ++ text.ticked
  | missingComparator fragment position =>
      "expected a comparison operator in " ++ fragment.ticked ++ " at " ++ toString position
  | unresolvedSymbol key => "symbol " ++ key.ticked ++ " is not defined"
  | expectedIndexer text position =>
      "expected a quoted key or a non-negative index in " ++ text.ticked ++ " at " ++
        toString position
  | unterminatedText text => "unterminated string literal " ++ text.ticked
  | malformedList text => "malformed list literal " ++ text.ticked
  | other _ message => String.ofList message

end ScriptFault

/-- An outcome which cannot be given as a value of another kind. What else may fail
while a script runs, outside the library, is `other`. -/
inductive ConversionFault where
  | mismatch (value : Bool) (expected : String)
  | other (message : Text)
deriving DecidableEq, Repr

def ConversionFault.message : ConversionFault → String
  | mismatch outcome expected =>
      let value := "`" ++ toString outcome ++ "`"
      "cannot convert outcome " ++ value ++ " to the requested type: invalid type: boolean " ++
        value ++ ", expected " ++ expected
  | other message => String.ofList message

inductive Error where
  | format (fault : FormatFault) (fragment : Text) (position : Nat)
  | script (fault : ScriptFault)
  | conversion (fault : ConversionFault)
deriving DecidableEq, Repr

namespace Error

def code? : Error → Option ErrorCode
  | script fault => some fault.code
  | _ => none

def message : Error → String
  | format fault fragment position =>
      "format error at " ++ toString position ++ ": " ++ fault.message ++ " in " ++
        fragment.ticked
  | script fault => "script error " ++ toString fault.code.number ++ ": " ++ fault.message
  | conversion fault => "runtime error: " ++ fault.message

end Error

end Criteria
