import Criteria.Cursor
import Criteria.Json.Reader
import Criteria.Operand.Parser

/-!
Operands whose value is written in the script: texts, numbers, keywords and lists.
-/

namespace Criteria.OperandParser

/-- A literal to which a comparator has an ordering meaning. -/
def orderedLiteral (source : Text) (value : Scalar) (token : Text) : Reading where
  operand := .literal source value
  operation := (Operation.ofOrderingToken? token).getD .undecided

/-- A literal to which a comparator has a containment meaning. -/
def containingLiteral (source : Text) (value : Scalar) (token : Text) : Reading where
  operand := .literal source value
  operation := (Operation.ofContainmentToken? token).getD .undecided

def readString (text token : Text) (_ : Context) : Except Error (Option Reading) :=
  if text.head? = some '"' then
    match Quoted.decode? text with
    | none => .error (.script (.unterminatedText text))
    | some (value, []) => .ok (some (containingLiteral text (.text value) token))
    | some _ => .ok none
  else .ok none

/-- A double-quoted text. -/
def string : OperandParser :=
  symmetric "string" readString

def readNumber (text token : Text) (_ : Context) : Except Error (Option Reading) :=
  match Lexeme.number? text with
  | some (value, []) => .ok (some (orderedLiteral text (.number value) token))
  | _ => .ok none

def number : OperandParser :=
  symmetric "number" readNumber

def keyword? (text : Text) : Option Scalar :=
  match text with
  | ['t', 'r', 'u', 'e'] => some (.bool true)
  | ['f', 'a', 'l', 's', 'e'] => some (.bool false)
  | ['n', 'u', 'l', 'l'] => some .null
  | _ => none

def readKeyword (text token : Text) (_ : Context) : Except Error (Option Reading) :=
  .ok ((keyword? text).map fun value => orderedLiteral text value token)

/-- The words `true`, `false` and `null`. -/
def keyword : OperandParser :=
  symmetric "keyword" readKeyword

def readList (text token : Text) (_ : Context) : Except Error (Option Reading) :=
  if text.head? = some '[' then
    match Json.read? text with
    | none => .error (.script (.malformedList text))
    | some (.list items) =>
        .ok (some (containingLiteral text (.list (Scalar.ofItems items)) token))
    | some _ => .ok none
  else .ok none

/-- A JSON list. -/
def list : OperandParser :=
  symmetric "list" readList

end Criteria.OperandParser
