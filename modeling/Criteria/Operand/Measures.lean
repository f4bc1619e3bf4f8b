import Criteria.Operand.Literals

/-!
Two kinds of operands which no script has by itself, but which a registry may add:
percentages and lengths of texts.
-/

namespace Criteria.OperandParser

def badPercentage (text : Text) : Text :=
  ("bad percentage " ++ text.ticked).toList

def readPercent (text token : Text) (_ : Context) : Except Error (Option Reading) :=
  if text.getLast? = some '%' then
    match Number.read? (Text.trim text.dropLast) with
    | some value =>
        .ok (some (orderedLiteral text (.number (value.div (.ofNat 100))) token))
    | none =>
        .error (.script (.other .unrecognizedRight (badPercentage text)))
  else .ok none

/-- A number before a percent sign. -/
def percent : OperandParser :=
  symmetric "percent" readPercent

def readLength (text token : Text) (_ : Context) : Except Error (Option Reading) :=
  match text with
  | '#' :: measured =>
      .ok (some (orderedLiteral text (.number (.ofNat measured.length)) token))
  | _ => .ok none

/-- A number sign and a text, which denote the number of its characters. -/
def length : OperandParser :=
  symmetric "length" readLength

end Criteria.OperandParser
