import Criteria.Text

/-!
Comparison operations, the comparator tokens which write them, and the two
connectives. A token may stand for an ordering or for a containment; which of
the two it is depends on the operands, so there is one reading for each.
-/

namespace Criteria

/-- What a comparison asks. `undecided` stands for a token whose meaning is not
known yet. -/
inductive Operation where
  | undecided
  | equal
  | notEqual
  | lessThan
  | lessOrEqual
  | greaterThan
  | greaterOrEqual
  | contains
  | containsOrEqual
  | notContains
  | contained
  | notContained
  | containedOrEqual
deriving DecidableEq, Repr

namespace Operation

def all : List Operation :=
  [undecided, equal, notEqual, lessThan, lessOrEqual, greaterThan, greaterOrEqual,
    contains, containsOrEqual, notContains, contained, notContained, containedOrEqual]

theorem mem_all (op : Operation) : op ∈ all := by
  cases op <;> decide

/-- The name which messages use. -/
def name : Operation → String
  | undecided => "None"
  | equal => "Equal"
  | notEqual => "NotEqual"
  | lessThan => "LessThan"
  | lessOrEqual => "LessThanOrEquals"
  | greaterThan => "GreaterThan"
  | greaterOrEqual => "GreaterThanOrEquals"
  | contains => "Contains"
  | containsOrEqual => "ContainsOrEqual"
  | notContains => "NotContains"
  | contained => "Contained"
  | notContained => "NotContained"
  | containedOrEqual => "ContainedOrEqual"

/-- The comparator tokens in the order in which they are tried. A token stands
before every token it begins with. -/
def comparators : List Text :=
  [['=', '='], ['!', '='], ['<', '='], ['>', '='], ['!', '<'], ['!', '>'], ['<'], ['>']]

/-- The token which writes an operation. -/
def token : Operation → Text
  | undecided => []
  | equal => ['=', '=']
  | notEqual => ['!', '=']
  | lessThan | contained => ['<']
  | lessOrEqual | containedOrEqual => ['<', '=']
  | greaterThan | contains => ['>']
  | greaterOrEqual | containsOrEqual => ['>', '=']
  | notContains => ['!', '>']
  | notContained => ['!', '<']

/-- The meaning of a token between values with an order. The tokens `!<` and `!>`
mean containment here too. -/
def ofOrderingToken? (token : Text) : Option Operation :=
  match token with
  | ['=', '='] => some equal
  | ['!', '='] => some notEqual
  | ['<'] => some lessThan
  | ['<', '='] => some lessOrEqual
  | ['>'] => some greaterThan
  | ['>', '='] => some greaterOrEqual
  | ['!', '>'] => some notContains
  | ['!', '<'] => some notContained
  | _ => none

/-- The meaning of a token between values which contain others. -/
def ofContainmentToken? (token : Text) : Option Operation :=
  match token with
  | ['=', '='] => some equal
  | ['!', '='] => some notEqual
  | ['<'] => some contained
  | ['<', '='] => some containedOrEqual
  | ['>'] => some contains
  | ['>', '='] => some containsOrEqual
  | ['!', '>'] => some notContains
  | ['!', '<'] => some notContained
  | _ => none

/-- The meaning of a token which has the same one between all values. -/
def ofUnambiguousToken? (token : Text) : Option Operation :=
  match token with
  | ['=', '='] => some equal
  | ['!', '='] => some notEqual
  | ['!', '>'] => some notContains
  | ['!', '<'] => some notContained
  | _ => none

/-- The operation that holds exactly when this one does not. Every value contains
itself, so `containsOrEqual` asks the same as `contains`. -/
def invert : Operation → Operation
  | undecided => undecided
  | equal => notEqual
  | notEqual => equal
  | lessThan => greaterOrEqual
  | greaterOrEqual => lessThan
  | lessOrEqual => greaterThan
  | greaterThan => lessOrEqual
  | contains | containsOrEqual => notContains
  | notContains => contains
  | contained | containedOrEqual => notContained
  | notContained => contained

/-- The same relation seen from the right operand: `a < b` is `b > a`. -/
def mirror : Operation → Operation
  | undecided => undecided
  | equal => equal
  | notEqual => notEqual
  | lessThan => greaterThan
  | greaterThan => lessThan
  | lessOrEqual => greaterOrEqual
  | greaterOrEqual => lessOrEqual
  | contains => contained
  | contained => contains
  | containsOrEqual => containedOrEqual
  | containedOrEqual => containsOrEqual
  | notContains => notContained
  | notContained => notContains

def isOrdering : Operation → Bool
  | lessThan | lessOrEqual | greaterThan | greaterOrEqual => true
  | _ => false

def isContainment : Operation → Bool
  | contains | containsOrEqual | notContains | contained | notContained
  | containedOrEqual => true
  | _ => false

end Operation

/-- How two criteria are joined. -/
inductive Connective where
  | and
  | or
deriving DecidableEq, Repr

namespace Connective

def token : Connective → Text
  | and => ['&', '&']
  | or => ['|', '|']

def ofToken? (token : Text) : Option Connective :=
  match token with
  | ['&', '&'] => some and
  | ['|', '|'] => some or
  | _ => none

def tokens : List Text :=
  [and.token, or.token]

/-- The connective between the negated parts of a negated criterion. -/
def invert : Connective → Connective
  | and => or
  | or => and

/-- The value which settles the answer when the left part has it. -/
def settledBy : Connective → Bool
  | and => false
  | or => true

end Connective

end Criteria
