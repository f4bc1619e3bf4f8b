import Criteria.Collation
import Criteria.Json
import Criteria.Number.Numeral
import Criteria.Number.Shortest
import Criteria.Operation
import Criteria.Table

/-!
Values of scripts and contexts, how they are compared, and which operations they
can take part in. Two values have an order only when their kinds allow one;
equality and containment are defined for all pairs.
-/

namespace Criteria

/-- A value. The keys of a map ascend. -/
inductive Scalar where
  | null
  | bool (value : Bool)
  | number (value : Number)
  | text (value : Text)
  | list (items : List Scalar)
  | map (entries : List (Text × Scalar))
deriving Inhabited

namespace Scalar

def isNull : Scalar → Bool
  | null => true
  | _ => false

/-- The name of the kind of a value. -/
def kind : Scalar → String
  | null => "null"
  | bool _ => "bool"
  | number _ => "number"
  | text _ => "text"
  | list _ => "list"
  | map _ => "map"

/-- Whether a value of this kind can be the left operand of an operation. -/
def supports : Scalar → Operation → Bool
  | _, .undecided => false
  | _, .equal => true
  | _, .notEqual => true
  | number _, op => op.isOrdering
  | text _, _ => true
  | list _, op => op.isContainment
  | _, _ => false

/-- The number which a text denotes, blanks around it aside. -/
def numeric? (text : Text) : Option Number :=
  Number.read? text.trim

def compareBools (a b : Bool) : Ordering :=
  match a, b with
  | false, true => .lt
  | true, false => .gt
  | _, _ => .eq

/-- The order of two values, if they have one. A text is compared with a number
by the number it denotes. -/
def compare (collation : Collation) : Scalar → Scalar → Option Ordering
  | number a, number b => a.compare b
  | text a, text b => some (collation.compare a b)
  | bool a, bool b => some (compareBools a b)
  | number a, text b => (numeric? b).bind fun b => a.compare b
  | text a, number b => (numeric? a).bind fun a => a.compare b
  | _, _ => none

mutual

/-- Lists and maps are equal when they are equal part by part. -/
def equals (collation : Collation) : Scalar → Scalar → Bool
  | null, null => true
  | list a, list b => equalItems collation a b
  | map a, map b => equalEntries collation a b
  | a, b => a.compare collation b == some .eq

def equalItems (collation : Collation) : List Scalar → List Scalar → Bool
  | [], [] => true
  | a :: as, b :: bs => a.equals collation b && equalItems collation as bs
  | _, _ => false

def equalEntries (collation : Collation) :
    List (Text × Scalar) → List (Text × Scalar) → Bool
  | [], [] => true
  | (k, a) :: as, (l, b) :: bs => k == l && a.equals collation b && equalEntries collation as bs
  | _, _ => false

end

def lessThan (collation : Collation) (a b : Scalar) : Bool :=
  a.compare collation b == some .lt

def greaterThan (collation : Collation) (a b : Scalar) : Bool :=
  a.compare collation b == some .gt

mutual

/-- The text of a value inside another text. -/
def display : Scalar → Text
  | null => ['n', 'u', 'l', 'l']
  | bool true => ['t', 'r', 'u', 'e']
  | bool false => ['f', 'a', 'l', 's', 'e']
  | number n => n.text
  | text t => t
  | list items => '[' :: Text.join [',', ' '] (displayItems items) ++ [']']
  | map entries => '\x7b' :: Text.join [',', ' '] (displayEntries entries) ++ ['\x7d']

def displayItems : List Scalar → List Text
  | [] => []
  | item :: rest => item.display :: displayItems rest

def displayEntries : List (Text × Scalar) → List Text
  | [] => []
  | (key, value) :: rest => (key ++ ':' :: ' ' :: value.display) :: displayEntries rest

end

/-- Whether one value contains another. Every value contains what equals it; a
text contains its parts, also those which write a number or a boolean; a list
contains its items. -/
def contains (collation : Collation) (whole part : Scalar) : Bool :=
  whole.equals collation part ||
    match whole, part with
    | text t, text p => collation.includes t p
    | text t, number _ => collation.includes t part.display
    | text t, bool _ => collation.includes t part.display
    | list items, _ => items.any fun item => item.equals collation part
    | _, _ => false

/-- Whether an operation holds between two values. Not greater and not less are
negations, so they hold between values which have no order. -/
def satisfies (collation : Collation) (op : Operation) (left right : Scalar) : Bool :=
  match op with
  | .undecided => false
  | .equal => left.equals collation right
  | .notEqual => !left.equals collation right
  | .lessThan => left.lessThan collation right
  | .lessOrEqual => !left.greaterThan collation right
  | .greaterThan => left.greaterThan collation right
  | .greaterOrEqual => !left.lessThan collation right
  | .contains | .containsOrEqual => left.contains collation right
  | .notContains => !left.contains collation right
  | .contained | .containedOrEqual => right.contains collation left
  | .notContained => !right.contains collation left

mutual

/-- The value which a JSON value denotes. -/
def ofJson : Json → Scalar
  | .null => null
  | .bool b => bool b
  | .integer n => number (.ofInt n)
  | .number n => number n
  | .text t => text t
  | .list items => list (ofItems items)
  | .map members => map (Table.ofMembers (ofMembers members))

def ofItems : List Json → List Scalar
  | [] => []
  | item :: rest => ofJson item :: ofItems rest

def ofMembers : List (Text × Json) → List (Text × Scalar)
  | [] => []
  | (key, value) :: rest => (key, ofJson value) :: ofMembers rest

end

end Scalar

end Criteria
