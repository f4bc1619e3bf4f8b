import Criteria.Operation

/-!
The structure of a script before its comparisons are understood: comparisons and
groups, joined by connectives. Connectives have no precedence; they are read from
left to right, and parentheses group.
-/

namespace Criteria

inductive Clause where
  | comparison (text : Text) (position : Nat)
  | group (negated : Bool) (inner : Clause)
  | logic (left : Clause) (connective : Connective) (right : Clause)
deriving DecidableEq, Repr

namespace Clause

/-- A clause and the clauses joined to it, from left to right. -/
abbrev Chain := Clause × List (Connective × Clause)

/-- Joins a chain from left to right: `a && b || c` is `(a && b) || c`. -/
def ofChain (chain : Chain) : Clause :=
  chain.2.foldl (fun left (connective, right) => logic left connective right) chain.1

/-- Puts a clause before a chain. -/
def Chain.cons (clause : Clause) (connective : Connective) (chain : Chain) : Chain :=
  (clause, (connective, chain.1) :: chain.2)

end Clause

end Criteria
