import Criteria.Error
import Criteria.Scalar

/-!
Contexts give the symbols of a script their values, and say how texts are
compared. A context has a table of values, and a context from outside the library
may look further for the keys that are not in it. In the default context a symbol
may have no value; in every other one that is an error.
-/

namespace Criteria

/-- No value is found for a key. -/
def unresolved (key : Text) : Except Error Scalar :=
  .error (.script (.unresolvedSymbol key))

/-- `elsewhere` is asked for the keys which are not in the table. -/
structure Context where
  values : Table Scalar := []
  collation : Collation := .ordinal
  isDefault : Bool := false
  elsewhere : (key : Text) → Except Error Scalar := unresolved

namespace Context

def empty : Context := {}

/-- The context of a script to which none is given. -/
def default : Context := { isDefault := true }

def find? (context : Context) (key : Text) : Option Scalar :=
  context.values.find? key

def resolve (context : Context) (key : Text) : Except Error Scalar :=
  match context.find? key with
  | some value => .ok value
  | none => context.elsewhere key

def insert (context : Context) (key : Text) (value : Scalar) : Context :=
  { context with values := context.values.insert key value }

def erase (context : Context) (key : Text) : Context :=
  { context with values := context.values.erase key }

def withCollation (context : Context) (collation : Collation) : Context :=
  { context with collation }

/-- The number of keys with a value. -/
def size (context : Context) : Nat :=
  context.values.length

theorem find?_insert (context : Context) (key other : Text) (value : Scalar) :
    (context.insert key value).find? other =
      if key = other then some value else context.find? other :=
  Table.find?_insert key other value context.values

theorem find?_erase (context : Context) (key other : Text) :
    (context.erase key).find? other = if key = other then none else context.find? other :=
  Table.find?_erase key other context.values

end Context

end Criteria
