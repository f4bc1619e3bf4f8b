import Criteria.Text.Lowercase

/-!
How texts are compared: as they are, or after lower-casing both.
-/

namespace Criteria

inductive Collation where
  | ordinal
  | ordinalIgnoreCase
deriving DecidableEq, Repr

namespace Collation

/-- What is compared in place of a text. -/
def key (collation : Collation) (text : Text) : Text :=
  match collation with
  | ordinal => text
  | ordinalIgnoreCase => text.lowercase

/-- The order by code points, first difference first. -/
def compare (collation : Collation) (a b : Text) : Ordering :=
  Ord.compare (collation.key a) (collation.key b)

def includes (collation : Collation) (text part : Text) : Bool :=
  Text.includes (collation.key text) (collation.key part)

def name : Collation → String
  | ordinal => "ordinal"
  | ordinalIgnoreCase => "ordinal_ignore_case"

def ofName? (name : String) : Option Collation :=
  [ordinal, ordinalIgnoreCase].find? (·.name == name)

end Collation

end Criteria
