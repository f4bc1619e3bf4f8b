import Criteria.Text
import Criteria.Number

/-!
JSON values. Maps keep their members in the written order, repeated keys
included, because a settings document may not repeat a key while in a map of
values the last member with a key counts.
-/

namespace Criteria

/-- A JSON value. A numeral without fraction or power of ten which fits into 64
bits is kept as a whole number. -/
inductive Json where
  | null
  | bool (value : Bool)
  | integer (value : Int)
  | number (value : Number)
  | text (value : Text)
  | list (items : List Json)
  | map (members : List (Text × Json))
deriving Inhabited

end Criteria
