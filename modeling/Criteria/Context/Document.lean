import Criteria.Context
import Criteria.Json.Reader

/-!
Contexts written in JSON: a map of values, or a settings document with a
comparison policy beside the values.
-/

namespace Criteria.Context

def ofMembers (collation : Collation) (members : List (Text × Json)) : Context :=
  { values := Table.ofMembers (Scalar.ofMembers members), collation }

/-- Reads a map whose members are the values. -/
def ofJson (source : Text) : Except Error Context :=
  match Json.read? source with
  | none => .error (.format .contextJson source 0)
  | some (.map members) => .ok (ofMembers .ordinal members)
  | some _ => .error (.format .contextNotObject source 0)

/-- A comparison policy is its name, or a map from its name to null. -/
def collation? : Json → Option Collation
  | .text name => Collation.ofName? (String.ofList name)
  | .map [(name, .null)] => Collation.ofName? (String.ofList name)
  | _ => none

/-- What a settings document has given so far. -/
structure Settings where
  comparison : Option Collation := none
  values : Option (List (Text × Json)) := none

namespace Settings

def readComparison? (settings : Settings) (value : Json) : Option Settings :=
  if settings.comparison.isSome then none
  else (collation? value).map fun collation => { settings with comparison := some collation }

def readValues? (settings : Settings) : Json → Option Settings
  | .map members =>
      if settings.values.isSome then none else some { settings with values := some members }
  | _ => none

def readMember? (settings : Settings) (member : Text × Json) : Option Settings :=
  match String.ofList member.1 with
  | "comparison" => settings.readComparison? member.2
  | "values" => settings.readValues? member.2
  | _ => none

/-- A document is a map with the members `comparison` and `values`, each given at
most once, or a list of the two in this order which may end early. -/
def ofJson? : Json → Option Settings
  | .map members => members.foldlM readMember? {}
  | .list [] => some {}
  | .list [comparison] => readComparison? {} comparison
  | .list [comparison, values] => do
      (← readComparison? {} comparison).readValues? values
  | _ => none

def context (settings : Settings) : Context :=
  Context.ofMembers (settings.comparison.getD .ordinal) (settings.values.getD [])

end Settings

/-- Reads a settings document. -/
def ofDocument (source : Text) : Except Error Context :=
  match (Json.read? source).bind Settings.ofJson? with
  | some settings => .ok settings.context
  | none => .error (.format .contextDocument source 0)

end Criteria.Context
