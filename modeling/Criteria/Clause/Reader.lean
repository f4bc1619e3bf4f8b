import Criteria.Clause.Term

/-!
Reading the clauses of a script, or the first fault in its structure.
-/

namespace Criteria.Clause

/-- Reads clauses up to the end of a text. The inside of a group is read as a text
of its own, at its place in the script. -/
def readChain (cursor : Cursor) : Except Error Chain :=
  have := cursor.skipBlanks_le
  match h : Term.read cursor.skipBlanks with
  | .error error => .error error
  | .ok (.comparison text position next after) =>
      have := Term.comparison_shorter h
      match h : readNext next after with
      | .error error => .error error
      | .ok none => .ok (.comparison text position, [])
      | .ok (some (connective, following)) =>
          have := readNext_le h
          (readChain following).map (Chain.cons (.comparison text position) connective)
  | .ok (.group negated interior position after) =>
      have := Term.interior_shorter h
      have := Term.group_shorter h
      match readChain (.start interior position) with
      | .error error => .error error
      | .ok inner =>
          let group := Clause.group negated (ofChain inner)
          match h : readConnective after with
          | .error error => .error error
          | .ok (next, after) =>
              have := readConnective_le h
              match h : readNext next after with
              | .error error => .error error
              | .ok none => .ok (group, [])
              | .ok (some (connective, following)) =>
                  have := readNext_le h
                  (readChain following).map (Chain.cons group connective)
termination_by cursor.rest.length
decreasing_by all_goals omega

/-- Splits the text of a script into clauses. -/
def parse (text : Text) : Except Error Clause :=
  (readChain (.start text 0)).map ofChain

end Criteria.Clause
