import Criteria.Comparison
import Criteria.Proofs.Fallible

/-!
When a comparison is read. It must be split at a comparator, both of its operands
and its operation must be found, and the operands must take part in the operation.
Where in the script the comparison lies has no part in this.
-/

namespace Criteria.Comparison

variable {fragment left token right : Text} {position : Nat} {registry : Registry}
  {context : Context}

theorem resolve_eq_ok_iff {resolved : Resolved} :
    resolve left token right registry context = .ok resolved ↔
      ∃ search, Search.run left token right context registry {} = .ok search ∧
        search.left = some resolved.left ∧ search.right = some resolved.right ∧
        search.operation = resolved.operation ∧ resolved.operation ≠ .undecided := by
  simp only [resolve, Except.bind_eq_ok_iff]
  constructor
  · rintro ⟨search, hrun, hfound⟩
    refine ⟨search, hrun, ?_⟩
    split at hfound
    · simp at hfound
    · simp at hfound
    · next leftOperand rightOperand hleft hright =>
      split at hfound
      · simp at hfound
      · next hdecided =>
        obtain rfl := Except.ok.inj hfound
        exact ⟨hleft, hright, rfl, hdecided⟩
  · rintro ⟨search, hrun, hleft, hright, hop, hdecided⟩
    refine ⟨search, hrun, ?_⟩
    simp only [hleft, hright, hop, if_neg hdecided, Except.pure_eq_ok]

theorem parse_eq_ok_iff {comparison : Comparison} :
    parse fragment position registry context = .ok comparison ↔
      ∃ left token right resolved, split? fragment = some (left, token, right) ∧
        resolve left token right registry context = .ok resolved ∧
        resolved.isValid context = .ok true ∧
        comparison =
          { text := Text.trim fragment
            operation := resolved.operation
            left := resolved.left
            right := resolved.right } := by
  unfold parse
  cases hsplit : split? fragment with
  | none => simp
  | some parts =>
      obtain ⟨left, token, right⟩ := parts
      simp only [Except.bind_eq_ok_iff]
      constructor
      · rintro ⟨resolved, hresolve, valid, hvalid, hread⟩
        cases valid with
        | false => simp at hread
        | true => exact ⟨_, _, _, resolved, rfl, hresolve, hvalid, (Except.ok.inj hread).symm⟩
      · rintro ⟨_, _, _, resolved, ⟨⟩, hresolve, hvalid, rfl⟩
        exact ⟨resolved, hresolve, true, hvalid, rfl⟩

/-- The place of a comparison shows in its errors only. -/
theorem parse_position {comparison : Comparison} (other : Nat)
    (h : parse fragment position registry context = .ok comparison) :
    parse fragment other registry context = .ok comparison :=
  parse_eq_ok_iff.mpr (parse_eq_ok_iff.mp h)

theorem operation_of_parse {comparison : Comparison}
    (h : parse fragment position registry context = .ok comparison) :
    comparison.operation ≠ .undecided := by
  obtain ⟨_, _, _, resolved, _, hresolve, _, rfl⟩ := parse_eq_ok_iff.mp h
  obtain ⟨_, _, _, _, _, hdecided⟩ := resolve_eq_ok_iff.mp hresolve
  exact hdecided

theorem text_of_parse {comparison : Comparison}
    (h : parse fragment position registry context = .ok comparison) :
    comparison.text = Text.trim fragment := by
  obtain ⟨_, _, _, _, _, _, _, rfl⟩ := parse_eq_ok_iff.mp h
  rfl

end Criteria.Comparison
