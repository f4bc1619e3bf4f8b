import Criteria.Proofs.Comparison.Agreement
import Criteria.Proofs.Operand.Measures

/-!
Contexts which differ in how they compare texts. While a script is parsed two values are
compared only to see whether they have an order, and they have one under every collation
or under none. So contexts with the same values make the same criterion of a script, or
find the same error in it. Only the answers of the criterion may differ.
-/

namespace Criteria

/-- The contexts give each key the same value or the same error. Texts may be compared in
one way by the one and in another way by the other. -/
structure Context.SameValues (one other : Context) : Prop where
  resolve_eq (key : Text) : other.resolve key = one.resolve key
  isDefault_eq : other.isDefault = one.isDefault

namespace Context

variable {one other : Context}

theorem sameValues_withCollation (context : Context) (first second : Collation) :
    (context.withCollation first).SameValues (context.withCollation second) :=
  ⟨fun _ => rfl, rfl⟩

/-- A symbol finds the same value in both contexts, and no error of either is excused. -/
theorem SameValues.shares (h : one.SameValues other) : one.Shares (fun _ => False) other := by
  intro symbol
  apply Except.AgreesUnless.of_eq
  rw [Symbol.lookup, Symbol.lookup, h.resolve_eq, h.isDefault_eq]

end Context

namespace Script

/-- In contexts with the same values a script is parsed as the same criterion, or with the
same error, however the contexts compare texts. -/
theorem parse_of_sameValues {registry : Registry} (hregistry : registry ⊆ .full)
    {one other : Context} (h : one.SameValues other) (text : Text) :
    (parse registry text (some one)).map criterion =
      (parse registry text (some other)).map criterion := by
  have hagrees := criterion_agrees (Registry.settled_of_subset hregistry) h.shares text
  have hsame := hagrees.eq_of_forall fun _ _ => id
  exact hsame.symm

/-- A comparison of texts, an ordering of a number with a numeric text, and a percentage.
The criterion is the same for both collations, but it has different answers. -/
theorem parse_of_sameValues_status :
    let registry := (Registry.builtin.registerFront .length).register .percent
    let text := "#word <= level && (status == \"ACTIVE\" || ratio < 50%)".toList
    let refused := "status == \"ACTIVE\" && #word <= status".toList
    let context : Context :=
      { values := [("level".toList, .text "10".toList), ("ratio".toList, .number (.ofNat 1)),
        ("status".toList, .text "Active".toList)] }
    let one := context.withCollation .ordinal
    let other := context.withCollation .ordinalIgnoreCase
    (∃ first second, parse registry text (some one) = .ok first ∧
      parse registry text (some other) = .ok second ∧ first.criterion = second.criterion ∧
      first.isMatch = .ok false ∧ second.isMatch = .ok true) ∧
    (parse registry refused (some other)).map criterion =
      .error (.script (.invalidOperation .lessOrEqual "#word <= status".toList)) := by
  intro registry text refused context one other
  have hregistry : registry ⊆ .full := by
    simp [registry, Registry.registerFront, Registry.register, Registry.full, Registry.builtin]
  have hvalues := context.sameValues_withCollation .ordinal .ordinalIgnoreCase
  have hone : (do (← parse registry text (some one)).isMatch) = .ok false := by decide +kernel
  have hother : (do (← parse registry text (some other)).isMatch) = .ok true := by decide +kernel
  have herror : (parse registry refused (some one)).map Script.text =
      .error (.script (.invalidOperation .lessOrEqual "#word <= status".toList)) := by
    decide +kernel
  obtain ⟨first, hfirst, hno⟩ := Except.bind_eq_ok_iff.mp hone
  obtain ⟨second, hsecond, hyes⟩ := Except.bind_eq_ok_iff.mp hother
  constructor
  · refine ⟨first, second, hfirst, hsecond, ?_, hno, hyes⟩
    have hsame := parse_of_sameValues hregistry hvalues text
    rw [hfirst, hsecond] at hsame
    exact Except.ok.inj hsame
  · rw [← parse_of_sameValues hregistry hvalues refused, Except.map_eq_error_iff.mp herror]
    rfl

end Script

end Criteria
