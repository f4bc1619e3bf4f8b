import Criteria.Proofs.Comparison.Families
import Criteria.Proofs.Scalar.Symmetry

/-!
Answers of accepted orderings. Not less and not greater are negations, and equality is
asked apart from the order. Yet where an ordering is accepted the values are numbers or
texts which have an order, so that the operators agree with each other. Only a null
operand is left to the negations.
-/

namespace Criteria

/-- The operation which asks whether this is the order of two values. -/
def Operation.ofOrdering : Ordering → Operation
  | .lt => lessThan
  | .eq => equal
  | .gt => greaterThan

namespace Scalar

variable {collation : Collation} {left right : Scalar}

theorem isAtomic_of_isOrdered (h : left.isOrdered = true) : left.isAtomic = true := by
  cases left with
  | number | text => rfl
  | null | bool | list | map => cases h

theorem compare_eq_none_of_isNull (h : left.isNull = true ∨ right.isNull = true) :
    left.compare collation right = none := by
  cases left <;> cases right <;> first | rfl | simp [isNull] at h

theorem satisfies_ofOrdering (h : left.isAtomic = true) (order : Ordering) :
    satisfies collation (.ofOrdering order) left right =
      (left.compare collation right == some order) := by
  cases order with
  | lt | gt => rfl
  | eq => exact equals_eq_compare (.inl h)

end Scalar

/-- Two values of operands which have an order, if neither of them is missing. -/
theorem Operation.Orderable.exists_compare {collation : Collation} {first second : Option Scalar}
    (h : Orderable collation first second) (hfirst : (first.getD .null).isNull = false)
    (hsecond : (second.getD .null).isNull = false) :
    (first.getD .null).isAtomic = true ∧
      ∃ order, (first.getD .null).compare collation (second.getD .null) = some order := by
  cases first with
  | none => cases hfirst
  | some left =>
      cases second with
      | none => cases hsecond
      | some right =>
          exact ⟨Scalar.isAtomic_of_isOrdered (h.isOrdered left (.inl rfl)),
            Option.isSome_iff_exists.mp (h.comparable left right rfl rfl)⟩

/-- The answers which the ordering operators and equality have between two values in
order: the values are in exactly one of the three orders, and the weak operators ask for
one of two. -/
structure Trichotomy (ask : Operation → Except Error Bool) : Prop where
  existsUnique : ∃! order : Ordering, ask (.ofOrdering order) = .ok true
  lessOrEqual : ask .lessOrEqual = .ok true ↔ ask .lessThan = .ok true ∨ ask .equal = .ok true
  greaterOrEqual :
    ask .greaterOrEqual = .ok true ↔ ask .greaterThan = .ok true ∨ ask .equal = .ok true

/-- The answers of the ordering operators where there is no order: only the negations
hold. -/
structure Incomparable (ask : Operation → Except Error Bool) : Prop where
  lessThan : ask .lessThan = .ok false
  greaterThan : ask .greaterThan = .ok false
  lessOrEqual : ask .lessOrEqual = .ok true
  greaterOrEqual : ask .greaterOrEqual = .ok true

section

variable {ask : Operation → Except Error Bool} {collation : Collation} {left right : Scalar}

theorem Trichotomy.of_compare {order : Ordering}
    (hask : ∀ op ∈ Family.ordering.operations,
      ask op = .ok (Scalar.satisfies collation op left right))
    (hatomic : left.isAtomic = true) (hcompare : left.compare collation right = some order) :
    Trichotomy ask := by
  have hof (asked : Ordering) : ask (.ofOrdering asked) = .ok true ↔ asked = order := by
    have hmem : Operation.ofOrdering asked ∈ Family.ordering.operations := by
      cases asked <;> decide
    rw [hask _ hmem, Scalar.satisfies_ofOrdering hatomic, hcompare, Except.ok.injEq, beq_iff_eq,
      Option.some.injEq, eq_comm]
  constructor
  · exact ⟨order, (hof order).mpr rfl, fun other hother => (hof other).mp hother⟩
  · change _ ↔ ask (.ofOrdering .lt) = .ok true ∨ ask (.ofOrdering .eq) = .ok true
    rw [hof, hof, hask _ (by decide), Scalar.satisfies, Scalar.greaterThan, hcompare]
    cases order <;> decide
  · change _ ↔ ask (.ofOrdering .gt) = .ok true ∨ ask (.ofOrdering .eq) = .ok true
    rw [hof, hof, hask _ (by decide), Scalar.satisfies, Scalar.lessThan, hcompare]
    cases order <;> decide

theorem Incomparable.of_compare
    (hask : ∀ op ∈ Family.ordering.operations,
      ask op = .ok (Scalar.satisfies collation op left right))
    (hcompare : left.compare collation right = none) : Incomparable ask := by
  constructor <;> rw [hask _ (by decide)] <;>
    simp [Scalar.satisfies, Scalar.lessThan, Scalar.greaterThan, hcompare]

end

namespace Comparison.Pair

variable {pair : Pair} {registry : Registry} {context : Context} {left right : Text}
  {shape : Text → Prop} {collation : Collation} {op : Operation}

/-- Where the comparator of an ordering means it, those of all the family do. -/
theorem meaning_of_lessThan (h : pair.meaning Operation.lessThan.token = .lessThan)
    (hop : op ∈ Family.ordering.operations) :
    pair.meaning op.token = op ∧ op.isContainment = false := by
  cases hpreferred : pair.preferred with
  | none =>
      rw [meaning, hpreferred] at h
      cases h
  | some value =>
      rw [meaning_of_preferred hpreferred] at h ⊢
      cases hkind : value.isContainer with
      | true =>
          rw [hkind] at h
          cases h
      | false =>
          have hmem : op ∈ (Family.valued false true).operations := hop
          obtain ⟨hmeans, -, hcontainment⟩ := Family.familyMeaning_of_mem_valued hmem
          refine ⟨hmeans, Bool.eq_false_iff.mpr fun hasked => ?_⟩
          cases (hcontainment hasked).2

/-- Where one ordering is accepted, all operations of the family are. -/
theorem Selected.parse_ordering (h : pair.Selected registry context left right)
    (hregistry : registry.Settled shape) (hjoinable : Joinable left right)
    (hmeaning : pair.meaning Operation.lessThan.token = .lessThan)
    (horderable : Operation.Orderable context.collation pair.leftValue pair.rightValue)
    (hop : op ∈ Family.ordering.operations) (position : Nat) :
    parse (written left op.token right) position registry context =
      .ok (pair.comparison (Text.trim (written left op.token right)) op) := by
  obtain ⟨hmeans, hcontainment⟩ := meaning_of_lessThan hmeaning hop
  have hdecided := Family.ne_undecided_of_mem hop
  apply h.parse_token hregistry hjoinable hdecided hmeans
  rw [fits_iff hdecided, hcontainment]
  exact ⟨fun _ => horderable, fun hasked => by cases hasked⟩

/-- Scripts of these operations are answered by the values of the operands. -/
theorem Selected.run_ordering {given : Option Context}
    (h : pair.Selected .builtin (given.getD .default) left right) (hleft : left.IsOperand)
    (hright : right.IsOperand) (hmeaning : pair.meaning Operation.lessThan.token = .lessThan)
    (horderable : Operation.Orderable (given.getD .default).collation pair.leftValue
      pair.rightValue)
    (hop : op ∈ Family.ordering.operations) :
    Script.run .builtin (written left op.token right) given =
      .ok (Scalar.satisfies (given.getD .default).collation op (pair.leftValue.getD .null)
        (pair.rightValue.getD .null)) := by
  have htoken := Family.mem_comparators_of_mem_tokens (List.mem_map_of_mem hop)
  have hparse := h.parse_ordering Registry.builtin_settled (.of_solid hleft.solid hright.solid)
    hmeaning horderable hop 0
  exact h.run_of_parse hleft.solid hright.solid htoken hparse

end Comparison.Pair

/-- Between two texts that can be compared as less than one another all ordering operators
and equality are accepted. Scripts of them have the answers of a trichotomy, unless an
operand is null. -/
theorem Script.run_trichotomy {left right : Text} {position : Nat} {given : Option Context}
    {comparison : Comparison} (hleft : left.IsOperand) (hright : right.IsOperand)
    (h : Comparison.parse (Comparison.written left Operation.lessThan.token right) position
      .builtin (given.getD .default) = .ok comparison)
    (hop : comparison.operation = .lessThan) :
    let context := given.getD .default
    let text (op : Operation) := Comparison.written left op.token right
    let ask (op : Operation) := run .builtin (text op) given
    (∀ op ∈ Family.ordering.operations,
      (∃ accepted : Comparison,
        Comparison.parse (text op) position .builtin context = .ok accepted ∧
          accepted.operation = op) ∧
        ∃ holds, ask op = .ok holds) ∧
      ∃ first second : Scalar, comparison.left.resolve context = .ok first ∧
        comparison.right.resolve context = .ok second ∧
          (first.isNull = false ∧ second.isNull = false → Trichotomy ask) ∧
            (first.isNull = true ∨ second.isNull = true → Incomparable ask) := by
  intro context text ask
  have hregistry := Registry.builtin_settled
  have hjoinable := Comparison.Joinable.of_solid hleft.solid hright.solid
  obtain ⟨pair, hpair, rfl, hdecided, hfits⟩ :=
    Comparison.Pair.exists_selected_of_parse hregistry hjoinable (by decide) h
  have hmeaning : pair.meaning Operation.lessThan.token = .lessThan := hop
  rw [Comparison.Pair.fits_iff hdecided, hmeaning] at hfits
  have horderable := hfits.1 rfl
  have hask (op : Operation) (hmem : op ∈ Family.ordering.operations) :=
    hpair.run_ordering hleft hright hmeaning horderable hmem
  refine ⟨fun op hmem => ⟨?_, _, hask op hmem⟩, _, _, hpair.resolve_left hregistry,
    hpair.resolve_right hregistry, ?_, ?_⟩
  · exact ⟨_, hpair.parse_ordering hregistry hjoinable hmeaning horderable hmem position, rfl⟩
  · rintro ⟨hfirst, hsecond⟩
    obtain ⟨hatomic, order, hcompare⟩ := horderable.exists_compare hfirst hsecond
    exact .of_compare hask hatomic hcompare
  · intro hnull
    exact .of_compare hask (Scalar.compare_eq_none_of_isNull hnull)

/-- A text that denotes a number is in order with another number, and a missing value is
not. -/
theorem Script.run_trichotomy_numeric :
    let given : Context := { values := [(['a'], .text ['7'])] }
    Trichotomy (fun op => run .builtin (Comparison.written ['a'] op.token ['8']) (some given)) ∧
      Incomparable (fun op => run .builtin (Comparison.written ['b'] op.token ['8']) none) := by
  intro given
  have hsymbol : Text.IsOperand ['a'] := ⟨by decide, .of_any (by decide +kernel)⟩
  have hmissing : Text.IsOperand ['b'] := ⟨by decide, .of_any (by decide +kernel)⟩
  have hnumber : Text.IsOperand ['8'] := ⟨by decide, .of_any (by decide +kernel)⟩
  constructor
  · have hread : (Comparison.parse (Comparison.written ['a'] ['<'] ['8']) 0 .builtin given).bind
        (fun comparison => (comparison.left.resolve given).bind fun first =>
          (comparison.right.resolve given).map fun second =>
            (comparison.operation, first.isNull, second.isNull)) =
          .ok (.lessThan, false, false) := by decide +kernel
    obtain ⟨comparison, hparse, hread⟩ := Except.bind_eq_ok_iff.mp hread
    obtain ⟨first, hfirst, hread⟩ := Except.bind_eq_ok_iff.mp hread
    obtain ⟨second, hsecond, hread⟩ := Except.map_eq_ok_iff.mp hread
    obtain ⟨hop, hvalues⟩ := Prod.mk.inj hread
    obtain ⟨-, _, _, hleft, hright, hanswers, -⟩ :=
      @run_trichotomy _ _ 0 (some given) comparison hsymbol hnumber hparse hop
    obtain rfl := Except.ok.inj (hfirst.symm.trans hleft)
    obtain rfl := Except.ok.inj (hsecond.symm.trans hright)
    exact hanswers (Prod.mk.inj hvalues)
  · have hread : (Comparison.parse (Comparison.written ['b'] ['<'] ['8']) 0 .builtin .default).bind
        (fun comparison => (comparison.left.resolve .default).map fun first =>
          (comparison.operation, first.isNull)) = .ok (.lessThan, true) := by decide +kernel
    obtain ⟨comparison, hparse, hread⟩ := Except.bind_eq_ok_iff.mp hread
    obtain ⟨first, hfirst, hread⟩ := Except.map_eq_ok_iff.mp hread
    obtain ⟨hop, hnull⟩ := Prod.mk.inj hread
    obtain ⟨-, _, _, hleft, -, -, hanswers⟩ :=
      @run_trichotomy _ _ 0 none comparison hmissing hnumber hparse hop
    obtain rfl := Except.ok.inj (hfirst.symm.trans hleft)
    exact hanswers (.inl hnull)

end Criteria
