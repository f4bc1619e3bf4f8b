import Criteria.Proofs.Comparison.Inversion
import Criteria.Proofs.Comparison.Written
import Criteria.Proofs.Scalar.Symmetry

/-!
Comparisons with their operands swapped. The mirrored comparator means the mirrored
operation to the same value, but of two operands that one parser recognizes the left one
gives it the meaning, and this is then another one. The meanings of one comparator to two
values differ only when one value is a container and the other is not, and in that case
one of the two comparisons asks for a containment, which is not accepted.
-/

namespace Criteria

namespace Operation

variable {token : Text} {first second : Bool}

/-- The comparator which points to the other side. -/
def mirrorToken (token : Text) : Text :=
  token.map fun c => if c = '<' then '>' else if c = '>' then '<' else c

theorem mirror_mirror (op : Operation) : op.mirror.mirror = op := by
  cases op <;> rfl

theorem mirrorToken_mem_comparators (h : token ∈ comparators) :
    mirrorToken token ∈ comparators := by
  revert h token
  decide

theorem familyMeaning_mirrorToken {container : Bool} (h : token ∈ comparators) :
    familyMeaning container (mirrorToken token) = (familyMeaning container token).mirror := by
  revert container
  revert h token
  decide

theorem meaning_mirrorToken (value : Option Scalar) (h : token ∈ comparators) :
    meaning value (mirrorToken token) = (meaning value token).mirror := by
  cases value with
  | none =>
      revert h token
      decide
  | some value => rw [meaning_some, meaning_some, familyMeaning_mirrorToken h]

/-- A comparator means the same to two values unless it is a containment to one of them
and the other is not a container. -/
theorem familyMeaning_congr (h : token ∈ comparators)
    (hfirst : (familyMeaning first token).isContainment = true → second = true)
    (hsecond : (familyMeaning second token).isContainment = true → first = true) :
    familyMeaning first token = familyMeaning second token := by
  revert first second
  revert h token
  decide

end Operation

namespace Comparison

namespace Pair

variable {pair : Pair} {registry : Registry} {context : Context} {left right token : Text}
  {collation : Collation}

/-- The operands with their sides changed. -/
def swap (pair : Pair) : Pair where
  leftIndex := pair.rightIndex
  left := pair.right
  leftValue := pair.rightValue
  rightIndex := pair.leftIndex
  right := pair.left
  rightValue := pair.leftValue

theorem Selected.swap (h : pair.Selected registry context left right) :
    pair.swap.Selected registry context right left :=
  ⟨h.right, h.rightValue, h.left, h.leftValue⟩

theorem preferred_swap_eq_none_iff : pair.swap.preferred = none ↔ pair.preferred = none := by
  rw [preferred, preferred, preferred_eq_none_iff, preferred_eq_none_iff]
  exact and_comm

/-- When a comparator and its mirror image fit the values from both sides, the one means
the mirror image of what the other means, whichever operand gives them the meaning. -/
theorem meaning_swap (htoken : token ∈ Operation.comparators)
    (hfits : pair.Fits collation (pair.meaning token))
    (hswapped : pair.swap.Fits collation (pair.swap.meaning (Operation.mirrorToken token))) :
    pair.swap.meaning (Operation.mirrorToken token) = (pair.meaning token).mirror := by
  have hmirror : pair.swap.meaning (Operation.mirrorToken token) =
      (pair.swap.meaning token).mirror := Operation.meaning_mirrorToken _ htoken
  rw [hmirror] at hswapped ⊢
  suffices hsame : pair.swap.meaning token = pair.meaning token by rw [hsame]
  cases hfirst : pair.preferred with
  | none => rw [meaning, meaning, hfirst, preferred_swap_eq_none_iff.mpr hfirst]
  | some value =>
      cases hsecond : pair.swap.preferred with
      | none =>
          rw [preferred_swap_eq_none_iff.mp hsecond] at hfirst
          cases hfirst
      | some other =>
          -- Either value is that of one of the operands, so a containment to the one value
          -- is accepted only if the other is a container too.
          have hvalue := of_preferred_eq_some hfirst
          have hother := of_preferred_eq_some hsecond
          rw [meaning_of_preferred hfirst] at hfits ⊢
          rw [meaning_of_preferred hsecond] at hswapped ⊢
          apply Operation.familyMeaning_congr htoken
          · intro hcontainment
            rw [← Operation.isContainment_mirror] at hcontainment
            exact hswapped.isContainer hcontainment hvalue.symm
          · intro hcontainment
            exact hfits.isContainer hcontainment hother.symm

end Pair

/-- Comparisons which are mirror images both fail in a context or have the same answer. -/
theorem isMatch_mirror {one other : Comparison} (hleft : other.left = one.right)
    (hright : other.right = one.left) (hop : other.operation = one.operation.mirror)
    (context : Context) :
    (other.isMatch context).toOption = (one.isMatch context).toOption := by
  simp only [isMatch, hleft, hright, hop]
  cases one.left.resolve context with
  | error error => cases one.right.resolve context <;> rfl
  | ok first =>
      cases one.right.resolve context with
      | error error => rfl
      | ok second => simp only [Except.ok_bind, Scalar.satisfies_mirror]

/-- A comparison and the mirrored one between the swapped operands, if both are accepted,
ask for operations which are mirror images, and in every context they both fail or have
the same answer. -/
theorem isMatch_of_parse_mirrored {left right token : Text} {position other : Nat}
    {context : Context} {straight mirrored : Comparison} (hleft : left.IsOperand)
    (hright : right.IsOperand) (htoken : token ∈ Operation.comparators)
    (hstraight : parse (written left token right) position .builtin context = .ok straight)
    (hmirrored : parse (written right (Operation.mirrorToken token) left) other .builtin context =
      .ok mirrored) :
    mirrored.operation = straight.operation.mirror ∧
      straight.operation = mirrored.operation.mirror ∧
        ∀ evaluation : Context,
          (mirrored.isMatch evaluation).toOption = (straight.isMatch evaluation).toOption := by
  have hregistry := Registry.builtin_settled
  obtain ⟨pair, hpair, rfl, -, hfits⟩ := Pair.exists_selected_of_parse hregistry
    (.of_solid hleft.solid hright.solid) htoken hstraight
  obtain ⟨swapped, hswapped, rfl, -, hswappedFits⟩ := Pair.exists_selected_of_parse hregistry
    (.of_solid hright.solid hleft.solid) (Operation.mirrorToken_mem_comparators htoken) hmirrored
  obtain rfl := hswapped.unique hpair.swap
  have hop := Pair.meaning_swap htoken hfits hswappedFits
  refine ⟨hop, ?_, isMatch_mirror rfl rfl hop⟩
  exact ((congrArg Operation.mirror hop).trans (Operation.mirror_mirror _)).symm

/-- Two symbols for texts, of which the one contains the other. -/
theorem isMatch_of_parse_mirrored_texts :
    let context : Context := { values := [(['a'], .text ['x', 'y']), (['b'], .text ['y'])] }
    ∃ straight mirrored : Comparison,
      parse (written ['a'] ['>'] ['b']) 0 .builtin context = .ok straight ∧
        parse (written ['b'] ['<'] ['a']) 0 .builtin context = .ok mirrored ∧
        straight.operation = .contains ∧ mirrored.operation = .contained ∧
        (mirrored.isMatch context).toOption = some true := by
  intro context
  have hleft : Text.IsOperand ['a'] := ⟨by decide, .of_any (by decide +kernel)⟩
  have hright : Text.IsOperand ['b'] := ⟨by decide, .of_any (by decide +kernel)⟩
  have hmatches : (parse (written ['a'] ['>'] ['b']) 0 .builtin context).bind
      (fun comparison => (comparison.isMatch context).map (comparison.operation, ·)) =
        .ok (.contains, true) := by decide +kernel
  have haccepted : (parse (written ['b'] ['<'] ['a']) 0 .builtin context).map operation =
      .ok .contained := by decide +kernel
  obtain ⟨straight, hstraight, hanswer⟩ := Except.bind_eq_ok_iff.mp hmatches
  obtain ⟨holds, hholds, hpair⟩ := Except.map_eq_ok_iff.mp hanswer
  obtain ⟨mirrored, hmirrored, hcontained⟩ := Except.map_eq_ok_iff.mp haccepted
  obtain ⟨hcontains, rfl⟩ := Prod.mk.inj hpair
  obtain ⟨-, -, hsame⟩ := isMatch_of_parse_mirrored hleft hright (by decide)
    hstraight hmirrored
  refine ⟨straight, mirrored, hstraight, hmirrored, hcontains, hcontained, ?_⟩
  rw [hsame context, hholds]
  rfl

end Comparison

end Criteria
