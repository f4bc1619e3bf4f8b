import Criteria.Proofs.Comparison.Spelling
import Criteria.Proofs.Evaluation

/-!
Inverted comparisons are written again. The comparator of the inverse stands between
the same operands, so it means what their values make of it. This is the inverse
operation, except where it asks for a containment and neither operand has a value: the
comparator could be an ordering there, and has no meaning.
-/

namespace Criteria

namespace Operation

/-- Whether the comparator which writes the operation has no meaning without a value. -/
def needsValue (op : Operation) : Bool :=
  (ofUnambiguousToken? op.token).isNone

/-- Whether the operation is among those that comparators mean to a container. -/
def isOfFamily (container : Bool) (op : Operation) : Bool :=
  op = equal || op = notEqual || if container then op.isContainment else op.isOrdering

/-- Whether comparators or inversion give the operation to this value. Without a value
there are equality and the containments which exclude each other. -/
def suits (op : Operation) : Option Scalar → Bool
  | some value => op.isOfFamily value.isContainer
  | none => op.isOfFamily true && op != containsOrEqual && op != containedOrEqual

variable {op : Operation} {value : Option Scalar} {token : Text} {collation : Collation}
  {first second : Option Scalar}

theorem isOrdering_invert (op : Operation) : op.invert.isOrdering = op.isOrdering := by
  cases op <;> rfl

theorem mirror_invert (op : Operation) : op.invert.mirror = op.mirror.invert := by
  cases op <;> rfl

theorem mirror_ne_undecided (h : op ≠ .undecided) : op.mirror ≠ .undecided := by
  cases op <;> simp_all [mirror]

theorem isContainment_mirror (op : Operation) : op.mirror.isContainment = op.isContainment := by
  cases op <;> rfl

theorem allowedBy_invert (h : op ≠ .undecided) (value : Option Scalar) :
    op.invert.allowedBy value = op.allowedBy value := by
  cases value with
  | none => rw [allowedBy, allowedBy, bne_iff_ne.mpr h, bne_iff_ne.mpr (invert_ne_undecided h)]
  | some value => cases value <;> cases op <;> simp_all [allowedBy, Scalar.supports, invert] <;> rfl

theorem Fits.invert (hfits : op.Fits collation first second) (h : op ≠ .undecided) :
    op.invert.Fits collation first second := by
  constructor
  · rw [allowedBy_invert h]
    exact hfits.allowsLeft
  · rw [mirror_invert, allowedBy_invert (mirror_ne_undecided h)]
    exact hfits.allowsRight
  · intro hordering
    rw [isOrdering_invert] at hordering
    exact hfits.ordered hordering

theorem isContainer_of_supports {value : Scalar} (h : value.supports op = true)
    (hcontainment : op.isContainment = true) : value.isContainer = true := by
  cases value <;> cases op <;>
    simp_all [Scalar.supports, Scalar.isContainer, isContainment, isOrdering]

/-- Both operands of a containment which have a value are containers. -/
theorem Fits.isContainer {value : Scalar} (hfits : op.Fits collation first second)
    (hcontainment : op.isContainment = true) (h : first = some value ∨ second = some value) :
    value.isContainer = true := by
  rcases h with rfl | rfl
  · exact isContainer_of_supports hfits.allowsLeft hcontainment
  · apply isContainer_of_supports hfits.allowsRight
    rw [isContainment_mirror, hcontainment]

theorem isOfFamily_familyMeaning (h : token ∈ comparators) (container : Bool) :
    (familyMeaning container token).isOfFamily container = true ∨
      (familyMeaning container token).isContainment = true := by
  revert container
  revert h token
  decide

theorem suits_meaning_none (h : token ∈ comparators) (hdecided : meaning none token ≠ .undecided) :
    (meaning none token).suits none = true := by
  revert h token
  decide

/-- What a comparator means to operands that it fits suits the value which gives it the
meaning. -/
theorem Fits.suits_meaning (htoken : token ∈ comparators)
    (hdecided : meaning value token ≠ .undecided)
    (hfits : (meaning value token).Fits collation first second)
    (hvalue : ∀ found, value = some found → first = some found ∨ second = some found) :
    (meaning value token).suits value = true := by
  cases value with
  | none => exact suits_meaning_none htoken hdecided
  | some found =>
      rw [meaning_some] at hfits ⊢
      rcases isOfFamily_familyMeaning htoken found.isContainer with hfamily | hcontainment
      · exact hfamily
      · have hcontainer := hfits.isContainer hcontainment (hvalue found rfl)
        simp [suits, isOfFamily, hcontainer, hcontainer ▸ hcontainment]

theorem suits_invert (h : op.suits value = true) : op.invert.suits value = true := by
  cases value with
  | none => cases op <;> simp_all [suits, isOfFamily, invert, isContainment]
  | some value =>
      simp only [suits] at h ⊢
      generalize value.isContainer = container at h ⊢
      cases container <;> cases op <;> simp_all [isOfFamily, invert, isContainment, isOrdering]

/-- A suitable operation is what its own comparator means, unless this needs a value and
there is none. -/
theorem eq_meaning_token_iff (h : op.suits value = true) (hdecided : op ≠ .undecided) :
    op = meaning value op.token ↔ ¬(op.needsValue = true ∧ value = none) := by
  cases value with
  | none => cases op <;> simp_all [suits, isOfFamily, isContainment] <;> decide
  | some value =>
      rw [meaning_some]
      simp only [suits] at h
      generalize value.isContainer = container at h ⊢
      cases container <;> cases op <;> simp_all [isOfFamily, isContainment, isOrdering] <;> decide

theorem not_needsValue_of_meaning_none (htoken : token ∈ comparators)
    (hdecided : meaning none token ≠ .undecided) : (meaning none token).needsValue = false := by
  revert htoken token
  decide

end Operation

namespace Comparison

variable {text token : Text} {position : Nat} {context : Context} {comparison : Comparison}
  {i j : Nat} {first second value : Option Scalar}

/-- Neither operand has a value in the context. -/
def Valueless (comparison : Comparison) (context : Context) : Prop :=
  comparison.left.value? context = .ok none ∧ comparison.right.value? context = .ok none

theorem of_preferred_eq_some {found : Scalar} (h : preferred i j first second = some found) :
    first = some found ∨ second = some found := by
  unfold preferred at h
  cases first <;> cases second <;> split at h <;> simp_all

theorem preferred_eq_none_iff :
    preferred i j first second = none ↔ first = none ∧ second = none := by
  unfold preferred
  cases first <;> cases second <;> split <;> simp

theorem Reads.preferred_eq_none_iff {registry : Registry}
    (h : comparison.Reads registry context i j first second) :
    preferred i j first second = none ↔ comparison.Valueless context := by
  rw [Comparison.preferred_eq_none_iff, Valueless, h.leftValue, h.rightValue, Except.ok.injEq,
    Except.ok.injEq]

/-- A comparison that was read in the context, or the inverse of one. Its text can be
split again, and `value` decides what a comparator between its operands means. -/
structure Sound (context : Context) (comparison : Comparison) (token : Text)
    (value : Option Scalar) : Prop where
  reads : ∃ i j first second, comparison.Reads .builtin context i j first second ∧
    preferred i j first second = value
  suits : comparison.operation.suits value = true
  leftSolid : comparison.left.source.Solid
  rightSolid : comparison.right.source.Solid
  fragment : Fragment comparison.text
  hides : Text.Hides Text.joints comparison.text
  splits : split? comparison.text = some (comparison.left.source, token, comparison.right.source)
  token_eq : token = comparison.operation.token ∨
    comparison.operation = Operation.meaning value token

theorem sound_of_parse (hfragment : Fragment text)
    (h : parse text position .builtin context = .ok comparison) :
    ∃ token value, comparison.Sound context token value := by
  have hregistry := Registry.builtin_settled
  obtain ⟨token, i, j, first, second, hsplit, hreads, hop⟩ := reads_of_parse hregistry h
  obtain ⟨before, after, -, hleft, hright, htoken⟩ := exists_of_split? hsplit
  have htext : comparison.text = text := by
    rw [text_of_parse h, Text.trim_of_full hfragment.startsFull hfragment.endsFull]
  have hleftSolid := hreads.left.solid (hleft ▸ Text.trim_trim before)
  have hrightSolid := hreads.right.solid (hright ▸ Text.trim_trim after)
  have hsuits : comparison.operation.suits (preferred i j first second) = true := by
    have hdecided := hreads.decided
    have hfits := hreads.fits
    rw [hop] at hdecided hfits ⊢
    exact hfits.suits_meaning htoken hdecided fun found hfound => of_preferred_eq_some hfound
  refine ⟨token, preferred i j first second, ⟨i, j, first, second, hreads, rfl⟩, hsuits, hleftSolid,
    hrightSolid, ?_, ?_, ?_, .inr hop⟩
  · rwa [htext]
  · rw [htext]
    exact hides_joints_of_parse hregistry h
  · rwa [htext]

theorem Sound.invert (h : comparison.Sound context token value) :
    comparison.invert.Sound context comparison.operation.invert.token value := by
  obtain ⟨i, j, first, second, hreads, hvalue⟩ := h.reads
  have hdecided := Operation.invert_ne_undecided hreads.decided
  have htoken := token_mem_comparators hdecided
  refine ⟨⟨i, j, first, second, ?_, hvalue⟩, Operation.suits_invert h.suits, h.leftSolid,
    h.rightSolid, ?_, ?_, ?_, .inl rfl⟩
  · exact ⟨hreads.left, hreads.right, hreads.leftValue, hreads.rightValue, hdecided,
      hreads.fits.invert hreads.decided⟩
  · exact fragment_written h.leftSolid h.rightSolid htoken
  · exact hides_joints_written h.leftSolid h.rightSolid htoken
  · exact (Joinable.of_solid h.leftSolid h.rightSolid).split?_written htoken

/-- The text of the comparison is read as the comparison, unless its comparator needs a
value and neither operand has one. -/
theorem Sound.parse_eq_ok_iff (h : comparison.Sound context token value) :
    parse comparison.text position .builtin context = .ok comparison ↔
      ¬(comparison.operation.needsValue = true ∧ comparison.Valueless context) := by
  obtain ⟨i, j, first, second, hreads, rfl⟩ := h.reads
  have htext : Text.trim comparison.text = comparison.text :=
    Text.trim_of_full h.fragment.startsFull h.fragment.endsFull
  rw [hreads.parse_eq_ok_iff Registry.builtin_settled h.splits htext]
  have hvalueless := hreads.preferred_eq_none_iff
  rcases h.token_eq with rfl | hop
  · rw [Operation.eq_meaning_token_iff h.suits hreads.decided, hvalueless]
  · refine ⟨?_, fun _ => hop⟩
    rintro - ⟨hneeds, hnone⟩
    obtain ⟨_, _, _, _, _, htoken⟩ := exists_of_split? h.splits
    have hdecided := hreads.decided
    rw [hop, hvalueless.mpr hnone] at hneeds hdecided
    rw [Operation.not_needsValue_of_meaning_none htoken hdecided] at hneeds
    cases hneeds

end Comparison

end Criteria
