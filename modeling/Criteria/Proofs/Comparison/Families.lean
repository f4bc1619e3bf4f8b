import Criteria.Proofs.Comparison.Inversion
import Criteria.Proofs.Comparison.Written

/-!
Which comparators are accepted between two operands. All operations of a kind fit the same
values: equality fits all of them, a containment fits containers, and an ordering fits
numbers and texts that have an order. So when two operands can be compared at all, the
accepted comparators are those of one of four families.
-/

namespace Criteria

namespace Scalar

/-- The values which an ordering can be asked of. -/
def isOrdered : Scalar → Bool
  | number _ | text _ => true
  | _ => false

theorem supports_eq (value : Scalar) {op : Operation} (h : op ≠ .undecided) :
    value.supports op =
      if op.isOrdering then value.isOrdered
      else if op.isContainment then value.isContainer else true := by
  cases op with
  | undecided => exact absurd rfl h
  | _ => cases value <;> rfl

theorem isNull_of_isOrdered {value : Scalar} (h : value.isOrdered = true) :
    value.isNull = false := by
  cases value with
  | null => cases h
  | bool | number | text | list | map => rfl

end Scalar

namespace Operation

/-- The values which two operands have, if any, are containers. -/
def Containing (first second : Option Scalar) : Prop :=
  ∀ value, first = some value ∨ second = some value → value.isContainer = true

/-- The values which two operands have are numbers or texts, and two values have an
order. -/
structure Orderable (collation : Collation) (first second : Option Scalar) : Prop where
  isOrdered (value : Scalar) (h : first = some value ∨ second = some value) :
    value.isOrdered = true
  comparable (left right : Scalar) (hleft : first = some left) (hright : second = some right) :
    (left.compare collation right).isSome = true

variable {op : Operation} {collation : Collation} {first second : Option Scalar}

theorem isOrdering_mirror (op : Operation) : op.mirror.isOrdering = op.isOrdering := by
  cases op <;> rfl

theorem not_isContainment_of_isOrdering (h : op.isOrdering = true) : op.isContainment = false := by
  cases op <;> first | rfl | cases h

theorem allowedBy_iff (h : op ≠ .undecided) (value : Option Scalar) :
    op.allowedBy value = true ↔
      ∀ found, value = some found → (op.isOrdering = true → found.isOrdered = true) ∧
        (op.isContainment = true → found.isContainer = true) := by
  cases value with
  | none => simp [allowedBy, h]
  | some found =>
      simp only [allowedBy, found.supports_eq h, Option.some.injEq, forall_eq']
      by_cases hordering : op.isOrdering = true
      · simp [hordering, not_isContainment_of_isOrdering hordering]
      · by_cases hcontainment : op.isContainment = true
        · simp [hordering, hcontainment]
        · simp [hordering, hcontainment]

/-- Whether an operation fits two values is a matter of its kind. -/
theorem fits_iff (h : op ≠ .undecided) :
    op.Fits collation first second ↔
      (op.isOrdering = true → Orderable collation first second) ∧
        (op.isContainment = true → Containing first second) := by
  constructor
  · intro hfits
    have hleft := (allowedBy_iff h first).mp hfits.allowsLeft
    have hright := (allowedBy_iff (mirror_ne_undecided h) second).mp hfits.allowsRight
    rw [isOrdering_mirror, isContainment_mirror] at hright
    refine ⟨fun hordering => ⟨?_, ?_⟩, fun hcontainment value hvalue => ?_⟩
    · rintro value (hvalue | hvalue)
      · exact (hleft value hvalue).1 hordering
      · exact (hright value hvalue).1 hordering
    · rintro left right rfl rfl
      have hordered := hfits.ordered hordering
      have hnotLeft := Scalar.isNull_of_isOrdered ((hleft left rfl).1 hordering)
      have hnotRight := Scalar.isNull_of_isOrdered ((hright right rfl).1 hordering)
      simpa [hnotLeft, hnotRight] using hordered
    · exact hfits.isContainer hcontainment hvalue
  · rintro ⟨hordering, hcontainment⟩
    refine ⟨?_, ?_, fun hasked => ?_⟩
    · rw [allowedBy_iff h]
      exact fun value hvalue => ⟨fun hasked => (hordering hasked).isOrdered value (.inl hvalue),
        fun hasked => hcontainment hasked value (.inl hvalue)⟩
    · rw [allowedBy_iff (mirror_ne_undecided h), isOrdering_mirror, isContainment_mirror]
      exact fun value hvalue => ⟨fun hasked => (hordering hasked).isOrdered value (.inr hvalue),
        fun hasked => hcontainment hasked value (.inr hvalue)⟩
    · cases first with
      | none => rfl
      | some left =>
          cases second with
          | none => simp [Scalar.isNull]
          | some right => simp [(hordering hasked).comparable left right rfl rfl]

end Operation

/-- The comparators which are accepted between two operands, by what they mean there. -/
inductive Family where
  | equality
  | ordering
  | containment
  | unvalued
deriving DecidableEq, Repr

namespace Family

open Operation

def operations : Family → List Operation
  | equality => [equal, notEqual]
  | ordering => [equal, notEqual, lessThan, lessOrEqual, greaterThan, greaterOrEqual]
  | containment =>
      [equal, notEqual, contained, containedOrEqual, contains, containsOrEqual, notContained,
        notContains]
  | unvalued => [equal, notEqual, notContained, notContains]

def tokens (family : Family) : List Text :=
  family.operations.map token

/-- The family between operands with values, where comparators mean containments if
`container` is true and orderings if not: all those that they mean are accepted when they
fit the values, and none otherwise. -/
def valued (container fits : Bool) : Family :=
  if fits then if container then containment else ordering else equality

/-- The error of the comparators that are not accepted. Without values they have no
meaning, and with values their meaning is not valid. -/
def refusal : Family → ErrorCode
  | unvalued => .unrecognizedComparison
  | _ => .invalidOperation

/-- The comparators of the family, and no others, are accepted between the texts. Each of
them means the operation of the family which it writes, and each other one is refused with
the error of the family. -/
structure Governs (family : Family) (registry : Registry) (context : Context)
    (left right : Text) : Prop where
  accepts {op : Operation} (h : op ∈ family.operations) (position : Nat) :
    ∃ comparison : Comparison,
      Comparison.parse (Comparison.written left op.token right) position registry context =
        .ok comparison ∧
      comparison.operation = op
  refuses {token : Text} (hcomparator : token ∈ comparators) (hother : token ∉ family.tokens)
    (position : Nat) :
    ∃ error : Error,
      Comparison.parse (Comparison.written left token right) position registry context =
        .error error ∧
      error.code? = some family.refusal

variable {family other : Family} {registry : Registry} {context : Context} {left right token : Text}

theorem mem_comparators_of_mem_tokens (h : token ∈ family.tokens) : token ∈ comparators := by
  revert h token
  cases family <;> decide

theorem Governs.mem_tokens_iff (h : family.Governs registry context left right)
    (htoken : token ∈ comparators) :
    token ∈ family.tokens ↔ ∃ comparison : Comparison,
      Comparison.parse (Comparison.written left token right) 0 registry context =
        .ok comparison := by
  constructor
  · intro hmem
    obtain ⟨op, hop, rfl⟩ := List.mem_map.mp hmem
    obtain ⟨comparison, hparse, -⟩ := h.accepts hop 0
    exact ⟨comparison, hparse⟩
  · rintro ⟨comparison, hparse⟩
    by_contra hother
    obtain ⟨error, hfails, -⟩ := h.refuses htoken hother 0
    rw [hparse] at hfails
    cases hfails

/-- What a comparator is read as belongs to the family. -/
theorem Governs.mem_of_parse {op own : Operation}
    (h : family.Governs registry context left right) (hdecided : op ≠ .undecided)
    (hparse : (Comparison.parse (Comparison.written left op.token right) 0 registry context).map
      Comparison.operation = .ok own) :
    own ∈ family.operations := by
  obtain ⟨comparison, haccepts, rfl⟩ := Except.map_eq_ok_iff.mp hparse
  have hmem := (h.mem_tokens_iff (Comparison.token_mem_comparators hdecided)).mpr
    ⟨comparison, haccepts⟩
  obtain ⟨other, hother, htoken⟩ := List.mem_map.mp hmem
  obtain ⟨accepted, haccepted, rfl⟩ := h.accepts hother 0
  rw [htoken, haccepts] at haccepted
  obtain rfl := Except.ok.inj haccepted
  exact hother

/-- A comparator which is refused is not one of the family, and its error is that of the family. -/
theorem Governs.refusal_of_parse {error : Error} (h : family.Governs registry context left right)
    (htoken : token ∈ comparators)
    (hparse : Comparison.parse (Comparison.written left token right) 0 registry context =
      .error error) :
    token ∉ family.tokens ∧ error.code? = some family.refusal := by
  have hother : token ∉ family.tokens := by
    intro hmem
    obtain ⟨comparison, haccepted⟩ := (h.mem_tokens_iff htoken).mp hmem
    rw [hparse] at haccepted
    cases haccepted
  obtain ⟨refused, hrefused, hcode⟩ := h.refuses htoken hother 0
  rw [hparse] at hrefused
  obtain rfl := Except.error.inj hrefused
  exact ⟨hother, hcode⟩

/-- Families with the same comparators are the same. -/
theorem eq_of_tokens (h : ∀ token ∈ comparators, token ∈ family.tokens ↔ token ∈ other.tokens) :
    family = other := by
  revert h
  cases family <;> cases other <;> decide

/-- Two texts are governed by one family only. -/
theorem Governs.unique (h : family.Governs registry context left right)
    (hother : other.Governs registry context left right) : family = other := by
  apply eq_of_tokens
  intro token htoken
  rw [h.mem_tokens_iff htoken, hother.mem_tokens_iff htoken]

theorem ne_undecided_of_mem {op : Operation} (h : op ∈ family.operations) : op ≠ .undecided := by
  revert h op
  cases family <;> decide

theorem meaning_of_mem_unvalued {op : Operation} (h : op ∈ unvalued.operations) :
    meaning none op.token = op ∧ op.isOrdering = false := by
  revert h op
  decide

theorem meaning_of_not_mem_unvalued (htoken : token ∈ comparators)
    (h : token ∉ unvalued.tokens) : meaning none token = .undecided := by
  revert h htoken token
  decide

theorem familyMeaning_of_mem_valued {container fits : Bool} {op : Operation}
    (h : op ∈ (valued container fits).operations) :
    familyMeaning container op.token = op ∧
      (op.isOrdering = true → fits = true ∧ container = false) ∧
        (op.isContainment = true → fits = true ∧ container = true) := by
  revert h op
  cases container <;> cases fits <;> decide

theorem familyMeaning_of_not_mem_valued {container fits : Bool} (htoken : token ∈ comparators)
    (h : token ∉ (valued container fits).tokens) :
    (familyMeaning container token).isOrdering = true ∧ fits = false ∧ container = false ∨
      (familyMeaning container token).isContainment = true ∧
        (container = true → fits = false) := by
  revert h htoken token
  cases container <;> cases fits <;> decide

theorem valued_ne_unvalued (container fits : Bool) : valued container fits ≠ unvalued := by
  cases container <;> cases fits <;> decide

theorem refusal_valued (container fits : Bool) :
    (valued container fits).refusal = .invalidOperation := by
  cases container <;> cases fits <;> rfl

end Family

namespace Comparison

namespace Pair

open Operation

variable {pair : Pair} {collation : Collation} {registry : Registry} {context : Context}
  {left right : Text} {shape : Text → Prop} {value : Scalar} {op : Operation}

theorem fits_iff (h : op ≠ .undecided) :
    pair.Fits collation op ↔
      (op.isOrdering = true → Orderable collation pair.leftValue pair.rightValue) ∧
        (op.isContainment = true → Containing pair.leftValue pair.rightValue) :=
  Operation.fits_iff h

/-- The family of comparators which is accepted between the operands. -/
def family (pair : Pair) (collation : Collation) : Family :=
  match pair.preferred with
  | none => .unvalued
  | some value =>
      .valued value.isContainer
        (pair.Fits collation (if value.isContainer then .contains else .lessThan))

theorem family_eq_unvalued_iff :
    pair.family collation = .unvalued ↔ pair.leftValue = none ∧ pair.rightValue = none := by
  rw [← preferred_eq_none_iff, ← preferred]
  unfold family
  split
  · next hnone => simp [hnone]
  · next value hsome => simp [hsome, Family.valued_ne_unvalued]

/-- A comparator which means its own operation is accepted when this fits. -/
theorem Selected.parse_token (h : pair.Selected registry context left right)
    (hregistry : registry.Settled shape) (hjoinable : Joinable left right)
    (hdecided : op ≠ .undecided) (hmeaning : pair.meaning op.token = op)
    (hfits : pair.Fits context.collation op) (position : Nat) :
    parse (written left op.token right) position registry context =
      .ok (pair.comparison (Text.trim (written left op.token right)) op) := by
  rw [h.parse_written hregistry hjoinable (token_mem_comparators hdecided), hmeaning]
  simp only [if_neg hdecided, if_pos hfits]

/-- What is to be known of a family that governs the operands: its operations are what
their comparators mean and fit, and other comparators mean nothing or nothing that fits. -/
theorem Selected.governs {family : Family} (h : pair.Selected registry context left right)
    (hregistry : registry.Settled shape) (hjoinable : Joinable left right)
    (haccepts : ∀ op ∈ family.operations,
      pair.meaning op.token = op ∧ pair.Fits context.collation op)
    (hrefuses : ∀ token ∈ comparators, token ∉ family.tokens →
      pair.meaning token = .undecided ∧ family.refusal = .unrecognizedComparison ∨
        pair.meaning token ≠ .undecided ∧ ¬pair.Fits context.collation (pair.meaning token) ∧
          family.refusal = .invalidOperation) :
    family.Governs registry context left right := by
  constructor
  · intro op hop position
    obtain ⟨hmeaning, hfits⟩ := haccepts op hop
    have hdecided := Family.ne_undecided_of_mem hop
    exact ⟨_, h.parse_token hregistry hjoinable hdecided hmeaning hfits position, rfl⟩
  · intro token htoken hother position
    rw [h.parse_written hregistry hjoinable htoken]
    rcases hrefuses token htoken hother with ⟨hopen, hrefusal⟩ | ⟨hdecided, hmisfit, hrefusal⟩
    · simp only [if_pos hopen]
      exact ⟨_, rfl, hrefusal ▸ rfl⟩
    · simp only [if_neg hdecided, if_neg hmisfit]
      exact ⟨_, rfl, hrefusal ▸ rfl⟩

theorem Selected.governs_unvalued (h : pair.Selected registry context left right)
    (hregistry : registry.Settled shape) (hjoinable : Joinable left right)
    (hpreferred : pair.preferred = none) : Family.unvalued.Governs registry context left right := by
  obtain ⟨hleft, hright⟩ := preferred_eq_none_iff.mp hpreferred
  refine h.governs hregistry hjoinable ?_ ?_
  · intro op hop
    obtain ⟨hmeaning, hordering⟩ := Family.meaning_of_mem_unvalued hop
    rw [meaning, hpreferred, fits_iff (Family.ne_undecided_of_mem hop)]
    refine ⟨hmeaning, fun hasked => ?_, fun _ => by simp [Containing, hleft, hright]⟩
    rw [hordering] at hasked
    cases hasked
  · intro token htoken hother
    rw [meaning, hpreferred]
    exact .inl ⟨Family.meaning_of_not_mem_unvalued htoken hother, rfl⟩

/-- The operations of one kind fit the values together, so one of each kind tells which
are accepted. Containments between operands of which the preferred one is no container
never fit. -/
theorem Selected.governs_valued (h : pair.Selected registry context left right)
    (hregistry : registry.Settled shape) (hjoinable : Joinable left right) {fits : Bool}
    (hpreferred : pair.preferred = some value)
    (hfits : fits = true ↔
      pair.Fits context.collation (if value.isContainer then .contains else .lessThan)) :
    (Family.valued value.isContainer fits).Governs registry context left right := by
  have hmeaning := meaning_of_preferred hpreferred
  have hcontaining (hkind : value.isContainer = true) :
      fits = true ↔ Containing pair.leftValue pair.rightValue := by
    rw [hfits, if_pos hkind, fits_iff (by decide)]
    simp [isOrdering, isContainment]
  have horderable (hkind : value.isContainer = false) :
      fits = true ↔ Orderable context.collation pair.leftValue pair.rightValue := by
    rw [hfits, hkind, if_neg Bool.false_ne_true, fits_iff (by decide)]
    simp [isOrdering, isContainment]
  refine h.governs hregistry hjoinable ?_ ?_
  · intro op hop
    obtain ⟨hmeans, hordering, hcontainment⟩ := Family.familyMeaning_of_mem_valued hop
    rw [hmeaning, fits_iff (Family.ne_undecided_of_mem hop)]
    refine ⟨hmeans, fun hasked => ?_, fun hasked => ?_⟩
    · obtain ⟨hholds, hkind⟩ := hordering hasked
      exact (horderable hkind).mp hholds
    · obtain ⟨hholds, hkind⟩ := hcontainment hasked
      exact (hcontaining hkind).mp hholds
  · intro token htoken hother
    have hdecided : familyMeaning value.isContainer token ≠ .undecided :=
      familyMeaning_ne_undecided htoken
    refine .inr ⟨hmeaning token ▸ hdecided, ?_, Family.refusal_valued _ _⟩
    rw [hmeaning, fits_iff hdecided]
    rintro ⟨hordering, hcontainment⟩
    rcases Family.familyMeaning_of_not_mem_valued htoken hother with
      ⟨hasked, hmisfit, hkind⟩ | ⟨hasked, hmisfit⟩
    · exact Bool.eq_false_iff.mp hmisfit ((horderable hkind).mpr (hordering hasked))
    · have hcontains := hcontainment hasked
      have hkind := hcontains value (of_preferred_eq_some hpreferred)
      exact Bool.eq_false_iff.mp (hmisfit hkind) ((hcontaining hkind).mpr hcontains)

theorem Selected.governs_family (h : pair.Selected registry context left right)
    (hregistry : registry.Settled shape) (hjoinable : Joinable left right) :
    (pair.family context.collation).Governs registry context left right := by
  unfold family
  split
  · next hpreferred => exact h.governs_unvalued hregistry hjoinable hpreferred
  · next value hpreferred =>
    exact h.governs_valued hregistry hjoinable hpreferred decide_eq_true_iff

end Pair

end Comparison

namespace Family

/-- Of two operands which can be compared for equality, one family governs the
comparators between them. It is the one of operands without values exactly when both texts
are symbols which have no value. -/
theorem existsUnique_governs {left right : Text} {position : Nat} {context : Context}
    {comparison : Comparison} (hleft : left.IsOperand) (hright : right.IsOperand)
    (h : Comparison.parse (Comparison.written left Operation.equal.token right) position .builtin
      context = .ok comparison) :
    (∃! family : Family, family.Governs .builtin context left right) ∧
      (unvalued.Governs .builtin context left right ↔
        ∃ first second : Symbol, comparison.left = .symbol first ∧
          comparison.right = .symbol second ∧ first.lookup context = .ok none ∧
            second.lookup context = .ok none) := by
  have hregistry := Registry.builtin_settled
  have hjoinable := Comparison.Joinable.of_solid hleft.solid hright.solid
  obtain ⟨pair, hpair, rfl, -, -⟩ :=
    Comparison.Pair.exists_selected_of_parse hregistry hjoinable (by decide) h
  have hgoverns := hpair.governs_family hregistry hjoinable
  refine ⟨⟨_, hgoverns, fun other hother => hother.unique hgoverns⟩, ?_⟩
  have hleftOwn := (hpair.left.writtenAs hregistry).1.own
  have hrightOwn := (hpair.right.writtenAs hregistry).1.own
  calc unvalued.Governs .builtin context left right
    _ ↔ pair.family context.collation = .unvalued :=
      ⟨fun hunvalued => hgoverns.unique hunvalued, fun hfamily => hfamily ▸ hgoverns⟩
    _ ↔ pair.leftValue = none ∧ pair.rightValue = none := Comparison.Pair.family_eq_unvalued_iff
    _ ↔ pair.left.value? context = .ok none ∧ pair.right.value? context = .ok none := by
      rw [hpair.leftValue, hpair.rightValue, Except.ok.injEq, Except.ok.injEq]
    _ ↔ _ := by
      rw [Operand.value?_eq_ok_none_iff hleftOwn, Operand.value?_eq_ok_none_iff hrightOwn]
      constructor
      · rintro ⟨⟨first, hfirst, hmissing⟩, second, hsecond, hother⟩
        exact ⟨first, second, hfirst, hsecond, hmissing, hother⟩
      · rintro ⟨first, second, hfirst, hsecond, hmissing, hother⟩
        exact ⟨⟨first, hfirst, hmissing⟩, second, hsecond, hother⟩

/-- Two switches, two numbers, two lists, and two symbols in the context of a script to which none
is given. -/
theorem each_governs :
    let governs (family : Family) (left right : Text) : Prop :=
      family.Governs .builtin .default left right ∧
        ∃! other : Family, other.Governs .builtin .default left right
    let refuses (left token right : Text) (code : ErrorCode) : Prop :=
      ∃ error : Error, Comparison.parse (Comparison.written left token right) 0 .builtin .default =
        .error error ∧ error.code? = some code
    (governs equality "true".toList "false".toList ∧
        refuses "true".toList ['<'] "false".toList .invalidOperation) ∧
      (governs ordering ['1'] ['2'] ∧ refuses ['1'] ['!', '<'] ['2'] .invalidOperation) ∧
      governs containment "[1]".toList "[1, 2]".toList ∧
      governs unvalued ['a'] ['b'] ∧ refuses ['a'] ['<'] ['b'] .unrecognizedComparison := by
  intro governs refuses
  have hgoverns {family : Family} {left right : Text} (hleft : left.IsOperand)
      (hright : right.IsOperand)
      (hequal : (Comparison.parse (Comparison.written left Operation.equal.token right) 0 .builtin
        .default).isOk)
      (hfamily : ∀ other : Family, other.Governs .builtin .default left right → other = family) :
      governs family left right := by
    obtain ⟨comparison, hparse⟩ := Except.exists_of_isOk hequal
    obtain ⟨hunique, -⟩ := existsUnique_governs hleft hright hparse
    obtain ⟨other, hother⟩ := hunique.exists
    exact ⟨hfamily other hother ▸ hother, hunique⟩
  refine ⟨?_, ?_, ?_, ?_⟩
  · have hleft : Text.IsOperand "true".toList := ⟨by decide, .of_any (by decide +kernel)⟩
    have hright : Text.IsOperand "false".toList := ⟨by decide, .of_any (by decide +kernel)⟩
    have hrefuses : refuses "true".toList ['<'] "false".toList .invalidOperation :=
      ⟨_, by with_unfolding_all rfl, rfl⟩
    refine ⟨hgoverns hleft hright (by decide +kernel) fun other hother => ?_, hrefuses⟩
    obtain ⟨error, hparse, hcode⟩ := hrefuses
    have hrefusal := hother.refusal_of_parse (by decide) hparse
    rw [hcode] at hrefusal
    revert hrefusal
    cases other <;> decide
  · have hleft : Text.IsOperand ['1'] := ⟨by decide, .of_any (by decide +kernel)⟩
    have hright : Text.IsOperand ['2'] := ⟨by decide, .of_any (by decide +kernel)⟩
    have hordering : governs ordering ['1'] ['2'] := by
      refine hgoverns hleft hright (by decide +kernel) fun other hother => ?_
      have hmem : Operation.lessThan ∈ other.operations :=
        hother.mem_of_parse (by decide : Operation.lessThan ≠ .undecided) (by decide +kernel)
      revert hmem
      cases other <;> decide
    exact ⟨hordering, hordering.1.refuses (by decide) (by decide) 0⟩
  · have hleft : Text.IsOperand "[1]".toList := ⟨by decide, .of_any (by decide +kernel)⟩
    have hright : Text.IsOperand "[1, 2]".toList := ⟨by decide, .of_any (by decide +kernel)⟩
    refine hgoverns hleft hright (by decide +kernel) fun other hother => ?_
    have hmem : Operation.contained ∈ other.operations :=
      hother.mem_of_parse (by decide : Operation.contained ≠ .undecided) (by decide +kernel)
    revert hmem
    cases other <;> decide
  · have hleft : Text.IsOperand ['a'] := ⟨by decide, .of_any (by decide +kernel)⟩
    have hright : Text.IsOperand ['b'] := ⟨by decide, .of_any (by decide +kernel)⟩
    let first : Symbol := { source := ['a'], key := ['a'], indexers := [] }
    let second : Symbol := { source := ['b'], key := ['b'], indexers := [] }
    have hparse : Comparison.parse (Comparison.written ['a'] Operation.equal.token ['b']) 0
        .builtin .default = .ok
          { text := "a == b".toList, operation := .equal, left := .symbol first,
            right := .symbol second } := by
      with_unfolding_all rfl
    obtain ⟨hunique, hunvalued⟩ := existsUnique_governs hleft hright hparse
    have hgoverns := hunvalued.mpr ⟨first, second, rfl, rfl, rfl, rfl⟩
    exact ⟨⟨hgoverns, hunique⟩, hgoverns.refuses (by decide) (by decide) 0⟩

end Family

end Criteria
