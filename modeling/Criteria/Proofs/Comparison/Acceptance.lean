import Criteria.Proofs.Comparison.Reading
import Criteria.Proofs.Operand.Recognition

/-!
Which comparisons are accepted. When the texts alone decide what the operands are, the
rest is a matter of the two values: which of them says what the comparator means, and
whether both can take part in what it means.
-/

namespace Criteria

namespace Scalar

/-- The values to which a comparator has a containment meaning. -/
def isContainer : Scalar → Bool
  | text _ | list _ => true
  | _ => false

end Scalar

namespace Operation

/-- The meaning of a comparator to a value, or to an operand without one. -/
def meaning (value : Option Scalar) (token : Text) : Operation :=
  (OperandParser.inferFrom value token).getD .undecided

/-- The meaning of a comparator to all values of a kind. -/
def familyMeaning (container : Bool) (token : Text) : Operation :=
  ((if container then ofContainmentToken? token else ofOrderingToken? token)).getD .undecided

theorem meaning_some (value : Scalar) (token : Text) :
    meaning (some value) token = familyMeaning value.isContainer token := by
  cases value <;> rfl

theorem familyMeaning_ne_undecided {container : Bool} {token : Text} (h : token ∈ comparators) :
    familyMeaning container token ≠ .undecided := by
  revert h token container
  decide

/-- What a comparator means is written with it again. -/
theorem token_meaning {value : Option Scalar} {token : Text} (h : token ∈ comparators)
    (hdecided : meaning value token ≠ .undecided) : (meaning value token).token = token := by
  cases value with
  | none =>
      revert h token
      decide
  | some value =>
      rw [meaning_some] at hdecided ⊢
      generalize value.isContainer = container at hdecided ⊢
      revert container h token
      decide

/-- A comparator which has a meaning without values has this meaning to all values. -/
theorem meaning_none_orElse {container : Bool} {token : Text} (h : token ∈ comparators) :
    (meaning none token).orElse (familyMeaning container token) =
      familyMeaning container token := by
  revert h token container
  decide

/-- Of two operands the first one with a value gives a comparator its meaning. -/
theorem meaning_orElse (first second : Option Scalar) {token : Text} (h : token ∈ comparators) :
    (meaning first token).orElse (meaning second token) = meaning (first.or second) token := by
  cases first with
  | none =>
      rw [Option.none_or]
      cases second with
      | none =>
          unfold orElse
          split <;> rfl
      | some value => rw [meaning_some, meaning_none_orElse h]
  | some value =>
      rw [Option.some_or, meaning_some]
      exact orElse_of_ne (familyMeaning_ne_undecided h) _

/-- Whether an operand with this value can stand on the left of the operation. -/
def allowedBy (op : Operation) : Option Scalar → Bool
  | some value => value.supports op
  | none => op != .undecided

/-- Both operands can take part in the operation, by their values: the right one sees
it mirrored, and values between which an ordering is asked have one. -/
structure Fits (collation : Collation) (op : Operation) (left right : Option Scalar) : Prop where
  allowsLeft : op.allowedBy left = true
  allowsRight : op.mirror.allowedBy right = true
  ordered : op.isOrdering = true →
    (left.getD .null).isNull || (right.getD .null).isNull ||
      ((left.getD .null).compare collation (right.getD .null)).isSome

instance (collation : Collation) (op : Operation) (left right : Option Scalar) :
    Decidable (op.Fits collation left right) :=
  decidable_of_iff (op.allowedBy left = true ∧ op.mirror.allowedBy right = true ∧
      (op.isOrdering = true → (left.getD .null).isNull || (right.getD .null).isNull ||
        ((left.getD .null).compare collation (right.getD .null)).isSome))
    ⟨fun ⟨hleft, hright, hordered⟩ => ⟨hleft, hright, hordered⟩,
      fun ⟨hleft, hright, hordered⟩ => ⟨hleft, hright, hordered⟩⟩

end Operation

namespace Operand

variable {operand : Operand} {context : Context}

theorem allows_eq (hown : operand.isForeign = false) (op : Operation) :
    operand.allows op context = (operand.value? context).map op.allowedBy := by
  cases operand with
  | literal source value => rfl
  | symbol s =>
      simp only [allows, value?]
      cases s.lookup context with
      | error error => rfl
      | ok value => cases value <;> rfl
  | foreign operand => cases hown

theorem resolve_eq (hown : operand.isForeign = false) :
    operand.resolve context = (operand.value? context).map fun value => value.getD .null := by
  cases operand with
  | literal source value => rfl
  | symbol s => rfl
  | foreign operand => cases hown

end Operand

namespace Comparison

variable {left token right : Text} {context : Context} {registry : Registry}
  {shape : Text → Prop} {resolved : Resolved}

/-- When both operands have their values nothing can fail, and whether the operation is
valid is whether it fits the values. -/
theorem Resolved.isValid_eq {first second : Option Scalar} (hleft : resolved.left.isForeign = false)
    (hright : resolved.right.isForeign = false) (hfirst : resolved.left.value? context = .ok first)
    (hsecond : resolved.right.value? context = .ok second) :
    resolved.isValid context =
      .ok (decide (resolved.operation.Fits context.collation first second)) := by
  unfold isValid isOrderable
  rw [Operand.allows_eq hleft, Operand.allows_eq hright, Operand.resolve_eq hleft,
    Operand.resolve_eq hright, hfirst, hsecond]
  simp only [Except.ok_map, Except.ok_bind, Except.pure_eq_ok]
  by_cases hallowsLeft : resolved.operation.allowedBy first = true
  · by_cases hallowsRight : resolved.operation.mirror.allowedBy second = true
    · rw [if_pos hallowsLeft, if_pos hallowsRight]
      by_cases hordering : resolved.operation.isOrdering = true
      · rw [if_pos hordering, Except.ok.injEq, Bool.eq_iff_iff, decide_eq_true_iff]
        exact ⟨fun hordered => ⟨hallowsLeft, hallowsRight, fun _ => hordered⟩,
          fun hfits => hfits.ordered hordering⟩
      · rw [if_neg hordering,
          decide_eq_true ⟨hallowsLeft, hallowsRight, fun hasked => absurd hasked hordering⟩]
    · rw [if_pos hallowsLeft, if_neg hallowsRight,
        decide_eq_false fun hfits => hallowsRight hfits.allowsRight]
  · rw [if_neg hallowsLeft, decide_eq_false fun hfits => hallowsLeft hfits.allowsLeft]

theorem Resolved.isValid_eq_true_iff (hleft : resolved.left.isForeign = false)
    (hright : resolved.right.isForeign = false) :
    resolved.isValid context = .ok true ↔
      ∃ first second, resolved.left.value? context = .ok first ∧
        resolved.right.value? context = .ok second ∧
        resolved.operation.Fits context.collation first second := by
  cases hfirst : resolved.left.value? context with
  | error error =>
      unfold isValid
      rw [Operand.allows_eq hleft, hfirst]
      simp
  | ok first =>
      cases hsecond : resolved.right.value? context with
      | error error =>
          unfold isValid
          rw [Operand.allows_eq hleft, Operand.allows_eq hright, hfirst, hsecond]
          cases hallowed : resolved.operation.allowedBy first <;> simp [hallowed]
      | ok second =>
          rw [isValid_eq hleft hright hfirst hsecond]
          simp

/-- The value that gives the comparator its meaning: that of the operand whose parser
stands first, or of the other one if this has no value. -/
def preferred (i j : Nat) (first second : Option Scalar) : Option Scalar :=
  if i ≤ j then first.or second else second.or first

/-- A search in which both texts are selected finds their operands, and what the comparator
means to the preferred value. -/
theorem Search.run_of_selected {i j : Nat} {first second : Option Scalar} {a b : Operand}
    (htoken : token ∈ Operation.comparators) (ha : Registry.Selects left registry i a)
    (hb : Registry.Selects right registry j b) (hfirst : a.value? context = .ok first)
    (hsecond : b.value? context = .ok second) :
    Search.run left token right context registry {} = .ok {
      left := some a
      right := some b
      operation := Operation.meaning (preferred i j first second) token } := by
  rw [Search.run_of_selects (ha.selectsLeft hfirst token) (hb.selectsRight hsecond token)]
  unfold preferred
  split
  · rw [← Operation.meaning_orElse first second htoken]
    rfl
  · rw [← Operation.meaning_orElse second first htoken]
    rfl

/-- A comparison of two texts is accepted when both are recognized, the operands have
the values that the context gives them, and the comparator means an operation which
fits the values. -/
theorem accepts_iff (hregistry : registry.Settled shape) (htoken : token ∈ Operation.comparators) :
    resolve left token right registry context = .ok resolved ∧ resolved.isValid context = .ok true ↔
      ∃ i j first second, Registry.Selects left registry i resolved.left ∧
        Registry.Selects right registry j resolved.right ∧
        resolved.left.value? context = .ok first ∧ resolved.right.value? context = .ok second ∧
        resolved.operation = Operation.meaning (preferred i j first second) token ∧
        resolved.operation ≠ .undecided ∧
        resolved.operation.Fits context.collation first second := by
  rw [resolve_eq_ok_iff]
  constructor
  · rintro ⟨⟨search, hsearch, hleft, hright, hop, hdecided⟩, hvalid⟩
    obtain ⟨i, ha⟩ := Registry.exists_selects_left hregistry hsearch rfl hleft
    obtain ⟨j, hb⟩ := Registry.exists_selects_right hregistry hsearch rfl hright
    obtain ⟨first, second, hfirst, hsecond, hfits⟩ :=
      (Resolved.isValid_eq_true_iff (ha.writtenAs hregistry).1.own
        (hb.writtenAs hregistry).1.own).mp hvalid
    rw [Search.run_of_selected htoken ha hb hfirst hsecond] at hsearch
    obtain rfl := Except.ok.inj hsearch
    exact ⟨i, j, first, second, ha, hb, hfirst, hsecond, hop.symm, hdecided, hfits⟩
  · rintro ⟨i, j, first, second, ha, hb, hfirst, hsecond, hop, hdecided, hfits⟩
    refine ⟨⟨_, Search.run_of_selected htoken ha hb hfirst hsecond, rfl, rfl, hop.symm,
      hdecided⟩, ?_⟩
    exact (Resolved.isValid_eq_true_iff (ha.writtenAs hregistry).1.own
      (hb.writtenAs hregistry).1.own).mpr ⟨first, second, hfirst, hsecond, hfits⟩

end Comparison

end Criteria
