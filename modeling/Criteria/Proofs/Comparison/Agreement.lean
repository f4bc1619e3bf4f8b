import Criteria.Proofs.Layout.Accepting
import Criteria.Proofs.Operand.Recognition
import Criteria.Proofs.Comparison.Acceptance

/-!
Scripts parsed in two contexts. A context has a part in parsing only as it gives the
symbols their values. So if it gives the same values, or fails in a way that is excused,
then the same criterion is built, or the same error is found, or an excused one. How
texts are compared has no part in it: it decides the order of two values, but not
whether they have one.
-/

namespace Criteria

/-- Whether two values have an order does not depend on how texts are compared. -/
theorem Scalar.isSome_compare (one other : Collation) (left right : Scalar) :
    (left.compare one right).isSome = (left.compare other right).isSome := by
  cases left <;> cases right <;> rfl

/-- The second context gives every symbol the value that the first one gives it, unless
the first one fails in an excused way. -/
def Context.Shares (excused : Error → Prop) (one other : Context) : Prop :=
  ∀ symbol : Symbol, (symbol.lookup one).AgreesUnless excused (symbol.lookup other)

variable {excused : Error → Prop} {one other : Context} {shape : Text → Prop}
  {left token right text : Text}

namespace Operand

variable {operand : Operand}

theorem value?_agrees (hown : operand.isForeign = false) (h : one.Shares excused other) :
    (operand.value? one).AgreesUnless excused (operand.value? other) := by
  cases operand with
  | literal source value => exact .refl _
  | symbol s => exact h s
  | foreign operand => cases hown

theorem allows_agrees (hown : operand.isForeign = false) (h : one.Shares excused other)
    (op : Operation) :
    (operand.allows op one).AgreesUnless excused (operand.allows op other) := by
  rw [allows_eq hown, allows_eq hown]
  exact (value?_agrees hown h).map _

theorem resolve_agrees (hown : operand.isForeign = false) (h : one.Shares excused other) :
    (operand.resolve one).AgreesUnless excused (operand.resolve other) := by
  rw [resolve_eq hown, resolve_eq hown]
  exact (value?_agrees hown h).map _

end Operand

namespace OperandParser

variable {parser : OperandParser}

theorem Settles.readLeft_agrees (hsettles : parser.Settles shape text)
    (h : one.Shares excused other) :
    (parser.readLeft text token one).AgreesUnless excused (parser.readLeft text token other) := by
  cases hsettles with
  | passes hpass =>
      rw [hpass.left, hpass.left]
      exact .refl _
  | refuses error hrefuse =>
      rw [hrefuse.left, hrefuse.left]
      exact .refl _
  | recognizes operand hrecognizes hwritten _ =>
      rw [hrecognizes.left, hrecognizes.left]
      exact ((Operand.value?_agrees hwritten.own h).map _).map _

theorem Settles.readRight_agrees (hsettles : parser.Settles shape text)
    (h : one.Shares excused other) :
    (parser.readRight text token .undecided one).AgreesUnless excused
      (parser.readRight text token .undecided other) := by
  cases hsettles with
  | passes hpass =>
      rw [hpass.right, hpass.right]
      exact .refl _
  | refuses error hrefuse =>
      rw [hrefuse.right, hrefuse.right]
      exact .refl _
  | recognizes operand hrecognizes hwritten _ =>
      rw [hrecognizes.right, hrecognizes.right]
      exact ((Operand.value?_agrees hwritten.own h).map _).map _

end OperandParser

namespace Comparison

namespace Search

variable {search : Search} {parser : OperandParser}

theorem tryLeft_agrees (hsettles : parser.Settles shape left) (h : one.Shares excused other) :
    (search.tryLeft parser left token one).AgreesUnless excused
      (search.tryLeft parser left token other) := by
  unfold tryLeft
  split
  · exact .refl _
  · exact (hsettles.readLeft_agrees h).map _

/-- When the operation is known a right operand is found without its value. -/
theorem tryRight_of_known (hsettles : parser.Settles shape right)
    (hknown : search.operation ≠ .undecided) :
    search.tryRight parser right token other = search.tryRight parser right token one := by
  unfold tryRight
  split
  · rfl
  · cases hsettles with
    | passes hpass => rw [hpass.right, hpass.right]
    | refuses error hrefuse => rw [hrefuse.right, hrefuse.right]
    | recognizes operand hrecognizes _ _ =>
        obtain ⟨first, hfirst⟩ := hrecognizes.known token one hknown
        obtain ⟨second, hsecond⟩ := hrecognizes.known token other hknown
        rw [hfirst, hsecond]
        simp only [Except.ok_map, settle, if_neg hknown]

theorem tryRight_agrees (hsettles : parser.Settles shape right) (h : one.Shares excused other) :
    (search.tryRight parser right token one).AgreesUnless excused
      (search.tryRight parser right token other) := by
  -- The value of the right operand has a part only while the operation is open.
  by_cases hknown : search.operation = .undecided
  · unfold tryRight
    rw [hknown]
    split
    · exact .refl _
    · exact (hsettles.readRight_agrees h).map _
  · exact .of_eq (tryRight_of_known hsettles hknown)

theorem run_agrees {registry : Registry} (hregistry : registry.Settled shape)
    (h : one.Shares excused other) :
    (run left token right one registry search).AgreesUnless excused
      (run left token right other registry search) := by
  induction registry generalizing search with
  | nil => exact .refl _
  | cons parser rest ih =>
      have hparser (text : Text) := hregistry parser List.mem_cons_self text
      apply (tryLeft_agrees (hparser left) h).bind
      intro asked _
      apply (tryRight_agrees (hparser right) h).bind
      intro answered _
      split
      · exact .refl _
      · exact ih hregistry.tail

end Search

variable {registry : Registry} {resolved : Resolved}

theorem resolve_agrees (hregistry : registry.Settled shape) (h : one.Shares excused other) :
    (resolve left token right registry one).AgreesUnless excused
      (resolve left token right registry other) :=
  (Search.run_agrees hregistry h).bind fun _ _ => .refl _

theorem own_of_resolve (hregistry : registry.Settled shape)
    (h : resolve left token right registry one = .ok resolved) :
    resolved.left.isForeign = false ∧ resolved.right.isForeign = false := by
  obtain ⟨search, hrun, hleft, hright, -⟩ := resolve_eq_ok_iff.mp h
  obtain ⟨_, hfirst⟩ := Registry.exists_selects_left hregistry hrun rfl hleft
  obtain ⟨_, hsecond⟩ := Registry.exists_selects_right hregistry hrun rfl hright
  exact ⟨(hfirst.writtenAs hregistry).1.own, (hsecond.writtenAs hregistry).1.own⟩

theorem Resolved.isOrderable_agrees (hleft : resolved.left.isForeign = false)
    (hright : resolved.right.isForeign = false) (h : one.Shares excused other) :
    (resolved.isOrderable one).AgreesUnless excused (resolved.isOrderable other) := by
  unfold isOrderable
  split
  · apply (Operand.resolve_agrees hleft h).bind
    intro first _
    apply (Operand.resolve_agrees hright h).bind
    intro second _
    rw [Scalar.isSome_compare one.collation other.collation]
    exact .refl _
  · exact .refl _

theorem Resolved.isValid_agrees (hleft : resolved.left.isForeign = false)
    (hright : resolved.right.isForeign = false) (h : one.Shares excused other) :
    (resolved.isValid one).AgreesUnless excused (resolved.isValid other) := by
  apply (Operand.allows_agrees hleft h _).bind
  intro allowsLeft _
  split
  · apply (Operand.allows_agrees hright h _).bind
    intro allowsRight _
    split
    · exact isOrderable_agrees hleft hright h
    · exact .refl _
  · exact .refl _

theorem parse_agrees (hregistry : registry.Settled shape) (h : one.Shares excused other)
    (position : Nat) :
    (parse text position registry one).AgreesUnless excused
      (parse text position registry other) := by
  unfold parse
  split
  · exact .refl _
  · apply (resolve_agrees hregistry h).bind
    intro resolved hresolved
    obtain ⟨hleft, hright⟩ := own_of_resolve hregistry hresolved
    exact (resolved.isValid_agrees hleft hright h).bind fun _ _ => .refl _

end Comparison

theorem Clause.build_agrees {registry : Registry} (hregistry : registry.Settled shape)
    (h : one.Shares excused other) (clause : Clause) :
    (clause.build registry one).AgreesUnless excused (clause.build registry other) := by
  induction clause with
  | comparison text position =>
      exact (Comparison.parse_agrees hregistry h position).bind fun _ _ => .refl _
  | group negated inner ih => exact ih.bind fun _ _ => .refl _
  | logic left connective right ihl ihr =>
      exact ihl.bind fun _ _ => ihr.bind fun _ _ => .refl _

namespace Script

/-- The criterion of a script is built from its clauses. -/
theorem map_criterion_parse (registry : Registry) (text : Text) (given : Option Context) :
    (parse registry text given).map criterion =
      if Text.trim text = [] then .error (.script .emptyScript)
      else Clause.parse text >>= fun clause => clause.build registry (given.getD .default) := by
  rw [parse_eq]
  split
  · rfl
  · cases Clause.parse text with
    | error error => rfl
    | ok clause =>
        rw [Except.ok_bind, Except.ok_bind]
        cases clause.build registry (given.getD .default) <;> rfl

/-- The same criterion is found for a script in both contexts, or the same error. -/
theorem criterion_agrees {registry : Registry} (hregistry : registry.Settled shape)
    (h : one.Shares excused other) (text : Text) :
    ((parse registry text (some one)).map criterion).AgreesUnless excused
      ((parse registry text (some other)).map criterion) := by
  rw [map_criterion_parse, map_criterion_parse]
  split
  · exact .refl _
  · exact Except.AgreesUnless.bind (.refl _) fun clause _ => clause.build_agrees hregistry h

end Script

end Criteria
