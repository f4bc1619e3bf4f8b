import Criteria.Proofs.Extension

/-!
Scripts in a context where every symbol must have a value. The keys which are asked for while a
script is accepted are those of its criterion, so what the context says of other keys has no
part in it. When the excuse of the default context is taken away, an accepted script without
undefined keys stays what it was, and one with such keys fails with an error that names one of
them.
-/

namespace Criteria

/-- The context with the same values, in which a symbol without a value is an error. -/
def Context.strict (context : Context) : Context :=
  { context with isDefault := false }

variable {registry : Registry} {shape : Text → Prop} {context other : Context} {text : Text}
  {position : Nat}

/-! The values of the operands are all that a context has to say -/

theorem Operation.Fits.of_collation {op : Operation} {first second : Option Scalar}
    {collation : Collation} (h : op.Fits collation first second) (another : Collation) :
    op.Fits another first second := by
  refine ⟨h.allowsLeft, h.allowsRight, fun hordering => ?_⟩
  rw [Scalar.isSome_compare another collation]
  exact h.ordered hordering

theorem Comparison.parse_of_value?_eq (hregistry : registry.Settled shape) {comparison : Comparison}
    (h : parse text position registry context = .ok comparison)
    (hleft : comparison.left.value? other = comparison.left.value? context)
    (hright : comparison.right.value? other = comparison.right.value? context) :
    parse text position registry other = .ok comparison := by
  obtain ⟨token, i, j, first, second, hsplit, hreads, hop⟩ := reads_of_parse hregistry h
  have hother : comparison.Reads registry other i j first second :=
    ⟨hreads.left, hreads.right, hleft.trans hreads.leftValue, hright.trans hreads.rightValue,
      hreads.decided, hreads.fits.of_collation other.collation⟩
  exact (hother.parse_eq_ok_iff hregistry hsplit (text_of_parse h).symm).mpr hop

theorem Criterion.operands_invert (criterion : Criterion) :
    criterion.invert.operands = criterion.operands := by
  rw [operands, operands, leaves_invert, List.flatMap_map]
  rfl

/-- A context which gives the operands of a criterion the same values accepts its clause too. -/
theorem Clause.build_of_value?_eq (hregistry : registry.Settled shape) {clause : Clause}
    {criterion : Criterion} (h : clause.build registry context = .ok criterion)
    (hvalues : ∀ operand ∈ criterion.operands, operand.value? other = operand.value? context) :
    clause.build registry other = .ok criterion := by
  induction clause generalizing criterion with
  | comparison text position =>
      obtain ⟨leaf, hleaf, rfl⟩ := build_comparison_eq_ok_iff.mp h
      have hother := Comparison.parse_of_value?_eq hregistry hleaf
        (hvalues leaf.left (by simp [Criterion.operands, Criterion.leaves]))
        (hvalues leaf.right (by simp [Criterion.operands, Criterion.leaves]))
      exact build_comparison_eq_ok_iff.mpr ⟨leaf, hother, rfl⟩
  | group negated inner ih =>
      obtain ⟨core, hcore, rfl⟩ := build_group_eq_ok_iff.mp h
      refine build_group_eq_ok_iff.mpr ⟨core, ih hcore ?_, rfl⟩
      cases negated with
      | false => exact hvalues
      | true => exact core.operands_invert ▸ hvalues
  | logic left connective right ihl ihr =>
      obtain ⟨first, second, hfirst, hsecond, rfl⟩ := build_logic_eq_ok_iff.mp h
      rw [Criterion.operands_logic] at hvalues
      obtain ⟨hleft, hright⟩ := List.forall_mem_append.mp hvalues
      exact build_logic_eq_ok_iff.mpr ⟨first, second, ihl hfirst hleft, ihr hsecond hright, rfl⟩

/-! Other keys are not asked for -/

/-- The failure of a context that is limited to some keys, when it is asked for another one. -/
def Error.beyond : Error :=
  .script .emptyScript

/-- Only for these keys does the context look outside its table. -/
def Context.limitedTo (context : Context) (keys : List Text) : Context :=
  { context with
    elsewhere := fun key => if key ∈ keys then context.elsewhere key else .error .beyond }

namespace Context

variable {keys : List Text} {symbol : Symbol}

theorem lookup_of_find? {value : Scalar} (h : context.find? symbol.key = some value)
    (hother : other.find? symbol.key = some value) :
    symbol.lookup other = symbol.lookup context := by
  rw [Symbol.lookup, Symbol.lookup, resolve_of_find? h, resolve_of_find? hother]

theorem lookup_limitedTo (h : symbol.key ∈ keys) :
    symbol.lookup (context.limitedTo keys) = symbol.lookup context := by
  have hresolve : (context.limitedTo keys).resolve symbol.key = context.resolve symbol.key := by
    simp only [resolve, limitedTo, find?, if_pos h]
  rw [Symbol.lookup, Symbol.lookup, hresolve]
  rfl

theorem lookup_limitedTo_of_not_mem (hfind : context.find? symbol.key = none)
    (h : symbol.key ∉ keys) : symbol.lookup (context.limitedTo keys) = .error .beyond := by
  have hresolve : (context.limitedTo keys).resolve symbol.key = .error .beyond := by
    rw [resolve, show (context.limitedTo keys).find? symbol.key = none from hfind]
    exact if_neg h
  rw [Symbol.lookup, hresolve]
  simp [Error.beyond, Error.code?, ScriptFault.code]

theorem limitedTo_shares (context : Context) (keys : List Text) :
    (context.limitedTo keys).Shares (· = .beyond) context := by
  intro symbol
  by_cases hkeys : symbol.key ∈ keys
  · exact .of_eq (lookup_limitedTo hkeys).symm
  · cases hfind : context.find? symbol.key with
    | some value => exact .of_eq (lookup_of_find? hfind hfind)
    | none => exact .inl ⟨_, lookup_limitedTo_of_not_mem hfind hkeys, rfl⟩

/-- Nothing but the table says which keys are defined. -/
theorem Closed.not_defines_of_find? (hclosed : context.Closed) {key : Text}
    (h : context.find? key = none) : ¬context.Defines key :=
  not_defines_of_resolve (hclosed.resolve_of_find?_none h)

/-- What is not in the table of a strict context is an error. -/
theorem Closed.lookup_strict (hclosed : context.Closed) (h : context.find? symbol.key = none) :
    symbol.lookup context.strict = .error (.script (.unresolvedSymbol symbol.key)) := by
  have hresolve : context.strict.resolve symbol.key =
      .error (.script (.unresolvedSymbol symbol.key)) :=
    hclosed.resolve_of_find?_none h
  rw [Symbol.lookup, hresolve]
  simp [strict]

theorem Closed.strict_shares (hclosed : context.Closed) :
    context.strict.Shares (fun error => ∃ key, error = .script (.unresolvedSymbol key))
      context := by
  intro symbol
  cases hfind : context.find? symbol.key with
  | some value => exact .of_eq (lookup_of_find? hfind hfind)
  | none => exact .inl ⟨_, hclosed.lookup_strict hfind, symbol.key, rfl⟩

/-- Limited to some keys a strict context excuses nothing else than that one of these keys is
not defined. -/
theorem Closed.strict_limitedTo_shares (hclosed : context.Closed) (keys : List Text) :
    (context.strict.limitedTo keys).Shares
      (fun error => ∃ key ∈ keys, ¬context.Defines key ∧ error = .script (.unresolvedSymbol key))
      (context.limitedTo keys) := by
  intro symbol
  cases hfind : context.find? symbol.key with
  | some value => exact .of_eq (lookup_of_find? hfind hfind)
  | none =>
      by_cases hkeys : symbol.key ∈ keys
      · refine .inl ⟨_, ?_, symbol.key, hkeys, hclosed.not_defines_of_find? hfind, rfl⟩
        rw [lookup_limitedTo hkeys]
        exact hclosed.lookup_strict hfind
      · have hstrict : symbol.lookup (context.strict.limitedTo keys) = .error .beyond :=
          lookup_limitedTo_of_not_mem hfind hkeys
        exact .of_eq ((lookup_limitedTo_of_not_mem hfind hkeys).trans hstrict.symm)

end Context

namespace Criterion

variable {criterion : Criterion}

/-- A context which is limited to the keys of a criterion gives its operands their values. -/
theorem Grounded.value?_limitedTo (h : criterion.Grounded context) :
    ∀ operand ∈ criterion.operands,
      operand.value? (context.limitedTo criterion.keys) = operand.value? context := by
  intro operand hmem
  cases operand with
  | literal source value => rfl
  | symbol s =>
      exact Context.lookup_limitedTo (List.mem_filterMap.mpr ⟨.symbol s, hmem, rfl⟩)
  | foreign operand => cases (h.resolve _ hmem).1

/-- A strict context in which a criterion is grounded defines all its keys. -/
theorem Grounded.defines (h : criterion.Grounded context.strict) :
    ∀ key ∈ criterion.keys, context.Defines key := by
  intro key hkey
  obtain ⟨operand, hmem, hoperand⟩ := List.mem_filterMap.mp hkey
  obtain ⟨-, value, hvalue⟩ := h.resolve operand hmem
  cases operand with
  | literal source value => cases hoperand
  | symbol s =>
      obtain rfl := Option.some.inj hoperand
      cases hresolve : context.resolve s.key with
      | ok found => exact ⟨found, hresolve⟩
      | error error =>
          have hstrict : context.strict.resolve s.key = .error error := hresolve
          rw [Operand.resolve, Symbol.lookup, hstrict] at hvalue
          simp [Context.strict] at hvalue
  | foreign operand => cases hoperand

end Criterion

/-- A clause which a context accepts is accepted in the same way when the context is strict, and
all its keys are defined, or it is refused because one of them is not. -/
theorem Clause.build_strict (hregistry : registry.Settled shape) (hclosed : context.Closed)
    {clause : Clause} {criterion : Criterion} (h : clause.build registry context = .ok criterion) :
    clause.build registry context.strict = .ok criterion ∧
        (∀ key ∈ criterion.keys, context.Defines key) ∨
      ∃ key ∈ criterion.keys, ¬context.Defines key ∧
        clause.build registry context.strict = .error (.script (.unresolvedSymbol key)) := by
  have hlimited : clause.build registry (context.limitedTo criterion.keys) = .ok criterion :=
    build_of_value?_eq hregistry h (grounded_of_build hregistry h).value?_limitedTo
  have hstrict := build_agrees hregistry (hclosed.strict_limitedTo_shares criterion.keys) clause
  have hsame := build_agrees hregistry (context.strict.limitedTo_shares criterion.keys) clause
  rcases hstrict with ⟨_, herror, key, hkey, hdefined, rfl⟩ | hequal
  · refine .inr ⟨key, hkey, hdefined, ?_⟩
    rw [← herror]
    apply hsame.eq_of_forall
    rintro _ hbeyond rfl
    rw [herror] at hbeyond
    cases hbeyond
  · have hbuild : clause.build registry context.strict = .ok criterion :=
      hsame.eq_of_ok (hequal.symm.trans hlimited)
    exact .inl ⟨hbuild, (grounded_of_build hregistry hbuild).defines⟩

/-- The same holds of scripts, and one that is refused stays refused, with the same error or
because a key is not defined. -/
theorem Script.criterion_strict (hregistry : registry.Settled shape) (hclosed : context.Closed)
    (text : Text) :
    (∀ found, (parse registry text (some context)).map criterion = .ok found →
      (parse registry text (some context.strict)).map criterion = .ok found ∧
          (∀ key ∈ found.keys, context.Defines key) ∨
        ∃ key ∈ found.keys, ¬context.Defines key ∧
          (parse registry text (some context.strict)).map criterion =
            .error (.script (.unresolvedSymbol key))) ∧
    ∀ error, (parse registry text (some context)).map criterion = .error error →
      (parse registry text (some context.strict)).map criterion = .error error ∨
        ∃ key, (parse registry text (some context.strict)).map criterion =
          .error (.script (.unresolvedSymbol key)) := by
  constructor
  · intro found h
    rw [map_criterion_parse] at h ⊢
    split at h
    · cases h
    · next hfull =>
      obtain ⟨clause, hclause, hbuild⟩ := Except.bind_eq_ok_iff.mp h
      rw [if_neg hfull, hclause, Except.ok_bind]
      exact Clause.build_strict hregistry hclosed hbuild
  · intro error h
    rcases criterion_agrees hregistry hclosed.strict_shares text with ⟨_, herror, key, rfl⟩ | hequal
    · exact .inr ⟨key, herror⟩
    · exact .inl (hequal ▸ h)

end Criteria
