import Criteria.Proofs.Comparison.Agreement
import Criteria.Proofs.Matching

/-!
More definitions in a context. A context which gives all the values that another one
gives, and perhaps more, settles a script in the same way: whatever the other one was
asked for it had, or the script failed because of a key that was not defined.
-/

namespace Criteria

/-- The context has the values of the smaller one, and compares texts as it does. -/
structure Context.Extends (larger smaller : Context) : Prop where
  collation_eq : larger.collation = smaller.collation
  find?_eq (key : Text) (value : Scalar) (h : smaller.find? key = some value) :
    larger.find? key = some value

/-- A key is not defined. -/
def Error.IsUnresolved (error : Error) : Prop :=
  error.code? = some .unresolvedSymbol

variable {smaller larger : Context}

namespace Context

/-- A key that the smaller context defines is found in both, and any other one is an
error in the smaller context. -/
theorem Extends.shares (h : larger.Extends smaller) (hclosed : smaller.Closed)
    (hstrict : smaller.isDefault = false) : smaller.Shares Error.IsUnresolved larger := by
  intro symbol
  cases hlookup : symbol.lookup smaller with
  | error error =>
      obtain ⟨hresolve, -⟩ := Symbol.resolve_of_lookup hlookup
      obtain rfl := hclosed.eq_of_resolve hresolve
      exact .inl ⟨_, rfl, rfl⟩
  | ok found =>
      apply Except.AgreesUnless.of_eq
      rw [← hlookup]
      cases hfind : smaller.find? symbol.key with
      | none =>
          -- Only the default context goes on without a value, which `larger` may have.
          rw [Symbol.lookup, hclosed.resolve_of_find?_none hfind] at hlookup
          simp [hstrict] at hlookup
      | some value =>
          rw [Symbol.lookup, Symbol.lookup, resolve_of_find? hfind,
            resolve_of_find? (h.find?_eq _ _ hfind)]

end Context

variable {excused : Error → Prop}

theorem Comparison.isMatch_agrees {comparison : Comparison}
    (hleft : comparison.left.isForeign = false) (hright : comparison.right.isForeign = false)
    (h : smaller.Shares excused larger) (hcollation : larger.collation = smaller.collation) :
    (comparison.isMatch smaller).AgreesUnless excused (comparison.isMatch larger) := by
  unfold isMatch
  rw [hcollation]
  exact (Operand.resolve_agrees hleft h).bind fun _ _ =>
    (Operand.resolve_agrees hright h).bind fun _ _ => .refl _

theorem Criterion.Grounded.isMatch_agrees {criterion : Criterion} {context : Context}
    (hgrounded : criterion.Grounded context) (h : smaller.Shares excused larger)
    (hcollation : larger.collation = smaller.collation) :
    (criterion.isMatch smaller).AgreesUnless excused (criterion.isMatch larger) := by
  induction criterion with
  | comparison c =>
      obtain ⟨_, _, hleaf⟩ := hgrounded c (by simp [leaves])
      exact Comparison.isMatch_agrees hleaf.leftOwn hleaf.rightOwn h hcollation
  | logic left connective right ihl ihr =>
      obtain ⟨hleft, hright⟩ := List.forall_mem_append.mp hgrounded
      -- After the same answer on the left both runs ask the right part, or neither does.
      apply (ihl hleft).bind
      intro holds _
      split
      · exact .refl _
      · exact ihr hright

namespace Script

/-- Parsing and matching is building a criterion and matching that. -/
theorem run_eq (registry : Registry) (text : Text) (context : Context) :
    run registry text (some context) =
      ((parse registry text (some context)).map criterion) >>= fun criterion =>
        criterion.isMatch context := by
  unfold run
  cases hparse : parse registry text (some context) with
  | error error => rfl
  | ok script =>
      obtain ⟨-, _, _, -, -, rfl⟩ := parse_eq_ok_iff.mp hparse
      rfl

theorem run_agrees {registry : Registry} {shape : Text → Prop}
    (hregistry : registry.Settled shape) (h : smaller.Shares excused larger)
    (hcollation : larger.collation = smaller.collation) (text : Text) :
    (run registry text (some smaller)).AgreesUnless excused
      (run registry text (some larger)) := by
  rw [run_eq, run_eq]
  apply (criterion_agrees hregistry h text).bind
  intro criterion hcriterion
  obtain ⟨script, hparse, rfl⟩ := Except.map_eq_ok_iff.mp hcriterion
  exact (grounded_of_parse hregistry hparse).1.isMatch_agrees h hcollation

/-- What is settled in a context in which every symbol must be defined stays settled when
more is defined: the same criterion or the same error is found, and the same answer or
the same error, unless a key was missing. -/
theorem run_of_extends {registry : Registry} (hregistry : registry ⊆ .full)
    (hclosed : smaller.Closed) (hstrict : smaller.isDefault = false)
    (hextends : larger.Extends smaller) {text : Text}
    (hrun : ∀ error, run registry text (some smaller) = .error error →
      error.code? ≠ some .unresolvedSymbol) :
    (parse registry text (some larger)).map criterion =
        (parse registry text (some smaller)).map criterion ∧
      run registry text (some larger) = run registry text (some smaller) := by
  have hsettled := Registry.settled_of_subset hregistry
  have hshares := hextends.shares hclosed hstrict
  constructor
  · apply (criterion_agrees hsettled hshares text).eq_of_forall
    intro error hparse
    apply hrun
    rw [run_eq, hparse, Except.error_bind]
  · exact (run_agrees hsettled hshares hextends.collation_eq text).eq_of_forall hrun

/-- The ordering which is not allowed stays the error when the key behind it gets a
value, and the script without that key keeps its answer. -/
theorem run_of_extends_level :
    let registry := Registry.builtin.registerFront .length
    let smaller : Context :=
      { values := [("level".toList, .number (.ofNat 3)), ("word".toList, .text ['a', 'b'])] }
    let larger := smaller.insert "tags".toList (.list [.text ['a']])
    let answered := "!(level >= 3) || #word < 5".toList
    let refused := "level < true || tags > \"a\"".toList
    run registry answered (some larger) = .ok true ∧
      run registry refused (some larger) =
        .error (.script (.invalidOperation .lessThan "level < true".toList)) := by
  intro registry smaller larger answered refused
  have hregistry : registry ⊆ .full := by
    simp [registry, Registry.registerFront, Registry.full, Registry.builtin]
  have hextends : larger.Extends smaller := by
    refine ⟨rfl, fun key value h => ?_⟩
    rw [Context.find?_insert]
    split
    · next hkey =>
      rw [← hkey] at h
      cases h
    · exact h
  have hanswered : run registry answered (some smaller) = .ok true := by decide +kernel
  have hrefused : run registry refused (some smaller) =
      .error (.script (.invalidOperation .lessThan "level < true".toList)) := by
    decide +kernel
  have hsame := (run_of_extends hregistry (fun _ => rfl) rfl hextends fun error hrun => by
    rw [hanswered] at hrun
    cases hrun).2
  have hstays := (run_of_extends hregistry (fun _ => rfl) rfl hextends fun error hrun => by
    rw [hrefused] at hrun
    cases hrun
    decide).2
  exact ⟨hsame.trans hanswered, hstays.trans hrefused⟩

end Script

end Criteria
