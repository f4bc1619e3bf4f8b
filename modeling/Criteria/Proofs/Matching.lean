import Criteria.Proofs.Comparison.Grounded

/-!
When a parsed script can be matched. Matching fails only as the value of an operand is
looked for. The context a script was parsed in has given all of them, and in the default
context a symbol may be without one. In any other context whose values are all in its
table, what can go wrong is that the key of a symbol is not there.
-/

namespace Criteria

/-- The context asks nobody else: its table holds all its values. -/
def Context.Closed (context : Context) : Prop :=
  ∀ key, context.elsewhere key = unresolved key

/-- The context has a value for the key. -/
def Context.Defines (context : Context) (key : Text) : Prop :=
  ∃ value, context.resolve key = .ok value

variable {context : Context} {error : Error}

namespace Context

theorem closed_default : Context.default.Closed :=
  fun _ => rfl

theorem resolve_of_find? {key : Text} {value : Scalar} (h : context.find? key = some value) :
    context.resolve key = .ok value := by
  rw [resolve, h]

theorem not_defines_of_resolve {key : Text} (h : context.resolve key = .error error) :
    ¬context.Defines key := by
  rintro ⟨value, hvalue⟩
  rw [h] at hvalue
  cases hvalue

theorem Closed.resolve_of_find?_none (hclosed : context.Closed) {key : Text}
    (h : context.find? key = none) :
    context.resolve key = .error (.script (.unresolvedSymbol key)) := by
  rw [resolve, h]
  exact hclosed key

/-- A closed context fails in one way only. -/
theorem Closed.eq_of_resolve (hclosed : context.Closed) {key : Text}
    (h : context.resolve key = .error error) : error = .script (.unresolvedSymbol key) := by
  cases hfind : context.find? key with
  | some value =>
      rw [resolve_of_find? hfind] at h
      cases h
  | none =>
      rw [hclosed.resolve_of_find?_none hfind] at h
      exact (Except.error.inj h).symm

end Context

/-- Looking a symbol up fails as the context does. The default context has no such
failure for a key which is only not defined. -/
theorem Symbol.resolve_of_lookup {symbol : Symbol} (h : symbol.lookup context = .error error) :
    context.resolve symbol.key = .error error ∧
      (context.isDefault = true → error.code? ≠ some .unresolvedSymbol) := by
  unfold lookup at h
  cases hresolve : context.resolve symbol.key with
  | ok value => simp [hresolve] at h
  | error failure =>
      simp only [hresolve] at h
      split at h
      · cases h
      · next hraised =>
        cases h
        exact ⟨rfl, fun hdefault hcode => hraised ⟨hcode, hdefault⟩⟩

namespace Operand

/-- The key that a context is asked for. -/
def key? : Operand → Option Text
  | symbol s => some s.key
  | _ => none

theorem exists_key_of_resolve {operand : Operand} (hown : operand.isForeign = false)
    (h : operand.resolve context = .error error) :
    ∃ key, operand.key? = some key ∧ context.resolve key = .error error ∧
      (context.isDefault = true → error.code? ≠ some .unresolvedSymbol) := by
  cases operand with
  | literal source value => cases h
  | symbol s => exact ⟨s.key, rfl, Symbol.resolve_of_lookup (Except.map_eq_error_iff.mp h)⟩
  | foreign operand => cases hown

end Operand

/-- A comparison fails as its left operand does, or else as its right one does. -/
theorem Comparison.resolve_of_isMatch {comparison : Comparison}
    (h : comparison.isMatch context = .error error) :
    comparison.left.resolve context = .error error ∨
      comparison.right.resolve context = .error error := by
  unfold isMatch at h
  rcases Except.bind_eq_error_iff.mp h with hleft | ⟨left, -, hrest⟩
  · exact .inl hleft
  · rcases Except.bind_eq_error_iff.mp hrest with hright | ⟨right, -, hanswer⟩
    · exact .inr hright
    · cases hanswer

namespace Criterion

variable {criterion : Criterion}

/-- The operands of all comparisons, from left to right. -/
def operands (criterion : Criterion) : List Operand :=
  criterion.leaves.flatMap fun comparison => [comparison.left, comparison.right]

/-- The keys of all symbols, from left to right. -/
def keys (criterion : Criterion) : List Text :=
  criterion.operands.filterMap Operand.key?

theorem operands_logic (left right : Criterion) (connective : Connective) :
    (logic left connective right).operands = left.operands ++ right.operands := by
  simp [operands, leaves]

/-- A criterion fails as one of its operands does. -/
theorem exists_resolve_of_isMatch (h : criterion.isMatch context = .error error) :
    ∃ operand ∈ criterion.operands, operand.resolve context = .error error := by
  induction criterion with
  | comparison c =>
      rcases Comparison.resolve_of_isMatch h with hleft | hright
      · exact ⟨c.left, by simp [operands, leaves], hleft⟩
      · exact ⟨c.right, by simp [operands, leaves], hright⟩
  | logic left connective right ihl ihr =>
      rw [operands_logic]
      rw [isMatch] at h
      rcases Except.bind_eq_error_iff.mp h with hleft | ⟨holds, -, hrest⟩
      · obtain ⟨operand, hmem, hresolve⟩ := ihl hleft
        exact ⟨operand, List.mem_append_left _ hmem, hresolve⟩
      · split at hrest
        · cases hrest
        · obtain ⟨operand, hmem, hresolve⟩ := ihr hrest
          exact ⟨operand, List.mem_append_right _ hmem, hresolve⟩

theorem Grounded.resolve (h : criterion.Grounded context) :
    ∀ operand ∈ criterion.operands, operand.isForeign = false ∧
      ∃ value, operand.resolve context = .ok value := by
  intro operand hmem
  obtain ⟨comparison, hleaf, hside⟩ := List.mem_flatMap.mp hmem
  obtain ⟨first, second, hgrounded⟩ := h comparison hleaf
  simp only [List.mem_cons, List.not_mem_nil, or_false] at hside
  rcases hside with rfl | rfl
  · rw [Operand.resolve_eq hgrounded.leftOwn, hgrounded.leftValue]
    exact ⟨hgrounded.leftOwn, _, rfl⟩
  · rw [Operand.resolve_eq hgrounded.rightOwn, hgrounded.rightValue]
    exact ⟨hgrounded.rightOwn, _, rfl⟩

/-- A criterion can be matched in a context in which it is grounded. -/
theorem Grounded.exists_isMatch (h : criterion.Grounded context) :
    ∃ holds, criterion.isMatch context = .ok holds := by
  cases hmatch : criterion.isMatch context with
  | ok holds => exact ⟨holds, rfl⟩
  | error error =>
      obtain ⟨operand, hmem, hresolve⟩ := exists_resolve_of_isMatch hmatch
      obtain ⟨-, value, hvalue⟩ := h.resolve operand hmem
      rw [hresolve] at hvalue
      cases hvalue

/-- Elsewhere it fails only as the context does for one of the keys. -/
theorem Grounded.exists_key_of_isMatch (h : criterion.Grounded context) {other : Context}
    (hmatch : criterion.isMatch other = .error error) :
    ∃ key ∈ criterion.keys, other.resolve key = .error error ∧
      (other.isDefault = true → error.code? ≠ some .unresolvedSymbol) := by
  obtain ⟨operand, hmem, hresolve⟩ := exists_resolve_of_isMatch hmatch
  obtain ⟨key, hkey, hfails⟩ := Operand.exists_key_of_resolve (h.resolve operand hmem).1 hresolve
  exact ⟨key, List.mem_filterMap.mpr ⟨operand, hmem, hkey⟩, hfails⟩

end Criterion

namespace Script

theorem grounded_of_parse {registry : Registry} {shape : Text → Prop}
    (hregistry : registry.Settled shape) {text : Text} {given : Option Context} {script : Script}
    (h : parse registry text given = .ok script) :
    script.criterion.Grounded (given.getD .default) ∧ script.bound = given := by
  obtain ⟨-, _, criterion, -, hbuild, rfl⟩ := parse_eq_ok_iff.mp h
  exact ⟨Clause.grounded_of_build hregistry hbuild, rfl⟩

/-- A parsed script can be matched in the context it was parsed in, and so can its
inverse, and after that context is taken away it can be matched in the default one. In
any other context it can be matched when every key in it has a value there. When it fails
in a context which asks nobody else, the error names a key in it which has none. -/
theorem isMatch_of_parse {registry : Registry} (hregistry : registry ⊆ .full) {text : Text}
    {given : Option Context} {script : Script} (hparse : parse registry text given = .ok script) :
    (∃ holds, script.isMatch = .ok holds ∧ script.evaluate = .ok (.bool holds) ∧
      script.criterion.invert.isMatch script.context = .ok !holds) ∧
    (∃ holds, script.unbind.isMatch = .ok holds) ∧
    ∀ other : Context,
      ((∀ key ∈ script.criterion.keys, other.Defines key) →
        ∃ holds, script.isMatchWith other = .ok holds) ∧
      (other.Closed → ∀ error, script.isMatchWith other = .error error →
        error.code? = some .unresolvedSymbol ∧
        ∃ key ∈ script.criterion.keys, ¬other.Defines key ∧
          error = .script (.unresolvedSymbol key)) := by
  obtain ⟨hgrounded, hbound⟩ := grounded_of_parse (Registry.settled_of_subset hregistry) hparse
  refine ⟨?_, ?_, fun other => ⟨fun hdefined => ?_, fun hclosed error hmatch => ?_⟩⟩
  · obtain ⟨holds, hmatch⟩ := hgrounded.exists_isMatch
    rw [← hbound] at hmatch
    refine ⟨holds, hmatch, ?_, ?_⟩
    · rw [evaluate, isMatch, isMatchWith, context, hmatch, Except.ok_map]
    · rw [Criterion.isMatch_invert hgrounded.decided, context, hmatch, Except.ok_map]
  · cases hmatch : script.unbind.isMatch with
    | ok holds => exact ⟨holds, rfl⟩
    | error error =>
        obtain ⟨_, _, hfails, hcode⟩ := hgrounded.exists_key_of_isMatch hmatch
        rw [Context.closed_default.eq_of_resolve hfails] at hcode
        exact absurd rfl (hcode rfl)
  · cases hmatch : script.isMatchWith other with
    | ok holds => exact ⟨holds, rfl⟩
    | error error =>
        obtain ⟨key, hkey, hfails, -⟩ := hgrounded.exists_key_of_isMatch hmatch
        exact absurd (hdefined key hkey) (Context.not_defines_of_resolve hfails)
  · obtain ⟨key, hkey, hfails, -⟩ := hgrounded.exists_key_of_isMatch hmatch
    obtain rfl := hclosed.eq_of_resolve hfails
    exact ⟨rfl, key, hkey, Context.not_defines_of_resolve hfails, rfl⟩

/-- Where `ratio` has a value of another kind matching goes on, and where it has none
matching fails in the second half. -/
theorem isMatch_of_parse_ratio :
    let registry := Registry.builtin.registerFront .percent
    let text := "level > 2 && !(ratio < 50%)".toList
    let given : Context :=
      { values := [("level".toList, .number (.ofNat 3)), ("ratio".toList, .number (.ofNat 1))] }
    let changed := given.insert "ratio".toList (.text "half".toList)
    let erased := given.erase "ratio".toList
    ∃ script, parse registry text (some given) = .ok script ∧
      script.criterion.text = "level > 2 && ratio >= 50%".toList ∧
      (∃ holds, script.isMatch = .ok holds) ∧ (∃ holds, script.unbind.isMatch = .ok holds) ∧
      (∃ holds, script.isMatchWith changed = .ok holds) ∧
      ∃ error, script.isMatchWith erased = .error error ∧
        error.code? = some .unresolvedSymbol := by
  intro registry text given changed erased
  have hregistry : registry ⊆ .full := by
    simp [registry, Registry.registerFront, Registry.full, Registry.builtin]
  have hparse : (parse registry text (some given)).map (fun script =>
      (script.criterion.text, script.criterion.keys, script.isMatchWith erased)) =
      .ok ("level > 2 && ratio >= 50%".toList, ["level".toList, "ratio".toList],
        .error (.script (.unresolvedSymbol "ratio".toList))) := by
    decide +kernel
  obtain ⟨script, hscript, hread⟩ := Except.map_eq_ok_iff.mp hparse
  obtain ⟨htext, hkeys, herased⟩ : script.criterion.text = _ ∧ script.criterion.keys = _ ∧
      script.isMatchWith erased = _ := by
    simpa only [Prod.mk.injEq] using hread
  obtain ⟨⟨holds, hmatch, -⟩, hunbound, hother⟩ := isMatch_of_parse hregistry hscript
  have hdefined : ∀ key ∈ script.criterion.keys, changed.Defines key := by
    simp only [hkeys, List.mem_cons, List.not_mem_nil, or_false, forall_eq_or_imp, forall_eq]
    exact ⟨⟨.number (.ofNat 3), rfl⟩, ⟨.text "half".toList, rfl⟩⟩
  have hclosed : erased.Closed := fun _ => rfl
  exact ⟨script, hscript, htext, ⟨holds, hmatch⟩, hunbound, (hother changed).1 hdefined,
    _, herased, ((hother erased).2 hclosed _ herased).1⟩

end Script

end Criteria
