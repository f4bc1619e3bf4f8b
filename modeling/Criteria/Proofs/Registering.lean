import Criteria.Operand.Measures
import Criteria.Proofs.Comparison.Selection
import Criteria.Proofs.Layout.Accepting

/-!
Parsers which are registered after the others. They are asked for what the others left
open and for nothing else, so a script changes its meaning or its error only when an
operand of its first failing comparison was recognized by no parser. An operation
that is left open stays so: both operands are known then, and nobody is asked again.
-/

namespace Criteria

variable {registry : Registry} {context : Context} {left token right fragment : Text}
  {error : Error}

/-- Registering several parsers puts them behind the others in their order. -/
theorem Registry.foldl_register (registry : Registry) (more : List OperandParser) :
    more.foldl register registry = registry ++ more := by
  induction more generalizing registry with
  | nil => rw [List.foldl_nil, List.append_nil]
  | cons parser more ih =>
      rw [List.foldl_cons, ih, register, List.append_assoc, List.singleton_append]

/-- An operand is not recognized. -/
def Error.IsUnrecognized (error : Error) : Prop :=
  error.code? = some .unrecognizedLeft ∨ error.code? = some .unrecognizedRight

namespace Comparison

/-- A search goes on behind the end of a registry where it stopped. -/
theorem Search.run_append (registry more : Registry) (search : Search) :
    run left token right context (registry ++ more) search =
      run left token right context registry search >>= run left token right context more := by
  induction registry generalizing search with
  | nil => rfl
  | cons parser rest ih =>
      rw [List.cons_append, run, run]
      cases search.tryLeft parser left token context with
      | error error => rfl
      | ok asked =>
          simp only [Except.ok_bind]
          cases asked.tryRight parser right token context with
          | error error => rfl
          | ok answered =>
              simp only [Except.ok_bind, Except.pure_eq_ok]
              cases hcomplete : answered.isComplete with
              | false => exact ih answered
              | true =>
                  -- The search stops here, and `more` is not asked for operands it has.
                  simp only [isComplete, Bool.and_eq_true] at hcomplete
                  exact (run_of_found answered hcomplete.1.1 hcomplete.1.2).symm

theorem resolve_append_agrees (registry more : Registry) :
    Except.AgreesUnless Error.IsUnrecognized (resolve left token right registry context)
      (resolve left token right (registry ++ more) context) := by
  unfold resolve
  rw [Search.run_append]
  cases Search.run left token right context registry {} with
  | error error => exact .refl _
  | ok search =>
      simp only [Except.ok_bind]
      cases hleft : search.left with
      | none => exact .inl ⟨_, rfl, .inl rfl⟩
      | some leftOperand =>
          cases hright : search.right with
          | none => exact .inl ⟨_, rfl, .inr rfl⟩
          | some rightOperand =>
              -- The operation may be open, but with both operands nobody is asked again.
              apply Except.AgreesUnless.of_eq
              rw [Search.run_of_found search (by simp [hleft]) (by simp [hright])]
              simp only [Except.ok_bind, hleft, hright]

theorem parse_append_agrees (registry more : Registry) (position : Nat) :
    Except.AgreesUnless Error.IsUnrecognized (parse fragment position registry context)
      (parse fragment position (registry ++ more) context) := by
  unfold parse
  split
  · exact .refl _
  · exact (resolve_append_agrees registry more).bind fun _ _ => .refl _

/-- A parser of the registry fails while it is asked for an operand of the fragment. -/
def Raises (registry : Registry) (context : Context) (fragment : Text) (error : Error) : Prop :=
  ∃ left token right, split? fragment = some (left, token, right) ∧
    Search.run left token right context registry {} = .error error

theorem Raises.append (h : Raises registry context fragment error) (more : Registry) :
    Raises (registry ++ more) context fragment error := by
  obtain ⟨left, token, right, hsplit, hrun⟩ := h
  refine ⟨left, token, right, hsplit, ?_⟩
  rw [Search.run_append, hrun, Except.error_bind]

theorem Raises.parse_eq_error (h : Raises registry context fragment error) (position : Nat) :
    parse fragment position registry context = .error error := by
  obtain ⟨left, token, right, hsplit, hrun⟩ := h
  simp only [parse, hsplit, resolve, hrun, Except.error_bind]

end Comparison

namespace Clause

/-- The first comparison of the clause which cannot be read is the fragment. -/
inductive StopsAt (registry : Registry) (context : Context) : Clause → (fragment : Text) → Prop
  | comparison {text : Text} {position : Nat} {error : Error}
      (h : Comparison.parse text position registry context = .error error) :
      StopsAt registry context (comparison text position) text
  | group {negated : Bool} {inner : Clause} {fragment : Text}
      (h : StopsAt registry context inner fragment) :
      StopsAt registry context (group negated inner) fragment
  | left {left right : Clause} {connective : Connective} {fragment : Text}
      (h : StopsAt registry context left fragment) :
      StopsAt registry context (logic left connective right) fragment
  | right {left right : Clause} {connective : Connective} {fragment : Text} {first : Criterion}
      (hleft : left.build registry context = .ok first)
      (h : StopsAt registry context right fragment) :
      StopsAt registry context (logic left connective right) fragment

theorem build_append_agrees (clause : Clause) (registry more : Registry) :
    Except.AgreesUnless Error.IsUnrecognized (clause.build registry context)
      (clause.build (registry ++ more) context) := by
  induction clause with
  | comparison text position =>
      exact (Comparison.parse_append_agrees registry more position).bind fun _ _ => .refl _
  | group negated inner ih => exact ih.bind fun _ _ => .refl _
  | logic left connective right ihl ihr =>
      exact ihl.bind fun _ _ => ihr.bind fun _ _ => .refl _

/-- What a parser raises at the first comparison that cannot be read is the error of the
clause, with or without further parsers. -/
theorem StopsAt.build_append {clause : Clause} (h : clause.StopsAt registry context fragment)
    (hraises : Comparison.Raises registry context fragment error) (more : Registry) :
    clause.build (registry ++ more) context = .error error := by
  induction h with
  | comparison h =>
      rw [build, (hraises.append more).parse_eq_error, Except.error_bind]
  | group h ih => rw [build, ih hraises, Except.error_bind]
  | left h ih => rw [build, ih hraises, Except.error_bind]
  | right hleft h ih =>
      have hsame := (build_append_agrees _ registry more).eq_of_ok hleft
      rw [build, hsame, ih hraises, Except.ok_bind, Except.error_bind]

end Clause

namespace Script

theorem parse_append_agrees (registry more : Registry) (text : Text) (given : Option Context) :
    Except.AgreesUnless Error.IsUnrecognized (parse registry text given)
      (parse (registry ++ more) text given) := by
  rw [parse_eq, parse_eq]
  split
  · exact .refl _
  · exact Except.AgreesUnless.bind (.refl _) fun clause _ =>
      (clause.build_append_agrees registry more).map _

/-- Registering parsers at the end changes nothing, unless the script fails because an
operand is not recognized. What a parser of the registry raises stays in any case, also
when it has the code of such a failure. -/
theorem parse_register (registry : Registry) (more : List OperandParser) (text : Text)
    (given : Option Context) :
    let extended := more.foldl Registry.register registry
    (parse extended text given = parse registry text given ∨
      ∃ error, parse registry text given = .error error ∧
        (error.code? = some .unrecognizedLeft ∨ error.code? = some .unrecognizedRight)) ∧
    ∀ clause fragment error, Clause.parse text = .ok clause →
      clause.StopsAt registry (given.getD .default) fragment →
      Comparison.Raises registry (given.getD .default) fragment error →
      parse registry text given = .error error ∧ parse extended text given = .error error := by
  intro extended
  have hextended : extended = registry ++ more := registry.foldl_register more
  rw [hextended]
  constructor
  · exact (parse_append_agrees registry more text given).symm
  · intro clause fragment error hclause hstops hraises
    have hparse (added : Registry) : parse (registry ++ added) text given = .error error := by
      rw [parse_eq, if_neg (Clause.trim_ne_nil_of_parse hclause), hclause, Except.ok_bind,
        hstops.build_append hraises added, Except.error_map]
    have hplain := hparse []
    rw [List.append_nil] at hplain
    exact ⟨hplain, hparse more⟩

/-- One added parser refuses every text. The percentage which cannot be read is still
the error, and a script without one is still accepted. -/
theorem parse_register_percentage :
    let strict := OperandParser.symmetric "strict" fun text _ _ =>
      .error (.script (.other .malformedLiteral text))
    let registry := Registry.builtin.registerFront .percent
    let extended := (registry.register strict).register .length
    let given : Context := { values := [("ratio".toList, .number .zero)] }
    let error := Error.script (.other .unrecognizedRight "bad percentage `x%`".toList)
    parse registry "ratio < 5% && ratio < x%".toList (some given) = .error error ∧
      parse extended "ratio < 5% && ratio < x%".toList (some given) = .error error ∧
      parse extended "ratio < 5%".toList (some given) =
        parse registry "ratio < 5%".toList (some given) := by
  intro strict registry extended given error
  have hextended : extended = [strict, .length].foldl Registry.register registry := rfl
  rw [hextended]
  have hclause : Clause.parse "ratio < 5% && ratio < x%".toList = .ok
      (.logic (.comparison "ratio < 5%".toList 0) .and (.comparison "ratio < x%".toList 14)) := by
    decide +kernel
  have hfirst : ((Clause.comparison "ratio < 5%".toList 0).build registry given).map
      Criterion.leafCount = .ok 1 := by decide +kernel
  have hsearch : (Comparison.Search.run "ratio".toList ['<'] "x%".toList given registry {}).map
      Comparison.Search.operation = .error error := by decide +kernel
  obtain ⟨first, hbuild, -⟩ := Except.map_eq_ok_iff.mp hfirst
  have hraises : Comparison.Raises registry given "ratio < x%".toList error :=
    ⟨_, _, _, by decide, Except.map_eq_error_iff.mp hsearch⟩
  have hstops : Clause.StopsAt registry given
      (.logic (.comparison "ratio < 5%".toList 0) .and (.comparison "ratio < x%".toList 14))
      "ratio < x%".toList :=
    .right hbuild (.comparison (hraises.parse_eq_error 14))
  obtain ⟨hregistry, hmore⟩ := (parse_register registry [strict, .length] _ (some given)).2
    _ _ _ hclause hstops hraises
  refine ⟨hregistry, hmore, ?_⟩
  have haccepted : (parse registry "ratio < 5%".toList (some given)).map Script.text =
      .ok "ratio < 5%".toList := by decide +kernel
  rcases (parse_register registry [strict, .length] "ratio < 5%".toList (some given)).1 with
    hsame | ⟨failure, hfails, -⟩
  · exact hsame
  · rw [hfails] at haccepted
    cases haccepted

end Script

end Criteria
