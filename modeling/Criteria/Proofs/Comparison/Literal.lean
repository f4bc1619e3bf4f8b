import Criteria.Proofs.Comparison.Families
import Criteria.Proofs.Scanning.Literals
import Criteria.Proofs.Scalar.Symmetry

/-!
Every text can be written in a script. The literal which escapes its quotes and backslashes
is an operand, whatever else stands in the text: a connective, a comparator or a parenthesis
in it is seen neither by the reader of clauses nor by that of comparisons. The operand has
the text as its value, so a symbol is equal to the literal of its value and to no other one.
-/

namespace Criteria

theorem Scalar.equals_text_ordinal (a b : Text) :
    (text a).equals .ordinal (text b) = decide (a = b) := by
  have hcompare : Collation.ordinal.compare a b = .eq ↔ a = b := Std.LawfulEqOrd.compare_eq_iff_eq
  rw [equals_eq_compare (.inl rfl), compare, Bool.eq_iff_iff, beq_iff_eq, Option.some.injEq,
    hcompare, decide_eq_true_iff]

theorem OperandParser.string_recognizes_encode (value : Text) :
    string.Recognizes (Quoted.encode value) (.literal (Quoted.encode value) (.text value)) := by
  have hdecode := Quoted.decode?_encode value []
  rw [List.append_nil] at hdecode
  have hquote : (Quoted.encode value).head? = some '"' := rfl
  apply recognizes_literal
  intro token context
  rw [readString, if_pos hquote, hdecode]
  rfl

theorem Text.isOperand_encode (value : Text) : IsOperand (Quoted.encode value) := by
  have hliteral := literal_encode value
  refine ⟨trim_of_full hliteral.startsFull hliteral.endsFull, .string, List.mem_cons_self, [],
    .default, ?_⟩
  rw [(OperandParser.string_recognizes_encode value).left]
  exact ⟨_, rfl⟩

namespace Comparison.Pair

/-- The symbol `x` with the text `other` for its value, and the literal of `value`. -/
def literal (value other : Text) : Pair where
  leftIndex := 4
  left := .symbol { source := ['x'], key := ['x'], indexers := [] }
  leftValue := some (.text other)
  rightIndex := 0
  right := .literal (Quoted.encode value) (.text value)
  rightValue := some (.text value)

theorem selected_literal (value : Text) {other : Text} {context : Context}
    (hvalue : context.resolve ['x'] = .ok (.text other)) :
    (literal value other).Selected .builtin context ['x'] (Quoted.encode value) where
  left := by
    have hsymbol : Symbol.ofText? ['x'] =
        .ok (some { source := ['x'], key := ['x'], indexers := [] }) := by decide +kernel
    -- The four kinds of literals are tried before symbols.
    refine .later ⟨?_, ?_⟩ (.later ⟨?_, ?_⟩ (.later ⟨?_, ?_⟩ (.later ⟨?_, ?_⟩
      (.here (OperandParser.symbol_recognizes hsymbol)))))
    all_goals
      intros
      rfl
  leftValue := by
    simp only [literal, Operand.value?, Symbol.lookup, hvalue]
    rfl
  right := .here (OperandParser.string_recognizes_encode value)
  rightValue := rfl

end Comparison.Pair

/-- A text is what its literal denotes, and nothing else is: the symbol is equal to the
literal exactly when it has this text for its value. -/
theorem Script.run_equal_literal (value other : Text) {context : Context}
    (hvalue : context.resolve ['x'] = .ok (.text other))
    (hcollation : context.collation = .ordinal) :
    run .builtin ("x == ".toList ++ Quoted.encode value) (some context) =
      .ok (decide (value = other)) := by
  have hsymbol : Text.IsOperand ['x'] := ⟨by decide, .of_any (by decide +kernel)⟩
  have hliteral := Text.isOperand_encode value
  have hpair : (Comparison.Pair.literal value other).Selected .builtin
      ((some context).getD .default) ['x'] (Quoted.encode value) :=
    Comparison.Pair.selected_literal value hvalue
  have hmeaning : (Comparison.Pair.literal value other).meaning Operation.equal.token =
      .equal := by
    have hpreferred : (Comparison.Pair.literal value other).preferred = some (.text value) := rfl
    rw [Comparison.Pair.meaning_of_preferred hpreferred]
    rfl
  have hfits : (Comparison.Pair.literal value other).Fits context.collation .equal := by
    rw [Comparison.Pair.fits_iff (by decide)]
    constructor <;>
      · intro hasked
        cases hasked
  have hparse := hpair.parse_token Registry.builtin_settled
    (.of_solid hsymbol.solid hliteral.solid) (by decide) hmeaning hfits 0
  calc run .builtin (Comparison.written ['x'] Operation.equal.token (Quoted.encode value))
        (some context)
      = .ok ((Scalar.text other).equals context.collation (.text value)) :=
        hpair.run_of_parse hsymbol.solid hliteral.solid (by decide) hparse
    _ = .ok (decide (value = other)) := by
        rw [hcollation, Scalar.equals_text_ordinal]
        simp only [eq_comm]

/-- A text which contains quotes, a closing parenthesis, tokens and a backslash at its end. The
line break which its first two characters could stand for is another text. -/
theorem Script.run_equal_literal_escapes :
    let value := "\\n\" && ) || \"!( <= \\".toList
    let given (other : Text) : Context := { values := [(['x'], .text other)] }
    run .builtin ("x == ".toList ++ Quoted.encode value) (some (given value)) = .ok true ∧
      run .builtin ("x == ".toList ++ Quoted.encode value) (some (given ('\n' :: value.drop 2))) =
        .ok false := by
  intro value given
  have hsame := run_equal_literal value value (rfl : (given value).resolve ['x'] = _) rfl
  have hother := run_equal_literal value ('\n' :: value.drop 2)
    (rfl : (given ('\n' :: value.drop 2)).resolve ['x'] = _) rfl
  exact ⟨by rw [hsame, decide_eq_true rfl], by rw [hother, decide_eq_false (by decide)]⟩

end Criteria
