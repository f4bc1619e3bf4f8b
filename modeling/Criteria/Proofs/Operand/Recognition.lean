import Criteria.Proofs.Comparison.Selection
import Criteria.Proofs.Operand.Sealing

/-!
What a parser makes of a text. The parsers which every script may use decide by the
text alone whether they recognize it, and what a comparator means to the operand
follows from its value. So the operands of a comparison do not depend on the
comparator between them.
-/

namespace Criteria

namespace Operand

/-- The value of an operand, if it has one. -/
def value? (operand : Operand) (context : Context) : Except Error (Option Scalar) :=
  match operand with
  | literal _ value => .ok (some value)
  | symbol s => s.lookup context
  | foreign operand => (operand.resolve context).map some

/-- What a comparator means to the operand by its value. -/
def infer (operand : Operand) (token : Text) (context : Context) : Except Error Operation :=
  (operand.value? context).map fun value => (OperandParser.inferFrom value token).getD .undecided

def isForeign : Operand → Bool
  | foreign _ => true
  | _ => false

/-- The operand is one of the library, and this is the text that writes it. -/
structure WrittenAs (operand : Operand) (text : Text) : Prop where
  source_eq : operand.source = text
  own : operand.isForeign = false

/-- Only symbols can be without a value. -/
theorem value?_eq_ok_none_iff {operand : Operand} {context : Context}
    (hown : operand.isForeign = false) :
    operand.value? context = .ok none ↔
      ∃ s : Symbol, operand = .symbol s ∧ s.lookup context = .ok none := by
  cases operand with
  | literal source value => simp [value?]
  | symbol s => simp [value?]
  | foreign operand => cases hown

end Operand

namespace OperandParser

/-- The parser leaves the text to others. -/
structure Passes (parser : OperandParser) (text : Text) : Prop where
  left (token : Text) (context : Context) : parser.readLeft text token context = .ok none
  right (token : Text) (inferred : Operation) (context : Context) :
    parser.readRight text token inferred context = .ok none

/-- The parser takes the text for this operand, and its value for the meaning of the
comparator. On the right the value is not asked for when the meaning is known. -/
structure Recognizes (parser : OperandParser) (text : Text) (operand : Operand) : Prop where
  left (token : Text) (context : Context) :
    parser.readLeft text token context =
      (operand.infer token context).map fun operation => some { operand, operation }
  right (token : Text) (context : Context) :
    parser.readRight text token .undecided context =
      (operand.infer token context).map fun operation => some { operand, operation }
  known (token : Text) {inferred : Operation} (context : Context) (hknown : inferred ≠ .undecided) :
    ∃ operation, parser.readRight text token inferred context = .ok (some { operand, operation })

/-- The parser finds the text malformed. -/
structure Refuses (parser : OperandParser) (text : Text) (error : Error) : Prop where
  left (token : Text) (context : Context) : parser.readLeft text token context = .error error
  right (token : Text) (inferred : Operation) (context : Context) :
    parser.readRight text token inferred context = .error error

/-- The text alone decides what the parser makes of it, and a text which it recognizes
has a certain shape. -/
inductive Settles (parser : OperandParser) (shape : Text → Prop) (text : Text) : Prop
  | passes (h : parser.Passes text)
  | refuses (error : Error) (h : parser.Refuses text error)
  | recognizes (operand : Operand) (h : parser.Recognizes text operand)
      (hwritten : operand.WrittenAs text) (hshape : shape text)

section

variable {parser : OperandParser} {shape : Text → Prop} {text token : Text}
  {inferred : Operation} {context : Context} {found : Option Reading} {first second : Operand}

theorem Recognizes.readRight_eq (h : parser.Recognizes text first) (context : Context) :
    ∃ operation, parser.readRight text [] .equal context =
      .ok (some { operand := first, operation }) :=
  h.known [] context (by decide)

theorem Recognizes.unique (hfirst : parser.Recognizes text first)
    (hsecond : parser.Recognizes text second) : first = second := by
  obtain ⟨_, h⟩ := hfirst.readRight_eq .default
  obtain ⟨_, h'⟩ := hsecond.readRight_eq .default
  rw [h] at h'
  cases h'
  rfl

theorem Passes.not_recognizes (h : parser.Passes text) : ¬parser.Recognizes text first := by
  intro hfirst
  obtain ⟨operation, hread⟩ := hfirst.readRight_eq .default
  rw [h.right] at hread
  cases hread

/-- What is read on the left is what the text alone decides. -/
theorem Settles.of_readLeft (h : parser.Settles shape text)
    (hread : parser.readLeft text token context = .ok found) :
    found = none ∧ parser.Passes text ∨
      ∃ operand, found.map Reading.operand = some operand ∧ parser.Recognizes text operand := by
  cases h with
  | passes h =>
      rw [h.left] at hread
      exact .inl ⟨(Except.ok.inj hread).symm, h⟩
  | refuses error h =>
      rw [h.left] at hread
      cases hread
  | recognizes operand h _ _ =>
      rw [h.left] at hread
      obtain ⟨operation, -, rfl⟩ := Except.map_eq_ok_iff.mp hread
      exact .inr ⟨operand, rfl, h⟩

theorem Settles.of_readRight (h : parser.Settles shape text)
    (hread : parser.readRight text token inferred context = .ok found) :
    found = none ∧ parser.Passes text ∨
      ∃ operand, found.map Reading.operand = some operand ∧ parser.Recognizes text operand := by
  cases h with
  | passes h =>
      rw [h.right] at hread
      exact .inl ⟨(Except.ok.inj hread).symm, h⟩
  | refuses error h =>
      rw [h.right] at hread
      cases hread
  | recognizes operand h _ _ =>
      by_cases hknown : inferred = .undecided
      · rw [hknown, h.right] at hread
        obtain ⟨operation, -, rfl⟩ := Except.map_eq_ok_iff.mp hread
        exact .inr ⟨operand, rfl, h⟩
      · obtain ⟨operation, hother⟩ := h.known token context hknown
        rw [hother] at hread
        obtain rfl := Except.ok.inj hread
        exact .inr ⟨operand, rfl, h⟩

theorem Settles.writtenAs (h : parser.Settles shape text) (hfirst : parser.Recognizes text first) :
    first.WrittenAs text ∧ shape text := by
  obtain ⟨_, hread⟩ := hfirst.readRight_eq .default
  cases h with
  | passes h =>
      rw [h.right] at hread
      cases hread
  | refuses error h =>
      rw [h.right] at hread
      cases hread
  | recognizes operand h hwritten hshape =>
      rw [hfirst.unique h]
      exact ⟨hwritten, hshape⟩

end

section

variable {name : String} {read : (text token : Text) → Context → Except Error (Option Reading)}
  {shape : Text → Prop} {text : Text}

theorem passes_of_read (h : ∀ token context, read text token context = .ok none) :
    (symmetric name read).Passes text :=
  ⟨h, fun token _ context => h token context⟩

theorem settles_of_pass (h : ∀ token context, read text token context = .ok none) :
    (symmetric name read).Settles shape text :=
  .passes (passes_of_read h)

theorem settles_of_refuse (error : Error)
    (h : ∀ token context, read text token context = .error error) :
    (symmetric name read).Settles shape text :=
  .refuses error ⟨h, fun token _ context => h token context⟩

/-- A literal means by a comparator what its value makes of it. -/
theorem recognizes_literal (value : Scalar)
    (h : ∀ token context, read text token context = .ok (some {
      operand := .literal text value
      operation := (inferFrom (some value) token).getD .undecided })) :
    (symmetric name read).Recognizes text (.literal text value) :=
  ⟨h, h, fun token _ context _ => ⟨_, h token context⟩⟩

theorem settles_of_literal (value : Scalar) (hshape : shape text)
    (h : ∀ token context, read text token context = .ok (some {
      operand := .literal text value
      operation := (inferFrom (some value) token).getD .undecided })) :
    (symmetric name read).Settles shape text :=
  .recognizes (.literal text value) (recognizes_literal value h) ⟨rfl, rfl⟩ hshape

end

section

variable {text : Text} {value : Scalar}

theorem string_passes (h : text.head? ≠ some '"') : string.Passes text :=
  passes_of_read fun token context => by rw [readString, if_neg h]

theorem number_passes (h : Lexeme.number? text = none) : number.Passes text :=
  passes_of_read fun token context => by rw [readNumber, h]

theorem keyword_passes (h : keyword? text = none) : keyword.Passes text :=
  passes_of_read fun token context => by rw [readKeyword, h, Option.map_none]

theorem list_passes (h : text.head? ≠ some '[') : list.Passes text :=
  passes_of_read fun token context => by rw [readList, if_neg h]

theorem sealed_of_keyword? (h : keyword? text = some value) :
    Text.Sealed text ∧
      ∀ token, Operation.ofOrderingToken? token = inferFrom (some value) token := by
  unfold keyword? at h
  split at h
  all_goals
    simp only [Option.some.injEq, reduceCtorEq] at h
  all_goals
    subst h
    exact ⟨Text.hides_of_forall (by simp [Text.marks]), fun _ => rfl⟩

/-- A number which is not the whole text is left to others. -/
theorem number_passes_of_left {n : Number} {c : Char} {rest : Text}
    (h : Lexeme.number? text = some (n, c :: rest)) : number.Passes text :=
  passes_of_read fun token context => by rw [readNumber, h]

theorem number_recognizes {n : Number} (h : Lexeme.number? text = some (n, [])) :
    number.Recognizes text (.literal text (.number n)) := by
  apply recognizes_literal
  intro token context
  rw [readNumber, h]
  rfl

theorem keyword_recognizes (h : keyword? text = some value) :
    keyword.Recognizes text (.literal text value) := by
  apply recognizes_literal
  intro token context
  rw [readKeyword, h, ← (sealed_of_keyword? h).2]
  rfl

end

theorem string_settles (text : Text) : string.Settles Text.Sealed text := by
  by_cases hquote : text.head? = some '"'
  · cases hdecode : Quoted.decode? text with
    | none =>
        apply settles_of_refuse (.script (.unterminatedText text))
        intro token context
        rw [readString, if_pos hquote, hdecode]
    | some found =>
        obtain ⟨value, left⟩ := found
        cases left with
        | nil =>
            have hsealed := Text.sealedUpTo_nil_iff.mp (Quoted.sealedUpTo_of_decode? hdecode)
            apply settles_of_literal (.text value) hsealed
            intro token context
            rw [readString, if_pos hquote, hdecode]
            rfl
        | cons c rest =>
            apply settles_of_pass
            intro token context
            rw [readString, if_pos hquote, hdecode]
  · exact .passes (string_passes hquote)

theorem number_settles (text : Text) : number.Settles Text.Sealed text := by
  cases hnumber : Lexeme.number? text with
  | none => exact .passes (number_passes hnumber)
  | some found =>
      obtain ⟨value, left⟩ := found
      cases left with
      | nil =>
          have hsealed := Text.sealedUpTo_nil_iff.mp (Lexeme.sealedUpTo_of_number? hnumber)
          exact .recognizes _ (number_recognizes hnumber) ⟨rfl, rfl⟩ hsealed
      | cons c rest => exact .passes (number_passes_of_left hnumber)

theorem keyword_settles (text : Text) : keyword.Settles Text.Sealed text := by
  cases hkeyword : keyword? text with
  | none => exact .passes (keyword_passes hkeyword)
  | some value =>
      exact .recognizes (.literal text value) (keyword_recognizes hkeyword) ⟨rfl, rfl⟩
        (sealed_of_keyword? hkeyword).1

theorem list_settles (text : Text) : list.Settles Text.Sealed text := by
  by_cases hopen : text.head? = some '['
  · cases hread : Json.read? text with
    | none =>
        apply settles_of_refuse (.script (.malformedList text))
        intro token context
        rw [readList, if_pos hopen, hread]
    | some value =>
        have hsealed := Json.sealed_of_read? hread
        cases value with
        | list items =>
            apply settles_of_literal (.list (Scalar.ofItems items)) hsealed
            intro token context
            rw [readList, if_pos hopen, hread]
            rfl
        | _ =>
            apply settles_of_pass
            intro token context
            rw [readList, if_pos hopen, hread]
  · exact .passes (list_passes hopen)

theorem symbol_recognizes {text : Text} {s : Symbol} (h : Symbol.ofText? text = .ok (some s)) :
    symbol.Recognizes text (.symbol s) := by
  have hunknown (token : Text) (context : Context) :
      readSymbol text token .undecided context =
        ((Operand.symbol s).infer token context).map fun operation =>
          some { operand := .symbol s, operation } := by
    simp only [readSymbol, h, Except.ok_bind, if_true, Operand.infer, Operand.value?,
      OperandParser.infer]
    cases s.lookup context <;> rfl
  refine ⟨hunknown, hunknown, ?_⟩
  intro token inferred context hknown
  refine ⟨inferred, ?_⟩
  simp only [symbol, readSymbol, h, Except.ok_bind, if_neg hknown, Except.pure_eq_ok]

theorem symbol_settles (text : Text) : symbol.Settles Text.Sealed text := by
  cases hread : Symbol.ofText? text with
  | error error =>
      apply Settles.refuses error
      constructor
      · intro token context
        simp only [symbol, readSymbol, hread, Except.error_bind]
      · intro token inferred context
        simp only [symbol, readSymbol, hread, Except.error_bind]
  | ok found =>
      cases found with
      | none =>
          apply Settles.passes
          constructor
          · intro token context
            simp only [symbol, readSymbol, hread, Except.ok_bind, Except.pure_eq_ok]
          · intro token inferred context
            simp only [symbol, readSymbol, hread, Except.ok_bind, Except.pure_eq_ok]
      | some s =>
          exact .recognizes (.symbol s) (symbol_recognizes hread)
            ⟨Symbol.source_of_ofText? hread, rfl⟩ (Symbol.sealed_of_ofText? hread)

end OperandParser

namespace Registry

/-- The text alone decides what each parser makes of it. -/
def Settled (registry : Registry) (shape : Text → Prop) : Prop :=
  ∀ parser ∈ registry, ∀ text, parser.Settles shape text

theorem builtin_settled : builtin.Settled Text.Sealed := by
  intro parser hparser text
  simp only [builtin, List.mem_cons, List.not_mem_nil, or_false] at hparser
  rcases hparser with rfl | rfl | rfl | rfl | rfl
  · exact OperandParser.string_settles text
  · exact OperandParser.number_settles text
  · exact OperandParser.keyword_settles text
  · exact OperandParser.list_settles text
  · exact OperandParser.symbol_settles text

/-- The parser at `index` is the first one that recognizes the text. -/
inductive Selects (text : Text) : Registry → (index : Nat) → Operand → Prop
  | here {parser : OperandParser} {rest : Registry} {operand : Operand}
      (h : parser.Recognizes text operand) : Selects text (parser :: rest) 0 operand
  | later {parser : OperandParser} {rest : Registry} {index : Nat} {operand : Operand}
      (h : parser.Passes text) (hrest : Selects text rest index operand) :
      Selects text (parser :: rest) (index + 1) operand

variable {registry : Registry} {shape : Text → Prop} {text left right token : Text} {index : Nat}
  {operand : Operand} {context : Context} {value : Option Scalar}

theorem Selects.writtenAs (h : Selects text registry index operand)
    (hregistry : registry.Settled shape) : operand.WrittenAs text ∧ shape text := by
  induction h with
  | here h => exact (hregistry _ List.mem_cons_self text).writtenAs h
  | later _ _ ih => exact ih fun parser hparser => hregistry parser (List.mem_cons_of_mem _ hparser)

theorem Selects.exists_mem (h : Selects text registry index operand) :
    ∃ parser ∈ registry, parser.Recognizes text operand := by
  induction h with
  | here h => exact ⟨_, List.mem_cons_self, h⟩
  | later _ _ ih =>
      obtain ⟨parser, hparser, hrecognizes⟩ := ih
      exact ⟨parser, List.mem_cons_of_mem _ hparser, hrecognizes⟩

/-- A text is selected as one operand only. -/
theorem Selects.unique {other : Nat} {second : Operand} (h : Selects text registry index operand)
    (hsecond : Selects text registry other second) : index = other ∧ operand = second := by
  induction h generalizing other with
  | here h =>
      cases hsecond with
      | here h' => exact ⟨rfl, h.unique h'⟩
      | later hpass _ => exact absurd h hpass.not_recognizes
  | later hpass _ ih =>
      cases hsecond with
      | here h' => exact absurd h' hpass.not_recognizes
      | later _ hrest =>
          obtain ⟨rfl, rfl⟩ := ih hrest
          exact ⟨rfl, rfl⟩

/-- One of the parsers reads the whole text as an operand, at some comparator and in some
context. -/
def Recognizes (registry : Registry) (text : Text) : Prop :=
  ∃ parser ∈ registry, ∃ token context reading,
    parser.readLeft text token context = .ok (some reading)

theorem Recognizes.exists_mem (h : registry.Recognizes text) (hregistry : registry.Settled shape) :
    ∃ parser ∈ registry, ∃ operand, parser.Recognizes text operand := by
  obtain ⟨parser, hparser, token, context, reading, hread⟩ := h
  rcases (hregistry parser hparser text).of_readLeft hread with ⟨hnone, -⟩ | ⟨operand, -, hoperand⟩
  · cases hnone
  · exact ⟨parser, hparser, operand, hoperand⟩

/-- Whether a text is recognized can be found out in one context. -/
theorem Recognizes.of_any
    (h : registry.any fun parser => (parser.readLeft text [] .default).toOption.join.isSome) :
    registry.Recognizes text := by
  obtain ⟨parser, hparser, hsome⟩ := List.any_eq_true.mp h
  obtain ⟨reading, hreading⟩ := Option.isSome_iff_exists.mp hsome
  refine ⟨parser, hparser, [], .default, reading, ?_⟩
  cases hread : parser.readLeft text [] .default with
  | error error =>
      rw [hread] at hreading
      cases hreading
  | ok found =>
      rw [hread] at hreading
      exact congrArg Except.ok hreading

/-- No operand is written by the empty text. -/
theorem ne_nil_of_mem_builtin {parser : OperandParser} (hparser : parser ∈ builtin)
    (h : parser.Recognizes text operand) : text ≠ [] := by
  rintro rfl
  obtain ⟨operation, hread⟩ := h.readRight_eq .default
  have hpass : parser.readRight [] [] .equal .default = .ok none := by
    simp only [builtin, List.mem_cons, List.not_mem_nil, or_false] at hparser
    rcases hparser with rfl | rfl | rfl | rfl | rfl <;> rfl
  rw [hpass] at hread
  cases hread

theorem infer_eq (hvalue : operand.value? context = .ok value) (token : Text) :
    operand.infer token context = .ok ((OperandParser.inferFrom value token).getD .undecided) := by
  rw [Operand.infer, hvalue]
  rfl

theorem Selects.selectsLeft (h : Selects text registry index operand)
    (hvalue : operand.value? context = .ok value) (token : Text) :
    Comparison.SelectsLeft text token context registry index
      { operand, operation := (OperandParser.inferFrom value token).getD .undecided } := by
  induction h with
  | here h =>
      apply Comparison.SelectsLeft.here
      rw [h.left, infer_eq hvalue]
      rfl
  | later h _ ih => exact .later (h.left token context) (ih hvalue)

theorem Selects.selectsRight (h : Selects text registry index operand)
    (hvalue : operand.value? context = .ok value) (token : Text) :
    Comparison.SelectsRight text token context registry index
      { operand, operation := (OperandParser.inferFrom value token).getD .undecided } := by
  induction h with
  | @here parser rest operand h =>
      have hread : parser.readRight text token .undecided context = .ok (some
          { operand, operation := (OperandParser.inferFrom value token).getD .undecided }) := by
        rw [h.right, infer_eq hvalue]
        rfl
      apply Comparison.SelectsRight.here hread
      intro inferred
      by_cases hknown : inferred = .undecided
      · rw [hknown]
        exact ⟨_, hread⟩
      · exact h.known token context hknown
  | later h _ ih => exact .later (fun inferred => h.right token inferred context) (ih hvalue)

theorem Settled.tail {parser : OperandParser} {rest : Registry}
    (h : Settled (parser :: rest) shape) : Settled rest shape :=
  fun other hother => h other (List.mem_cons_of_mem parser hother)

/-- A search that finds an operand finds the one which is selected. -/
theorem exists_selects_left {search final : Comparison.Search} (hregistry : registry.Settled shape)
    (h : Comparison.Search.run left token right context registry search = .ok final)
    (hopen : search.left = none) (hfound : final.left = some operand) :
    ∃ index, Selects left registry index operand := by
  induction registry generalizing search with
  | nil =>
      obtain rfl := Except.ok.inj h
      rw [hopen] at hfound
      cases hfound
  | cons parser rest ih =>
      obtain ⟨asked, answered, hleft, hright, hend⟩ := Comparison.Search.exists_of_run_cons h
      obtain ⟨found, hread, hasked⟩ := Comparison.Search.left_of_tryLeft hopen hleft
      have hsame := (Comparison.Search.keeps_of_tryRight hright).1
      rcases (hregistry parser List.mem_cons_self left).of_readLeft hread with
        ⟨rfl, hpass⟩ | ⟨first, hfirst, hrecognizes⟩
      · have hnone : answered.left = none := hsame.trans hasked
        rcases hend with rfl | hrun
        · rw [hnone] at hfound
          cases hfound
        · obtain ⟨index, hselects⟩ := ih hregistry.tail hrun hnone
          exact ⟨index + 1, .later hpass hselects⟩
      · have hsome : answered.left = some first := hsame.trans (hasked.trans hfirst)
        have hfinal : final.left = some first := by
          rcases hend with rfl | hrun
          · exact hsome
          · exact ((Comparison.Search.keeps_of_run hrun).1 (by simp [hsome])).trans hsome
        obtain rfl := Option.some.inj (hfinal.symm.trans hfound)
        exact ⟨0, .here hrecognizes⟩

theorem exists_selects_right {search final : Comparison.Search} (hregistry : registry.Settled shape)
    (h : Comparison.Search.run left token right context registry search = .ok final)
    (hopen : search.right = none) (hfound : final.right = some operand) :
    ∃ index, Selects right registry index operand := by
  induction registry generalizing search with
  | nil =>
      obtain rfl := Except.ok.inj h
      rw [hopen] at hfound
      cases hfound
  | cons parser rest ih =>
      obtain ⟨asked, answered, hleft, hright, hend⟩ := Comparison.Search.exists_of_run_cons h
      have hnone := (Comparison.Search.keeps_of_tryLeft hleft).1.trans hopen
      obtain ⟨found, hread, hanswered⟩ := Comparison.Search.right_of_tryRight hnone hright
      rcases (hregistry parser List.mem_cons_self right).of_readRight hread with
        ⟨rfl, hpass⟩ | ⟨second, hsecond, hrecognizes⟩
      · rcases hend with rfl | hrun
        · rw [hanswered] at hfound
          cases hfound
        · obtain ⟨index, hselects⟩ := ih hregistry.tail hrun hanswered
          exact ⟨index + 1, .later hpass hselects⟩
      · have hsome : answered.right = some second := hanswered.trans hsecond
        have hfinal : final.right = some second := by
          rcases hend with rfl | hrun
          · exact hsome
          · exact ((Comparison.Search.keeps_of_run hrun).2 (by simp [hsome])).trans hsome
        obtain rfl := Option.some.inj (hfinal.symm.trans hfound)
        exact ⟨0, .here hrecognizes⟩

end Registry

/-- A text without blanks around it which one of the built-in parsers reads as a whole
operand. -/
structure Text.IsOperand (text : Text) : Prop where
  trimmed : Text.trim text = text
  recognized : Registry.builtin.Recognizes text

end Criteria
