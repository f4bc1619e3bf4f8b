import Criteria.Proofs.Operand.Measures

/-!
The search for the operands of a comparison is a selection. The loop looks for both
operands at once, tells a parser what is known of the operation so far and stops early.
None of this shows in what it finds: each text has its own first parser, and the places of
the two parsers alone decide whose operation counts.
-/

namespace Criteria

namespace OperandParser

variable {parser : OperandParser} {text token : Text} {context : Context}

/-- What the parser reads on the left, unless it finds the text malformed. -/
def onLeft? (parser : OperandParser) (text token : Text) (context : Context) : Option Reading :=
  (parser.readLeft text token context).toOption.join

/-- What the parser reads on the right when no operation is known, unless it finds the text
malformed. -/
def onRight? (parser : OperandParser) (text token : Text) (context : Context) : Option Reading :=
  (parser.readRight text token .undecided context).toOption.join

/-- What the parser recognizes on the right does not depend on the operation that is known. -/
def Steady (parser : OperandParser) : Prop :=
  ∀ (text token : Text) (inferred : Operation) (context : Context) (found known : Option Reading),
    parser.readRight text token .undecided context = .ok found →
    parser.readRight text token inferred context = .ok known →
      known.map Reading.operand = found.map Reading.operand

theorem readLeft_eq (h : (parser.readLeft text token context).isOk) :
    parser.readLeft text token context = .ok (parser.onLeft? text token context) := by
  obtain ⟨found, hread⟩ := Except.exists_of_isOk h
  rw [onLeft?, hread]
  rfl

theorem readRight_eq (h : (parser.readRight text token .undecided context).isOk) :
    parser.readRight text token .undecided context = .ok (parser.onRight? text token context) := by
  obtain ⟨found, hread⟩ := Except.exists_of_isOk h
  rw [onRight?, hread]
  rfl

theorem Steady.exists_readRight (hsteady : parser.Steady)
    (h : ∀ inferred, (parser.readRight text token inferred context).isOk) (inferred : Operation) :
    ∃ known, parser.readRight text token inferred context = .ok known ∧
      known.map Reading.operand = (parser.onRight? text token context).map Reading.operand := by
  obtain ⟨known, hknown⟩ := Except.exists_of_isOk (h inferred)
  exact ⟨known, hknown, hsteady _ _ _ _ _ _ (readRight_eq (h .undecided)) hknown⟩

/-- A parser is steady when the text alone decides what it makes of it. -/
theorem steady_of_settles {shape : Text → Prop} (h : ∀ text, parser.Settles shape text) :
    parser.Steady := by
  intro text token inferred context found known hfound hknown
  rcases (h text).of_readRight hfound with ⟨rfl, hpass⟩ | ⟨first, hfirst, hrecognizes⟩
  · rcases (h text).of_readRight hknown with ⟨rfl, -⟩ | ⟨second, -, hsecond⟩
    · rfl
    · exact absurd hsecond hpass.not_recognizes
  · rcases (h text).of_readRight hknown with ⟨-, hpass⟩ | ⟨second, hsecond, hrecognizes'⟩
    · exact absurd hrecognizes hpass.not_recognizes
    · rw [hfirst, hsecond, hrecognizes.unique hrecognizes']

end OperandParser

namespace Registry

/-- No parser finds one of the two texts malformed. -/
structure Answers (registry : Registry) (left token right : Text) (context : Context) : Prop where
  left : ∀ parser ∈ registry, (parser.readLeft left token context).isOk
  right : ∀ parser ∈ registry, ∀ inferred, (parser.readRight right token inferred context).isOk

theorem Answers.tail {parser : OperandParser} {rest : Registry} {left token right : Text}
    {context : Context} (h : Answers (parser :: rest) left token right context) :
    Answers rest left token right context where
  left other hother := h.left other (List.mem_cons_of_mem parser hother)
  right other hother := h.right other (List.mem_cons_of_mem parser hother)

end Registry

namespace Comparison

/-- The operands that the first parsers to recognize the texts read. Of their operations
that of the parser which stands first counts unless it is undecided, and at the same parser
that of the left operand. -/
def select (left token right : Text) (registry : Registry) (context : Context) :
    Except Error Resolved :=
  let onLeft (parser : OperandParser) := parser.onLeft? left token context
  let onRight (parser : OperandParser) := parser.onRight? right token context
  match registry.findSome? onLeft, registry.findSome? onRight with
  | none, _ => .error (.script (.unrecognizedLeft left))
  | some _, none => .error (.script (.unrecognizedRight right))
  | some first, some second =>
      let operation :=
        if registry.findIdx (fun parser => (onLeft parser).isSome) ≤
            registry.findIdx (fun parser => (onRight parser).isSome)
        then first.operation.orElse second.operation
        else second.operation.orElse first.operation
      if operation = .undecided then .error (.script (.unrecognizedComparison token left right))
      else .ok { left := first.operand, right := second.operand, operation }

variable {left token right : Text} {context : Context} {registry rest : Registry}
  {parser : OperandParser} {reading : Reading}

/-! What a search finds -/

namespace Search

theorem exists_tryLeft (search : Search) (h : (parser.readLeft left token context).isOk) :
    ∃ asked, search.tryLeft parser left token context = .ok asked ∧
      asked.left = search.left.or ((parser.onLeft? left token context).map Reading.operand) ∧
      asked.right = search.right := by
  have hread := OperandParser.readLeft_eq h
  cases hknown : search.left with
  | some operand => exact ⟨search, tryLeft_of_isSome (by simp [hknown]), by simp [hknown], rfl⟩
  | none =>
      cases hfound : parser.onLeft? left token context with
      | none =>
          rw [hfound] at hread
          exact ⟨search, tryLeft_of_pass hknown hread, hknown, rfl⟩
      | some reading =>
          rw [hfound] at hread
          exact ⟨_, tryLeft_of_read hknown hread, rfl, rfl⟩

theorem exists_tryRight (search : Search) (hsteady : parser.Steady)
    (h : ∀ inferred, (parser.readRight right token inferred context).isOk) :
    ∃ asked, search.tryRight parser right token context = .ok asked ∧
      asked.left = search.left ∧
      asked.right =
        search.right.or ((parser.onRight? right token context).map Reading.operand) := by
  cases hknown : search.right with
  | some operand => exact ⟨search, tryRight_of_isSome (by simp [hknown]), rfl, by simp [hknown]⟩
  | none =>
      obtain ⟨known, hread, hsame⟩ := hsteady.exists_readRight h search.operation
      rw [← hsame, tryRight, hknown, hread]
      cases known with
      | none => exact ⟨search, rfl, rfl, hknown⟩
      | some reading => exact ⟨_, rfl, rfl, rfl⟩

theorem map_findSome?_cons (recognize : OperandParser → Option Reading) :
    ((parser :: rest).findSome? recognize).map Reading.operand =
      ((recognize parser).map Reading.operand).or
        ((rest.findSome? recognize).map Reading.operand) := by
  rw [List.findSome?_cons]
  cases recognize parser <;> rfl

/-- What is known stays, and what is not known yet comes from the first parser that
recognizes the text, also when the search stops before the end of the registry. -/
theorem exists_run (hanswers : registry.Answers left token right context)
    (hsteady : ∀ parser ∈ registry, parser.Steady) (search : Search) :
    ∃ final, run left token right context registry search = .ok final ∧
      final.left = search.left.or
        ((registry.findSome? (·.onLeft? left token context)).map Reading.operand) ∧
      final.right = search.right.or
        ((registry.findSome? (·.onRight? right token context)).map Reading.operand) := by
  induction registry generalizing search with
  | nil => exact ⟨search, rfl, by simp, by simp⟩
  | cons parser rest ih =>
      obtain ⟨asked, hasked, haskedLeft, haskedRight⟩ :=
        search.exists_tryLeft (hanswers.left parser List.mem_cons_self)
      obtain ⟨answered, hanswered, hansweredLeft, hansweredRight⟩ :=
        asked.exists_tryRight (hsteady parser List.mem_cons_self)
          (hanswers.right parser List.mem_cons_self)
      rw [haskedLeft] at hansweredLeft
      rw [haskedRight] at hansweredRight
      rw [run_cons hasked hanswered, map_findSome?_cons, map_findSome?_cons, ← Option.or_assoc,
        ← Option.or_assoc, ← hansweredLeft, ← hansweredRight]
      by_cases hcomplete : answered.isComplete = true
      · rw [if_pos hcomplete]
        simp only [isComplete, Bool.and_eq_true] at hcomplete
        obtain ⟨⟨hleft, hright⟩, -⟩ := hcomplete
        exact ⟨answered, rfl, (Option.or_of_isSome hleft).symm, (Option.or_of_isSome hright).symm⟩
      · rw [if_neg hcomplete]
        exact ih hanswers.tail (fun other hother => hsteady other (List.mem_cons_of_mem _ hother))
          answered

end Search

/-! Which parsers the operands come from -/

theorem selectsLeft_of_findSome? (hanswers : registry.Answers left token right context)
    (h : registry.findSome? (·.onLeft? left token context) = some reading) :
    SelectsLeft left token context registry
      (registry.findIdx fun parser => (parser.onLeft? left token context).isSome) reading := by
  induction registry with
  | nil => cases h
  | cons parser rest ih =>
      have hread := OperandParser.readLeft_eq (hanswers.left parser List.mem_cons_self)
      rw [List.findSome?_cons] at h
      rw [List.findIdx_cons]
      cases hfound : parser.onLeft? left token context with
      | none =>
          rw [hfound] at hread h
          exact .later hread (ih hanswers.tail h)
      | some first =>
          rw [hfound] at hread h
          obtain rfl := Option.some.inj h
          exact .here hread

theorem selectsRight_of_findSome? (hanswers : registry.Answers left token right context)
    (hsteady : ∀ parser ∈ registry, parser.Steady)
    (h : registry.findSome? (·.onRight? right token context) = some reading) :
    SelectsRight right token context registry
      (registry.findIdx fun parser => (parser.onRight? right token context).isSome) reading := by
  induction registry with
  | nil => cases h
  | cons parser rest ih =>
      have hright := hanswers.right parser List.mem_cons_self
      have hread := OperandParser.readRight_eq (hright .undecided)
      have hknown := (hsteady parser List.mem_cons_self).exists_readRight hright
      rw [List.findSome?_cons] at h
      rw [List.findIdx_cons]
      cases hfound : parser.onRight? right token context with
      | none =>
          rw [hfound] at hknown h
          refine .later (fun inferred => ?_) (ih hanswers.tail
            (fun other hother => hsteady other (List.mem_cons_of_mem _ hother)) h)
          obtain ⟨known, hother, hsame⟩ := hknown inferred
          rw [hother, Option.map_eq_none_iff.mp hsame]
      | some second =>
          rw [hfound] at hread hknown h
          obtain rfl := Option.some.inj h
          refine .here hread fun inferred => ?_
          obtain ⟨known, hother, hsame⟩ := hknown inferred
          obtain ⟨other, rfl, hoperand⟩ := Option.map_eq_some_iff.mp hsame
          exact ⟨other.operation, by rw [hother, ← hoperand]⟩

/-- With parsers which recognize the same on the right whatever operation is known, as all
parsers of the library do, the operands of a comparison and its operation are those of the
selection, unless a parser finds one of the texts malformed. So is the reason why there are
none. -/
theorem resolve_eq_select :
    (∀ parser ∈ Registry.full, parser.Steady) ∧
    ∀ (registry : Registry) (left token right : Text) (context : Context),
      registry.Answers left token right context → (∀ parser ∈ registry, parser.Steady) →
        resolve left token right registry context = select left token right registry context := by
  constructor
  · intro parser hparser
    exact OperandParser.steady_of_settles
      (Registry.settled_of_subset (List.Subset.refl _) parser hparser)
  · intro registry left token right context hanswers hsteady
    obtain ⟨final, hrun, hleft, hright⟩ := Search.exists_run hanswers hsteady {}
    rw [Option.none_or] at hleft hright
    rw [resolve, hrun, Except.ok_bind, select]
    cases hfirst : registry.findSome? (·.onLeft? left token context) with
    | none =>
        rw [hfirst] at hleft
        simp only [hleft, Option.map_none, Except.throw_eq_error]
    | some first =>
        rw [hfirst] at hleft
        cases hsecond : registry.findSome? (·.onRight? right token context) with
        | none =>
            rw [hsecond] at hright
            simp only [hleft, hright, Option.map_none, Option.map_some, Except.throw_eq_error]
        | some second =>
            have hselects := Search.run_of_selects (selectsLeft_of_findSome? hanswers hfirst)
              (selectsRight_of_findSome? hanswers hsteady hsecond)
            obtain rfl := Except.ok.inj (hrun.symm.trans hselects)
            rfl

/-- A symbol stands before percentages, so that its list decides what is asked. Without an
operand on the left nothing is said of the one on the right, and two symbols without a value
leave the operation open. -/
theorem resolve_eq_select_full :
    let context : Context := { values := [("tags".toList, .list [.text ['a']])], isDefault := true }
    let texts := [("5%".toList, "tags".toList), (['@'], ['@']), (['1'], ['@']), (['a'], ['b'])]
    (∀ pair ∈ texts, resolve pair.1 ['<'] pair.2 .full context =
      select pair.1 ['<'] pair.2 .full context) ∧
    texts.map (fun pair => (resolve pair.1 ['<'] pair.2 .full context).map fun resolved =>
        (resolved.left.source, resolved.operation, resolved.right.source)) =
      [.ok ("5%".toList, .contained, "tags".toList),
        .error (.script (.unrecognizedLeft ['@'])), .error (.script (.unrecognizedRight ['@'])),
        .error (.script (.unrecognizedComparison ['<'] ['a'] ['b']))] := by
  intro context texts
  refine ⟨fun pair hpair => ?_, by decide +kernel⟩
  obtain ⟨hsteady, hselects⟩ := resolve_eq_select
  have hleft : ∀ pair ∈ texts, ∀ parser ∈ Registry.full,
      (parser.readLeft pair.1 ['<'] context).isOk := by
    decide +kernel
  have hright : ∀ pair ∈ texts, ∀ parser ∈ Registry.full, ∀ inferred ∈ Operation.all,
      (parser.readRight pair.2 ['<'] inferred context).isOk := by
    decide +kernel
  exact hselects _ _ _ _ _ ⟨hleft pair hpair, fun parser hparser inferred =>
    hright pair hpair parser hparser inferred (Operation.mem_all inferred)⟩ hsteady

end Comparison

end Criteria
