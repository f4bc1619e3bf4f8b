import Criteria.Comparison
import Criteria.Proofs.Fallible

/-!
Which parsers the operands of a comparison come from. Each text goes to the first
parser of the registry that recognizes it, whatever becomes of the other text. Only
the operation depends on both: it is that of the parser which stands first, unless
this leaves it open.
-/

namespace Criteria

/-- This operation if it is decided, and `other` if not. -/
def Operation.orElse (op other : Operation) : Operation :=
  if op = .undecided then other else op

@[simp] theorem Operation.undecided_orElse (other : Operation) : undecided.orElse other = other :=
  rfl

theorem Operation.orElse_of_ne {op : Operation} (h : op ≠ .undecided) (other : Operation) :
    op.orElse other = op :=
  if_neg h

namespace Comparison

variable {left token right : Text} {context : Context} {registry rest : Registry}
  {parser : OperandParser} {index : Nat} {reading first second : Reading}

/-- The parser at `index` is the first one that recognizes the left text. -/
inductive SelectsLeft (left token : Text) (context : Context) :
    Registry → (index : Nat) → Reading → Prop
  | here {parser : OperandParser} {rest : Registry} {reading : Reading}
      (hread : parser.readLeft left token context = .ok (some reading)) :
      SelectsLeft left token context (parser :: rest) 0 reading
  | later {parser : OperandParser} {rest : Registry} {index : Nat} {reading : Reading}
      (hpass : parser.readLeft left token context = .ok none)
      (hrest : SelectsLeft left token context rest index reading) :
      SelectsLeft left token context (parser :: rest) (index + 1) reading

/-- The parser at `index` is the first one that recognizes the right text. Which
operand it finds does not depend on the operation that is known so far, and `reading`
is what it finds when none is. -/
inductive SelectsRight (right token : Text) (context : Context) :
    Registry → (index : Nat) → Reading → Prop
  | here {parser : OperandParser} {rest : Registry} {reading : Reading}
      (hread : parser.readRight right token .undecided context = .ok (some reading))
      (hknown : ∀ inferred, ∃ operation, parser.readRight right token inferred context =
        .ok (some { operand := reading.operand, operation })) :
      SelectsRight right token context (parser :: rest) 0 reading
  | later {parser : OperandParser} {rest : Registry} {index : Nat} {reading : Reading}
      (hpass : ∀ inferred, parser.readRight right token inferred context = .ok none)
      (hrest : SelectsRight right token context rest index reading) :
      SelectsRight right token context (parser :: rest) (index + 1) reading

namespace Search

variable {search : Search}

/-- One parser is asked, and the search goes on unless everything is known. -/
theorem run_cons {asked answered : Search}
    (hleft : search.tryLeft parser left token context = .ok asked)
    (hright : asked.tryRight parser right token context = .ok answered) :
    run left token right context (parser :: rest) search =
      if answered.isComplete then .ok answered else run left token right context rest answered := by
  simp only [run, hleft, hright, Except.ok_bind, Except.pure_eq_ok]

theorem tryLeft_of_isSome (h : search.left.isSome) :
    search.tryLeft parser left token context = .ok search :=
  if_pos h

theorem tryRight_of_isSome (h : search.right.isSome) :
    search.tryRight parser right token context = .ok search :=
  if_pos h

theorem tryLeft_of_pass (h : search.left = none)
    (hpass : parser.readLeft left token context = .ok none) :
    search.tryLeft parser left token context = .ok search := by
  simp [tryLeft, h, hpass]

theorem tryRight_of_pass (h : search.right = none)
    (hpass : ∀ inferred, parser.readRight right token inferred context = .ok none) :
    search.tryRight parser right token context = .ok search := by
  simp [tryRight, h, hpass]

theorem tryLeft_of_read (h : search.left = none)
    (hread : parser.readLeft left token context = .ok (some reading)) :
    search.tryLeft parser left token context =
      .ok { search with
        left := some reading.operand
        operation := search.operation.orElse reading.operation } := by
  simp [tryLeft, h, hread, settle, Operation.orElse]

theorem tryRight_of_read (h : search.right = none)
    (hread : parser.readRight right token .undecided context = .ok (some reading))
    (hknown : ∀ inferred, ∃ operation, parser.readRight right token inferred context =
      .ok (some { operand := reading.operand, operation })) :
    search.tryRight parser right token context =
      .ok { search with
        right := some reading.operand
        operation := search.operation.orElse reading.operation } := by
  by_cases hop : search.operation = .undecided
  · simp [tryRight, h, hop, hread, settle]
  · obtain ⟨operation, hother⟩ := hknown search.operation
    simp [tryRight, h, hop, hother, settle, Operation.orElse_of_ne hop]

/-- When both operands are known nothing more is found. -/
theorem run_of_found (search : Search) (hleft : search.left.isSome) (hright : search.right.isSome) :
    run left token right context registry search = .ok search := by
  induction registry with
  | nil => rfl
  | cons parser rest ih =>
      rw [run_cons (tryLeft_of_isSome hleft) (tryRight_of_isSome hright), ih, ite_self]

theorem run_cons_of_found {asked answered : Search}
    (hleft : search.tryLeft parser left token context = .ok asked)
    (hright : asked.tryRight parser right token context = .ok answered)
    (hfoundLeft : answered.left.isSome) (hfoundRight : answered.right.isSome) :
    run left token right context (parser :: rest) search = .ok answered := by
  rw [run_cons hleft hright, run_of_found answered hfoundLeft hfoundRight, ite_self]

theorem run_of_selectsLeft (hleft : search.left = none) (hright : search.right.isSome)
    (hselects : SelectsLeft left token context registry index reading) :
    run left token right context registry search =
      .ok { search with
        left := some reading.operand
        operation := search.operation.orElse reading.operation } := by
  induction hselects with
  | here hread =>
      exact run_cons_of_found (tryLeft_of_read hleft hread) (tryRight_of_isSome hright) rfl hright
  | later hpass _ ih =>
      have hopen : search.isComplete = false := by simp [isComplete, hleft]
      rw [run_cons (tryLeft_of_pass hleft hpass) (tryRight_of_isSome hright), hopen, ih]
      rfl

theorem run_of_selectsRight (hleft : search.left.isSome) (hright : search.right = none)
    (hselects : SelectsRight right token context registry index reading) :
    run left token right context registry search =
      .ok { search with
        right := some reading.operand
        operation := search.operation.orElse reading.operation } := by
  induction hselects with
  | here hread hknown =>
      exact run_cons_of_found (tryLeft_of_isSome hleft) (tryRight_of_read hright hread hknown)
        hleft rfl
  | later hpass _ ih =>
      have hopen : search.isComplete = false := by simp [isComplete, hright]
      rw [run_cons (tryLeft_of_isSome hleft) (tryRight_of_pass hright hpass), hopen, ih]
      rfl

/-! What a search has found stays -/

theorem keeps_of_tryLeft {asked : Search}
    (h : search.tryLeft parser left token context = .ok asked) :
    asked.right = search.right ∧ (search.left.isSome → asked.left = search.left) := by
  unfold tryLeft at h
  split at h
  · obtain rfl := Except.ok.inj h
    exact ⟨rfl, fun _ => rfl⟩
  · next hopen =>
    obtain ⟨found, -, rfl⟩ := Except.map_eq_ok_iff.mp h
    cases found with
    | none => exact ⟨rfl, fun _ => rfl⟩
    | some reading => exact ⟨rfl, fun hfound => absurd hfound hopen⟩

theorem keeps_of_tryRight {asked : Search}
    (h : search.tryRight parser right token context = .ok asked) :
    asked.left = search.left ∧ (search.right.isSome → asked.right = search.right) := by
  unfold tryRight at h
  split at h
  · obtain rfl := Except.ok.inj h
    exact ⟨rfl, fun _ => rfl⟩
  · next hopen =>
    obtain ⟨found, -, rfl⟩ := Except.map_eq_ok_iff.mp h
    cases found with
    | none => exact ⟨rfl, fun _ => rfl⟩
    | some reading => exact ⟨rfl, fun hfound => absurd hfound hopen⟩

theorem left_of_tryLeft {asked : Search} (hopen : search.left = none)
    (h : search.tryLeft parser left token context = .ok asked) :
    ∃ found, parser.readLeft left token context = .ok found ∧
      asked.left = found.map Reading.operand := by
  simp only [tryLeft, hopen, Option.isSome_none, Bool.false_eq_true, if_false] at h
  obtain ⟨found, hread, rfl⟩ := Except.map_eq_ok_iff.mp h
  cases found with
  | none => exact ⟨_, hread, hopen⟩
  | some reading => exact ⟨_, hread, rfl⟩

theorem right_of_tryRight {asked : Search} (hopen : search.right = none)
    (h : search.tryRight parser right token context = .ok asked) :
    ∃ found, parser.readRight right token search.operation context = .ok found ∧
      asked.right = found.map Reading.operand := by
  simp only [tryRight, hopen, Option.isSome_none, Bool.false_eq_true, if_false] at h
  obtain ⟨found, hread, rfl⟩ := Except.map_eq_ok_iff.mp h
  cases found with
  | none => exact ⟨_, hread, hopen⟩
  | some reading => exact ⟨_, hread, rfl⟩

/-- One step of a search that succeeds. -/
theorem exists_of_run_cons {final : Search}
    (h : run left token right context (parser :: rest) search = .ok final) :
    ∃ asked answered, search.tryLeft parser left token context = .ok asked ∧
      asked.tryRight parser right token context = .ok answered ∧
      (answered = final ∨ run left token right context rest answered = .ok final) := by
  obtain ⟨asked, hleft, h⟩ := Except.bind_eq_ok_iff.mp h
  obtain ⟨answered, hright, h⟩ := Except.bind_eq_ok_iff.mp h
  refine ⟨asked, answered, hleft, hright, ?_⟩
  split at h
  · exact .inl (Except.ok.inj h)
  · exact .inr h

theorem keeps_of_run {final : Search}
    (h : run left token right context registry search = .ok final) :
    (search.left.isSome → final.left = search.left) ∧
      (search.right.isSome → final.right = search.right) := by
  induction registry generalizing search with
  | nil =>
      obtain rfl := Except.ok.inj h
      exact ⟨fun _ => rfl, fun _ => rfl⟩
  | cons parser rest ih =>
      obtain ⟨asked, answered, hleft, hright, hend⟩ := exists_of_run_cons h
      obtain ⟨hsameRight, hkeepsLeft⟩ := keeps_of_tryLeft hleft
      obtain ⟨hsameLeft, hkeepsRight⟩ := keeps_of_tryRight hright
      have hanswered : (search.left.isSome → answered.left = search.left) ∧
          (search.right.isSome → answered.right = search.right) := by
        constructor
        · intro hfound
          exact hsameLeft.trans (hkeepsLeft hfound)
        · intro hfound
          exact (hkeepsRight (hsameRight ▸ hfound)).trans hsameRight
      rcases hend with rfl | hrun
      · exact hanswered
      · obtain ⟨hfinalLeft, hfinalRight⟩ := ih hrun
        constructor
        · intro hfound
          have hsame := hanswered.1 hfound
          exact (hfinalLeft (hsame ▸ hfound)).trans hsame
        · intro hfound
          have hsame := hanswered.2 hfound
          exact (hfinalRight (hsame ▸ hfound)).trans hsame

/-- The operation of the parser that stands first counts, and at the same parser that
of the left operand. -/
theorem run_of_selects {i j : Nat} (hleft : SelectsLeft left token context registry i first)
    (hright : SelectsRight right token context registry j second) :
    run left token right context registry {} =
      .ok {
        left := some first.operand
        right := some second.operand
        operation :=
          if i ≤ j then first.operation.orElse second.operation
          else second.operation.orElse first.operation } := by
  induction hleft generalizing j with
  | here hread =>
      cases hright with
      | here hread' hknown =>
          exact run_cons_of_found (tryLeft_of_read rfl hread) (tryRight_of_read rfl hread' hknown)
            rfl rfl
      | later hpass hrest =>
          rw [run_cons (tryLeft_of_read rfl hread) (tryRight_of_pass rfl hpass),
            run_of_selectsRight rfl rfl hrest]
          rfl
  | later hpass hrest ih =>
      cases hright with
      | here hread' hknown =>
          rw [run_cons (tryLeft_of_pass rfl hpass) (tryRight_of_read rfl hread' hknown),
            run_of_selectsLeft rfl rfl hrest]
          rfl
      | later hpass' hrest' =>
          rw [run_cons (tryLeft_of_pass rfl hpass) (tryRight_of_pass rfl hpass'), ih hrest']
          simp only [Nat.add_le_add_iff_right]
          rfl

end Search

end Comparison

end Criteria
