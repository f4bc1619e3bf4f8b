import Criteria.Proofs.Scanning.Tokens

/-!
Parentheses outside quotes. A text is balanced when all its quotes are closed and
every parenthesis outside them has its partner in the text. The interior of a group
is the balanced text up to a closing parenthesis, and there is only one.
-/

namespace Criteria.Lexeme

variable {depth : Nat} {quoting : Quoting} {text before left : Text}

/-- The number of open groups after one more character; `none` when it closes a group
that is not open. -/
def step? (depth : Nat) (quoting : Quoting) (c : Char) : Option Nat :=
  if quoting = .outside ∧ c = '(' then some (depth + 1)
  else if quoting = .outside ∧ c = ')' then
    if depth = 0 then none else some (depth - 1)
  else some depth

/-- The number of groups which are open after a text when `depth` are open before
it. -/
def nesting : (depth : Nat) → Quoting → Text → Option Nat
  | depth, _, [] => some depth
  | depth, quoting, c :: rest =>
      (step? depth quoting c).bind fun depth => nesting depth (quoting.next c) rest

theorem step?_open (depth : Nat) : step? depth .outside '(' = some (depth + 1) := by
  simp [step?]

theorem step?_plain {c : Char} (depth : Nat)
    (h : quoting = .outside → ¬(c = '(' ∨ c = ')')) : step? depth quoting c = some depth := by
  grind [step?]

theorem step?_add {inner : Nat} {c : Char} (h : step? depth quoting c = some inner)
    (outer : Nat) : step? (depth + outer) quoting c = some (inner + outer) := by
  grind [step?]

theorem nesting_append (a b : Text) :
    nesting depth quoting (a ++ b) =
      (nesting depth quoting a).bind fun depth => nesting depth (quoting.run a) b := by
  induction a generalizing depth quoting with
  | nil => rfl
  | cons c rest ih =>
      rw [List.cons_append, nesting, nesting, Quoting.run_cons, Option.bind_assoc]
      exact congrArg _ (funext fun depth => ih)

/-- Groups which are open around a text do not change what it does. -/
theorem nesting_add {inner : Nat} (h : nesting depth quoting text = some inner) (outer : Nat) :
    nesting (depth + outer) quoting text = some (inner + outer) := by
  induction text generalizing depth quoting with
  | nil =>
      obtain rfl : depth = inner := Option.some.inj h
      rfl
  | cons c rest ih =>
      obtain ⟨middle, hstep, hrest⟩ := Option.bind_eq_some_iff.mp h
      rw [nesting, step?_add hstep outer]
      exact ih hrest

theorem nesting_of_avoids (h : Avoids (fun c => c = '(' ∨ c = ')') quoting text) :
    nesting depth quoting text = some depth := by
  induction text generalizing depth quoting with
  | nil => rfl
  | cons c rest ih =>
      rw [nesting, step?_plain depth h.1]
      exact ih h.2

/-- Without closing parentheses the depth grows by the number of opening ones. -/
theorem nesting_of_avoids_close (h : Avoids (· = ')') quoting text) :
    ∃ opened, ∀ depth, nesting depth quoting text = some (depth + opened) := by
  induction text generalizing quoting with
  | nil => exact ⟨0, fun depth => rfl⟩
  | cons c rest ih =>
      obtain ⟨opened, hrest⟩ := ih h.2
      by_cases hopen : quoting = .outside ∧ c = '('
      · obtain ⟨rfl, rfl⟩ := hopen
        refine ⟨opened + 1, ?_⟩
        intro depth
        rw [nesting, step?_open, Option.bind_some, hrest, Nat.add_assoc, Nat.add_comm 1]
      · refine ⟨opened, ?_⟩
        intro depth
        have hplain : quoting = .outside → ¬(c = '(' ∨ c = ')') := by
          rintro hplace (rfl | hclose)
          · exact hopen ⟨hplace, rfl⟩
          · exact h.1 hplace hclose
        rw [nesting, step?_plain depth hplain, Option.bind_some, hrest]

/-- All quotes are closed, and so are all groups. -/
def Balanced (text : Text) : Prop :=
  nesting 0 .outside text = some 0 ∧ Quoting.outside.run text = .outside

instance (text : Text) : Decidable (Balanced text) :=
  inferInstanceAs (Decidable (_ ∧ _))

theorem Balanced.nesting_eq (h : Balanced text) (depth : Nat) :
    nesting depth .outside text = some depth := by
  have houter := nesting_add h.1 depth
  rwa [Nat.zero_add] at houter

@[simp] theorem balanced_nil : Balanced [] := ⟨rfl, rfl⟩

theorem Balanced.append {a b : Text} (ha : Balanced a) (hb : Balanced b) : Balanced (a ++ b) := by
  constructor
  · rw [nesting_append, ha.1, Option.bind_some, ha.2]
    exact hb.1
  · rw [Quoting.run_append, ha.2]
    exact hb.2

theorem balanced_of_avoids (h : Avoids (fun c => c = '(' ∨ c = ')') .outside text)
    (hclosed : Quoting.outside.run text = .outside) : Balanced text :=
  ⟨nesting_of_avoids h, hclosed⟩

theorem balanced_of_forall (h : ∀ c ∈ text, c ≠ '"' ∧ c ≠ '(' ∧ c ≠ ')') : Balanced text := by
  refine balanced_of_avoids (avoids_of_forall fun c hc => ?_)
    (run_of_forall_ne_quote fun c hc => (h c hc).1)
  rintro (hopen | hclose)
  · exact (h c hc).2.1 hopen
  · exact (h c hc).2.2 hclose

theorem balanced_of_blank (h : Text.Blank text) : Balanced text := by
  apply balanced_of_forall
  intro c hc
  refine ⟨?_, ?_, ?_⟩
  all_goals
    rintro rfl
    exact absurd (h _ hc) (by decide)

/-- A group around a balanced text is balanced. -/
theorem Balanced.group (h : Balanced text) : Balanced ('(' :: (text ++ [')'])) := by
  constructor
  · rw [nesting, step?_open, Option.bind_some, show Quoting.outside.next '(' = .outside from rfl,
      nesting_append, h.nesting_eq, h.2]
    rfl
  · rw [Quoting.run_cons, show Quoting.outside.next '(' = .outside from rfl, Quoting.run_append,
      h.2]
    rfl

/-- One character before the closing parenthesis. -/
theorem splitBeforeClose?_cons {inner : Nat} {c : Char}
    (hstep : step? depth quoting c = some inner) :
    splitBeforeClose? depth quoting (c :: text) =
      (splitBeforeClose? inner (quoting.next c) text).map
        fun (before, left) => (c :: before, left) := by
  rw [splitBeforeClose?.eq_def]
  grind [step?]

theorem splitBeforeClose?_of_step?_eq_none {c : Char} (hstep : step? depth quoting c = none) :
    splitBeforeClose? depth quoting (c :: text) = some ([], c :: text) := by
  rw [splitBeforeClose?.eq_def]
  grind [step?]

theorem step?_eq_none_iff {c : Char} :
    step? depth quoting c = none ↔ depth = 0 ∧ quoting = .outside ∧ c = ')' := by
  grind [step?]

theorem splitBeforeClose?_eq_some_iff :
    splitBeforeClose? depth quoting text = some (before, left) ↔
      text = before ++ left ∧ left.head? = some ')' ∧ nesting depth quoting before = some 0 ∧
        quoting.run before = .outside := by
  induction text generalizing depth quoting before with
  | nil =>
      simp only [splitBeforeClose?, reduceCtorEq, false_iff]
      rintro ⟨hsplit, hclose, -, -⟩
      obtain ⟨rfl, rfl⟩ := List.append_eq_nil_iff.mp hsplit.symm
      simp at hclose
  | cons c rest ih =>
      cases hstep : step? depth quoting c with
      | none =>
          obtain ⟨rfl, rfl, rfl⟩ := step?_eq_none_iff.mp hstep
          rw [splitBeforeClose?_of_step?_eq_none hstep]
          constructor
          · rintro ⟨⟩
            exact ⟨rfl, rfl, rfl, rfl⟩
          · rintro ⟨hsplit, -, hdepth, -⟩
            cases before with
            | nil => rw [hsplit, List.nil_append]
            | cons d before =>
                obtain ⟨rfl, -⟩ := List.cons_eq_cons.mp hsplit
                simp [nesting, hstep] at hdepth
      | some inner =>
          rw [splitBeforeClose?_cons hstep]
          constructor
          · intro h
            obtain ⟨⟨before', left'⟩, hfound, hsame⟩ := Option.map_eq_some_iff.mp h
            obtain ⟨rfl, rfl⟩ := Prod.mk.inj hsame
            obtain ⟨rfl, hclose, hdepth, hclosed⟩ := ih.mp hfound
            exact ⟨rfl, hclose, by rw [nesting, hstep]; exact hdepth, hclosed⟩
          · rintro ⟨hsplit, hclose, hdepth, hclosed⟩
            cases before with
            | nil =>
                -- the closing parenthesis would have stopped the search
                rw [List.nil_append] at hsplit
                rw [← hsplit, List.head?_cons, Option.some.injEq] at hclose
                have hstop : step? depth quoting c = none :=
                  step?_eq_none_iff.mpr ⟨Option.some.inj hdepth, hclosed, hclose⟩
                rw [hstop] at hstep
                cases hstep
            | cons d before =>
                obtain ⟨rfl, rfl⟩ := List.cons_eq_cons.mp hsplit
                rw [nesting, hstep, Option.bind_some] at hdepth
                rw [ih.mpr ⟨rfl, hclose, hdepth, hclosed⟩]
                rfl

/-- A text in which no group ends that is not opened in it is passed over. -/
theorem splitBeforeClose?_of_nesting {inner : Nat} (h : nesting depth quoting text = some inner)
    (following : Text) :
    splitBeforeClose? depth quoting (text ++ following) =
      (splitBeforeClose? inner (quoting.run text) following).map
        fun (before, left) => (text ++ before, left) := by
  induction text generalizing depth quoting with
  | nil =>
      obtain rfl := Option.some.inj h
      simp
  | cons c rest ih =>
      obtain ⟨middle, hstep, hrest⟩ := Option.bind_eq_some_iff.mp h
      rw [List.cons_append, splitBeforeClose?_cons hstep, ih hrest, Option.map_map]
      rfl

theorem exists_of_nesting_eq_none (h : nesting depth quoting text = none) :
    ∃ before left, splitBeforeClose? depth quoting text = some (before, left) := by
  induction text generalizing depth quoting with
  | nil => cases h
  | cons c rest ih =>
      cases hstep : step? depth quoting c with
      | none => exact ⟨[], c :: rest, splitBeforeClose?_of_step?_eq_none hstep⟩
      | some inner =>
          rw [nesting, hstep, Option.bind_some] at h
          obtain ⟨before, left, hsplit⟩ := ih h
          exact ⟨c :: before, left, by rw [splitBeforeClose?_cons hstep, hsplit]; rfl⟩

/-- The interior of a group is the balanced text before a closing parenthesis. -/
theorem group?_eq_some_iff {interior : Text} :
    group? text = some (interior, left) ↔
      text = interior ++ left ∧ left.head? = some ')' ∧ Balanced interior :=
  splitBeforeClose?_eq_some_iff

end Criteria.Lexeme
