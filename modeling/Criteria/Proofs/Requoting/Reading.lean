import Criteria.Comparison
import Criteria.Proofs.Layout.Coverage
import Criteria.Proofs.Requoting

/-!
What stands in a literal has no say in how a script is read. Two scripts which differ
in one literal are read in step: both have the same fault, or their clauses correspond,
and the comparison with the literal is split at the same comparator.
-/

namespace Criteria

/-- Two readings give related results, or they end with the same fault. -/
inductive EndsAlike {α β : Type} (related : α → β → Prop) : Except Error α → Except Error β → Prop
  | ok {a : α} {b : β} (h : related a b) : EndsAlike related (.ok a) (.ok b)
  | fault (fault : FormatFault) (fragment fragment' : Text) (position position' : Nat) :
      EndsAlike related (.error (.format fault fragment position))
        (.error (.format fault fragment' position'))

namespace EndsAlike

variable {α β γ δ : Type} {related : α → β → Prop} {wanted : γ → δ → Prop}
  {x : Except Error α} {y : Except Error β}

theorem bind {f : α → Except Error γ} {g : β → Except Error δ} (h : EndsAlike related x y)
    (hnext : ∀ a b, x = .ok a → related a b → EndsAlike wanted (f a) (g b)) :
    EndsAlike wanted (x >>= f) (y >>= g) := by
  cases h with
  | ok hrelated => exact hnext _ _ rfl hrelated
  | fault fault => exact .fault fault _ _ _ _

theorem map {f : α → γ} {g : β → δ} (h : EndsAlike related x y)
    (hnext : ∀ a b, related a b → wanted (f a) (g b)) : EndsAlike wanted (x.map f) (y.map g) := by
  cases h with
  | ok hrelated => exact .ok (hnext _ _ hrelated)
  | fault fault => exact .fault fault _ _ _ _

end EndsAlike

variable {old new : Text} {place : Nat}

/-- Two comparisons are split at the same comparator, or neither is split. Of the
operands one has the literal, and the other is the same. -/
inductive Comparison.SplitsAlike (old new : Text) :
    Option (Text × Text × Text) → Option (Text × Text × Text) → Prop
  | none : SplitsAlike old new none none
  | left (before after token right : Text) :
      SplitsAlike old new (some (before ++ (old ++ after), token, right))
        (some (before ++ (new ++ after), token, right))
  | right (left token before after : Text) :
      SplitsAlike old new (some (left, token, before ++ (old ++ after)))
        (some (left, token, before ++ (new ++ after)))

theorem Connective.quote_not_mem_token : ∀ token ∈ tokens, '"' ∉ token := by
  decide

theorem Comparison.splitsAlike {before : Text} (hold : Text.Literal old) (hnew : Text.Literal new)
    (hclosed : Quoting.outside.run before = .outside) (after : Text) :
    SplitsAlike old new (split? (before ++ (old ++ after)))
      (split? (before ++ (new ++ after))) := by
  rcases Lexeme.splitAtToken_literal hclosed Operation.quote_not_mem_comparator after with
    ⟨left, token, gap, -, -, hsplit⟩ | hsplit
  · simp only [split?, hsplit old hold, hsplit new hnew, Text.trim_literal hold,
      Text.trim_literal hnew]
    exact .right _ _ _ _
  · simp only [split?, hsplit old hold, hsplit new hnew]
    rcases Lexeme.splitAtToken Operation.comparators after with ⟨gap, _ | token, right⟩
    · exact .none
    · simp only [Text.trim_literal hold, Text.trim_literal hnew]
      exact .left _ _ _ _

namespace Clause

/-- Two clauses have the same structure. Their comparisons are the same before the
literal and, at places which have moved, behind it. The one around it has the one
literal at the place of the other. -/
inductive Requoted (old new : Text) (place : Nat) : Side → Clause → Clause → Prop
  | apart {side : Side} (text : Text) {position moved : Nat} (hside : side ≠ .around)
      (hmoves : side.Moves old new position moved) :
      Requoted old new place side (comparison text position) (comparison text moved)
  | around {before after : Text} {position : Nat} (hplace : position + before.byteLength = place)
      (hsplits : Comparison.SplitsAlike old new (Comparison.split? (before ++ (old ++ after)))
        (Comparison.split? (before ++ (new ++ after)))) :
      Requoted old new place .around (comparison (before ++ (old ++ after)) position)
        (comparison (before ++ (new ++ after)) position)
  | group {side : Side} (negated : Bool) {inner inner' : Clause}
      (hinner : Requoted old new place side inner inner') :
      Requoted old new place side (group negated inner) (group negated inner')
  | logic {side first second : Side} (connective : Connective) {left left' right right' : Clause}
      (hsides : side.Splits first second) (hleft : Requoted old new place first left left')
      (hright : Requoted old new place second right right') :
      Requoted old new place side (logic left connective right) (logic left' connective right')

theorem requoted_comparison {text text' : Text} {position position' : Nat} {side : Side}
    (h : Cursor.Requoted old new place (.start text position) (.start text' position') side) :
    Requoted old new place side (comparison text position) (comparison text' position') := by
  cases h with
  | apart hside hrest hmoves =>
      obtain rfl : text = text' := hrest
      exact .apart text hside hmoves
  | around hfaces =>
      obtain rfl : text = _ := hfaces.rest_eq
      obtain rfl : text' = _ := hfaces.other_rest_eq
      obtain rfl : position = position' := hfaces.position_eq
      exact .around hfaces.place_eq
        (Comparison.splitsAlike hfaces.old_literal hfaces.new_literal hfaces.closed _)

/-! Chains of clauses -/

/-- The members of two chains behind the first one correspond. -/
inductive RequotedMembers (old new : Text) (place : Nat) :
    Side → List (Connective × Clause) → List (Connective × Clause) → Prop
  | nil {side : Side} (hside : side ≠ .around) : RequotedMembers old new place side [] []
  | cons {side first rest : Side} (connective : Connective) {clause clause' : Clause}
      {members members' : List (Connective × Clause)} (hsides : side.Splits first rest)
      (hclause : Requoted old new place first clause clause')
      (hmembers : RequotedMembers old new place rest members members') :
      RequotedMembers old new place side ((connective, clause) :: members)
        ((connective, clause') :: members')

def Chain.Requoted (old new : Text) (place : Nat) (side : Side) (chain chain' : Chain) : Prop :=
  ∃ first rest, side.Splits first rest ∧ Clause.Requoted old new place first chain.1 chain'.1 ∧
    RequotedMembers old new place rest chain.2 chain'.2

theorem Chain.Requoted.ofChain {side : Side} {chain chain' : Chain}
    (h : Chain.Requoted old new place side chain chain') :
    Clause.Requoted old new place side (ofChain chain) (ofChain chain') := by
  obtain ⟨clause, members⟩ := chain
  obtain ⟨clause', members'⟩ := chain'
  obtain ⟨first, rest, hsides, hclause, hmembers⟩ := h
  simp only [Clause.ofChain]
  simp only at hclause hmembers
  -- the clause folded so far is the first of two pieces, the remaining members are the second
  induction hmembers generalizing side first clause clause' with
  | nil hside => exact hsides.eq_of_ne hside ▸ hclause
  | cons connective hinner hmember hmembers ih =>
      obtain ⟨joined, hjoined, hwhole⟩ := hsides.assoc hinner
      exact ih _ _ joined hwhole (.logic connective hjoined hclause hmember)

/-! Terms -/

/-- Two terms and the cursors behind them correspond. -/
inductive Term.Requoted (old new : Text) (place : Nat) (side : Side) : Term → Term → Prop
  | comparison {text text' : Text} {position position' : Nat} (next : Option Connective)
      {after after' : Cursor} (hend : next = none → after.rest = [])
      (hcut : Cursor.Cut old new place side (.start text position) (.start text' position')
        after after') :
      Requoted old new place side (.comparison text position next after)
        (.comparison text' position' next after')
  | group (negated : Bool) {interior interior' : Text} {position position' : Nat}
      {after after' : Cursor}
      (hcut : Cursor.Cut old new place side (.start interior position)
        (.start interior' position') after after') :
      Requoted old new place side (.group negated interior position after)
        (.group negated interior' position' after')

variable {side : Side} {cursor other : Cursor}

theorem rest_takeUntil_eq_nil (cursor : Cursor)
    (h : (cursor.takeUntil Connective.tokens).2.1.bind Connective.ofToken? = none) :
    (cursor.takeUntil Connective.tokens).2.2.rest = [] := by
  rw [Cursor.takeUntil] at h ⊢
  rcases hsplit : Lexeme.splitAtToken Connective.tokens cursor.rest with ⟨fragment, _ | token, left⟩
  · exact (Lexeme.splitAtToken_eq_none hsplit).2.1
  · obtain ⟨-, -, hvisible⟩ := Lexeme.splitAtToken_eq_some hsplit
    obtain ⟨-, hmem, -, -⟩ := Lexeme.visibleToken?_eq_some hvisible
    obtain ⟨connective, rfl⟩ := eq_token_of_mem hmem
    simp [hsplit, ofToken?_token] at h

theorem Term.readComparison_requoted (h : cursor.Requoted old new place other side)
    (hstart : cursor.rest.StartsFull) :
    EndsAlike (Term.Requoted old new place side) (readComparison cursor)
      (readComparison other) := by
  obtain ⟨htoken, first, rest, hsides, hpiece, hnext⟩ := h.takeUntil Connective.quote_not_mem_token
  have hfull : (cursor.takeUntil Connective.tokens).1.StartsFull := by
    obtain ⟨taken, ⟨more, hprefix⟩, hsplit⟩ :=
      Lexeme.exists_append_splitAtToken Connective.tokens cursor.rest
    rw [hsplit, ← hprefix, List.append_assoc] at hstart
    exact hstart.of_append
  have hend := rest_takeUntil_eq_nil cursor
  have htrim := hpiece.trim hfull
  simp only [readComparison]
  generalize cursor.takeUntil Connective.tokens = taken at *
  generalize other.takeUntil Connective.tokens = taken' at *
  obtain ⟨fragment, token, after⟩ := taken
  obtain ⟨fragment', token', after'⟩ := taken'
  obtain rfl : token = token' := htoken
  have hquote : ∀ token ∈ [[')']], '"' ∉ token := by decide
  have hclose := (htrim.takeUntil hquote).1
  simp only [Cursor.takeUntil, Cursor.start_rest] at hclose
  have hempty : Text.trim fragment = [] ↔ Text.trim fragment' = [] := htrim.rest_eq_nil_iff
  by_cases hblank : Text.trim fragment = []
  · simp only [hblank, hempty.mp hblank, List.isEmpty_nil, if_true]
    exact .fault _ _ _ _ _
  · simp only [List.isEmpty_iff, hblank, mt hempty.mpr hblank, if_false]
    generalize Lexeme.splitAtToken [[')']] (Text.trim fragment) = parts at hclose ⊢
    generalize Lexeme.splitAtToken [[')']] (Text.trim fragment') = parts' at hclose ⊢
    obtain ⟨before, found, left⟩ := parts
    obtain ⟨before', found', left'⟩ := parts'
    obtain rfl : found = found' := hclose
    cases found with
    | none => exact .ok (.comparison _ hend ⟨first, rest, hsides, htrim, hnext⟩)
    | some found => exact .fault _ _ _ _ _

theorem Term.readGroup_requoted {start start' : Nat} {negated : Bool} {opened opened' : Cursor}
    (h : opened.Requoted old new place opened' side) :
    EndsAlike (Term.Requoted old new place side) (readGroup start negated cursor opened)
      (readGroup start' negated other opened') := by
  have hgroup := h.takeGroup
  simp only [readGroup]
  generalize opened.takeGroup = taken at hgroup ⊢
  generalize opened'.takeGroup = taken' at hgroup ⊢
  obtain ⟨interior, closing⟩ := taken
  obtain ⟨interior', closing'⟩ := taken'
  rcases hgroup with ⟨rfl, rfl⟩ | ⟨interior, interior', rfl, rfl, hcut⟩
  · exact .fault _ _ _ _ _
  · obtain ⟨first, rest, hsides, hinterior, hnext⟩ := hcut
    have hclose := hnext.skipChar? (c := ')') (by decide)
    simp only
    generalize closing.skipChar? ')' = after at hclose ⊢
    generalize closing'.skipChar? ')' = after' at hclose ⊢
    cases hclose with
    | none => exact .fault _ _ _ _ _
    | some hafter => exact .ok (.group negated ⟨first, rest, hsides, hinterior, hafter⟩)

theorem Term.read_requoted (h : cursor.Requoted old new place other side)
    (hstart : cursor.rest.StartsFull) :
    EndsAlike (Term.Requoted old new place side) (read cursor) (read other) := by
  have hmark := h.skipChar? (c := '!') (by decide)
  have hopen := h.skipChar? (c := '(') (by decide)
  simp only [read]
  generalize cursor.skipChar? '!' = negation at hmark ⊢
  generalize other.skipChar? '!' = negation' at hmark ⊢
  cases hmark with
  | none =>
      simp only
      generalize cursor.skipChar? '(' = opened at hopen ⊢
      generalize other.skipChar? '(' = opened' at hopen ⊢
      cases hopen with
      | none => exact readComparison_requoted h hstart
      | some hopened => exact readGroup_requoted hopened
  | @some negation negation' hnegation =>
      have hinside := hnegation.skipBlanks.skipChar? (c := '(') (by decide)
      simp only
      generalize negation.skipBlanks.skipChar? '(' = opened at hinside ⊢
      generalize negation'.skipBlanks.skipChar? '(' = opened' at hinside ⊢
      cases hinside with
      | none => exact .fault _ _ _ _ _
      | some hopened => exact readGroup_requoted hopened

/-! What joins a term to the next one -/

/-- The readers go on at counterparts, or they are both done and behind the literal if
there was one ahead. -/
inductive Follows (old new : Text) (place : Nat) (side : Side) :
    Option (Connective × Cursor) → Option (Connective × Cursor) → Prop
  | last (hside : side ≠ .around) : Follows old new place side none none
  | joined (connective : Connective) {next next' : Cursor}
      (hnext : next.Requoted old new place next' side) :
      Follows old new place side (some (connective, next)) (some (connective, next'))

theorem readConnective_requoted (h : cursor.Requoted old new place other side) :
    EndsAlike (fun found found' => found.1 = found'.1 ∧
        found.2.Requoted old new place found'.2 side ∧ (found.1 = none → side ≠ .around))
      (readConnective cursor) (readConnective other) := by
  have hskip := h.skipBlanks
  simp only [readConnective]
  generalize cursor.skipBlanks = here at hskip ⊢
  generalize other.skipBlanks = here' at hskip ⊢
  have htoken := hskip.tokenAt?_eq Connective.quote_not_mem_token
  by_cases hend : here.rest = []
  · simp only [Cursor.atEnd, hend, hskip.rest_eq_nil_iff.mp hend, List.isEmpty_nil, if_true]
    exact .ok ⟨rfl, hskip, fun _ => hskip.ne_around hend⟩
  · simp only [Cursor.atEnd, List.isEmpty_iff, hend, mt hskip.rest_eq_nil_iff.mpr hend, if_false,
      ← htoken]
    cases hfound : Lexeme.tokenAt? Connective.tokens here.rest with
    | none => exact .fault _ _ _ _ _
    | some token =>
        obtain ⟨connective, rfl, -⟩ := eq_of_tokenAt? hfound
        refine .ok ⟨rfl, hskip.dropToken Connective.quote_not_mem_token hfound, fun hnone => ?_⟩
        simp [ofToken?_token] at hnone

theorem readNext_requoted (next : Option Connective) (h : cursor.Requoted old new place other side)
    (hlast : next = none → side ≠ .around) :
    EndsAlike (Follows old new place side) (readNext next cursor) (readNext next other) := by
  cases next with
  | none => exact .ok (.last (hlast rfl))
  | some connective =>
      have hskip := h.skipBlanks
      simp only [readNext]
      by_cases hend : cursor.skipBlanks.rest = []
      · simp only [Cursor.atEnd, hend, hskip.rest_eq_nil_iff.mp hend, List.isEmpty_nil, if_true]
        exact .fault _ _ _ _ _
      · simp only [Cursor.atEnd, List.isEmpty_iff, hend, mt hskip.rest_eq_nil_iff.mpr hend,
          if_false]
        exact .ok (.joined connective hskip)

/-! Members and chains -/

/-- Two members and what the readers go on with correspond. -/
def MemberRequoted (old new : Text) (place : Nat) (side : Side)
    (member member' : Clause × Option (Connective × Cursor)) : Prop :=
  ∃ first rest, side.Splits first rest ∧ Requoted old new place first member.1 member'.1 ∧
    Follows old new place rest member.2 member'.2

/-- Members are read alike when this is known of everything inside a group. -/
theorem readMember_requoted (h : cursor.Requoted old new place other side)
    (hstart : cursor.rest.StartsFull)
    (hinner : ∀ {inside inside' : Cursor} {side : Side}, inside.rest.length < cursor.rest.length →
      inside.Requoted old new place inside' side →
      EndsAlike (Chain.Requoted old new place side) (readChain inside) (readChain inside')) :
    EndsAlike (MemberRequoted old new place side) (readMember cursor) (readMember other) := by
  refine (Term.read_requoted h hstart).bind fun term term' hterm hrelated => ?_
  cases hrelated with
  | comparison next hend hcut =>
      obtain ⟨first, rest, hsides, hpiece, hafter⟩ := hcut
      have hlast : next = none → rest ≠ .around := fun hnone => hafter.ne_around (hend hnone)
      refine (readNext_requoted next hafter hlast).bind fun _ _ _ hnext => ?_
      exact .ok ⟨first, rest, hsides, requoted_comparison hpiece, hnext⟩
  | group negated hcut =>
      obtain ⟨first, rest, hsides, hpiece, hafter⟩ := hcut
      refine (hinner (Term.interior_shorter hterm) hpiece).bind fun inner inner' _ hinside => ?_
      refine (readConnective_requoted hafter).bind ?_
      rintro ⟨next, behind⟩ ⟨next', behind'⟩ - ⟨rfl, hbehind, hlast⟩
      refine (readNext_requoted next hbehind hlast).bind fun _ _ _ hnext => ?_
      exact .ok ⟨first, rest, hsides, .group negated hinside.ofChain, hnext⟩

/-- Chains are read alike. The induction is on the length of the one text, which covers
the inside of a group and what follows a connective. -/
theorem readChain_requoted (h : cursor.Requoted old new place other side) :
    EndsAlike (Chain.Requoted old new place side) (readChain cursor) (readChain other) := by
  induction hlength : cursor.rest.length using Nat.strong_induction_on
    generalizing cursor other side with
  | _ length ih =>
      subst hlength
      have hle := cursor.skipBlanks_le
      rw [readChain_eq, readChain_eq]
      refine (readMember_requoted h.skipBlanks (Text.startsFull_skipBlanks _) ?_).bind ?_
      · intro inside inside' side' hshorter hinside
        exact ih _ (hshorter.trans_le hle) hinside rfl
      · rintro ⟨clause, follows⟩ ⟨clause', follows'⟩ hmember hrelated
        obtain ⟨first, rest, hsides, hclause, hfollows⟩ := hrelated
        cases hfollows with
        | last hside => exact .ok ⟨first, rest, hsides, hclause, .nil hside⟩
        | joined connective hnext =>
            have hshorter := (readMember_shorter hmember).trans_le hle
            refine (ih _ hshorter hnext rfl).map fun chain chain' hchain => ?_
            obtain ⟨second, third, hinside, hsecond, hmembers⟩ := hchain
            exact ⟨first, rest, hsides, hclause, .cons connective hinside hsecond hmembers⟩

end Clause

/-- Whatever text is quoted at a place of a script outside other quotes, the structure of
the script is the same: the two scripts have the same fault, or clauses which differ in
the one comparison around the literal and in the places of those behind it. -/
theorem Clause.parse_requoted {before : Text} (hclosed : Quoting.outside.run before = .outside)
    (after first second : Text) :
    EndsAlike
      (Requoted (Quoted.encode first) (Quoted.encode second) before.byteLength .around)
      (parse (before ++ (Quoted.encode first ++ after)))
      (parse (before ++ (Quoted.encode second ++ after))) := by
  have hfaces : Cursor.Faces (Quoted.encode first) (Quoted.encode second) before.byteLength before
      after (.start (before ++ (Quoted.encode first ++ after)) 0)
      (.start (before ++ (Quoted.encode second ++ after)) 0) :=
    ⟨Text.literal_encode first, Text.literal_encode second, hclosed, rfl, rfl, rfl, Nat.zero_add _⟩
  exact (readChain_requoted (.around hfaces)).map fun _ _ hchain => hchain.ofChain

/-- A text which looks like the end of a literal, of a group and of the script. -/
theorem Clause.parse_requoted_forged :
    let before := "(n < 3) && !(é == ".toList
    let forged := "\") || (\\".toList
    let after := ") || t".toList
    let clause (shown : Text) (place : Nat) : Clause :=
      .logic (.logic (.group false (.comparison "n < 3".toList 1)) .and
        (.group true (.comparison ("é == ".toList ++ Quoted.encode shown) 13))) .or
        (.comparison ['t'] place)
    Quoting.outside.run before = .outside ∧
      parse (before ++ (Quoted.encode ['a'] ++ after)) = .ok (clause ['a'] 27) ∧
      parse (before ++ (Quoted.encode forged ++ after)) = .ok (clause forged 36) ∧
      Requoted (Quoted.encode ['a']) (Quoted.encode forged) 19 .around (clause ['a'] 27)
        (clause forged 36) := by
  intro before forged after clause
  have hclosed : Quoting.outside.run before = .outside := by decide
  have hplain : parse (before ++ (Quoted.encode ['a'] ++ after)) = .ok (clause ['a'] 27) := by
    decide +kernel
  have hforged : parse (before ++ (Quoted.encode forged ++ after)) = .ok (clause forged 36) := by
    decide +kernel
  have halike := parse_requoted hclosed after ['a'] forged
  rw [hplain, hforged] at halike
  cases halike with
  | ok hrequoted => exact ⟨hclosed, hplain, hforged, hrequoted⟩

end Criteria
