import Criteria.Proofs.Layout.Coverage

/-!
Where the structural faults of a script point. The text of a group is read as a text of its
own, from blanks to blanks, and its faults are reported with the places and texts of that
reading. Yet each of them names a place of the whole script where its cause can be seen. The
reader keeps to places outside quotes, and its text is the whole script or stands between a
parenthesis and its partner.
-/

namespace Criteria

/-- The text is the whole source, or the interior of one of its groups. -/
inductive Text.Encloses (source : Text) : (before text after : Text) → Prop
  | whole : Encloses source [] source []
  | group {before text after : Text} (hsource : source = before ++ '(' :: (text ++ ')' :: after))
      (hclosed : Quoting.outside.run before = .outside) (hbalanced : Lexeme.Balanced text) :
      Encloses source (before ++ ['(']) text (')' :: after)

/-- Outside quotes and behind `position` bytes the source goes on with `rest`. -/
def Text.ContinuesAt (source : Text) (position : Nat) (rest : Text) : Prop :=
  ∃ before, source = before ++ rest ∧ before.byteLength = position ∧
    Quoting.outside.run before = .outside

/-- What is at the place that a structural fault reports, and which text it shows. -/
def FormatFault.PointsAt (source fragment : Text) (position : Nat) : FormatFault → Prop
  | missingOperand connective =>
      ∃ before after front blanks, source.Encloses before fragment after ∧
        position = (before ++ fragment).byteLength ∧
        fragment = front ++ (connective.token ++ blanks) ∧ Text.Blank blanks
  | missingComparison =>
      ∃ before after, source.Encloses before fragment after ∧
        (position = (before ++ fragment).byteLength ∨
          ∃ (connective : Connective) (rest : Text),
            source.ContinuesAt position (connective.token ++ rest))
  | missingGroup =>
      ∃ (mark : Nat) (gap rest : Text), source.ContinuesAt mark ('!' :: (gap ++ rest)) ∧
        gap.Blank ∧ position = mark + Text.byteLength ('!' :: gap) ∧ rest.StartsFull ∧
        rest.head? ≠ some '('
  | missingConnective =>
      ∃ before front after, source.Encloses before (front ++ fragment) after ∧
        position = (before ++ front).byteLength ∧ fragment ≠ [] ∧ fragment.StartsFull ∧
        ∀ connective : Connective, ¬connective.token <+: fragment
  | unbalanced =>
      (∃ rest, source.ContinuesAt position (')' :: rest)) ∨
        ∃ (negation : Option Text) (rest : Text), (∀ gap, negation = some gap → gap.Blank) ∧
          source.ContinuesAt position (Layout.opening negation ++ rest) ∧
          ∀ interior left, rest = interior ++ ')' :: left → ¬Lexeme.Balanced interior
  | _ => False

/-- The error is a structural fault, its position lies between two characters of the source,
and it shows a part of the source. -/
def Error.PointsInto (source : Text) : Error → Prop
  | .format fault fragment position =>
      (∃ before : Text, before <+: source ∧ before.byteLength = position) ∧ fragment <:+: source ∧
        fault.PointsAt source fragment position
  | _ => False

variable {source before after text left fragment : Text} {cursor behind : Cursor}
  {connective : Connective}

namespace Text

theorem Encloses.source_eq (h : source.Encloses before text after) :
    source = before ++ (text ++ after) := by
  cases h with
  | whole => simp
  | group hsource hclosed hbalanced => simp [hsource]

theorem Encloses.run_before (h : source.Encloses before text after) :
    Quoting.outside.run before = .outside := by
  cases h with
  | whole => rfl
  | group hsource hclosed hbalanced =>
      rw [Quoting.run_append, hclosed]
      rfl

/-- Where a text ends so does the source, or a group is closed. -/
theorem Encloses.startsFull_append {rest : Text} (h : source.Encloses before text after)
    (hfull : rest.StartsFull) (hhead : rest.head? ≠ some '(') :
    (rest ++ after).StartsFull ∧ (rest ++ after).head? ≠ some '(' := by
  cases rest with
  | cons c rest => exact ⟨hfull, hhead⟩
  | nil =>
      cases h with
      | whole => exact ⟨hfull, hhead⟩
      | group =>
          constructor
          · rintro c ⟨⟩
            decide
          · rintro ⟨⟩

end Text

/-- In a balanced text every opening parenthesis outside quotes has its partner. -/
theorem Lexeme.Balanced.exists_group? {front rest : Text}
    (h : Lexeme.Balanced (front ++ '(' :: rest)) (hclosed : Quoting.outside.run front = .outside) :
    ∃ interior left, Lexeme.group? rest = some (interior, left) := by
  obtain ⟨hnesting, -⟩ := h
  rw [nesting_append, hclosed] at hnesting
  obtain ⟨depth, -, hrest⟩ := Option.bind_eq_some_iff.mp hnesting
  rw [nesting, step?_open, Option.bind_some] at hrest
  cases hinner : nesting 0 .outside rest with
  | none => exact exists_of_nesting_eq_none hinner
  | some opened =>
      -- the group would still be open at the end of the text
      have houter := nesting_add hinner (depth + 1)
      rw [Nat.zero_add] at houter
      have hsame := Option.some.inj (houter.symm.trans hrest)
      omega

/-- Only in the whole source a parenthesis can be without its partner. -/
theorem Text.Encloses.after_eq_nil {front rest : Text} (h : source.Encloses before text after)
    (htext : text = front ++ '(' :: rest) (hclosed : Quoting.outside.run front = .outside)
    (hgroup : Lexeme.group? rest = none) : after = [] := by
  cases h with
  | whole => rfl
  | group hsource hopen hbalanced =>
      rw [htext] at hbalanced
      obtain ⟨interior, left, hfound⟩ := hbalanced.exists_group? hclosed
      rw [hgroup] at hfound
      cases hfound

namespace Cursor

/-- The cursor stands outside quotes in a text which the source encloses. -/
structure Within (source before after : Text) (cursor : Cursor) : Prop where
  encloses : source.Encloses before cursor.source after
  base_eq : cursor.base = before.byteLength
  closed : Quoting.outside.run cursor.consumed = .outside

/-- The cursor stands right behind a connective. -/
structure Behind (source before after : Text) (connective : Connective) (cursor : Cursor) : Prop
    extends within : cursor.Within source before after where
  consumed_eq : ∃ front, cursor.consumed = front ++ connective.token

theorem within_start (source : Text) : (start source 0).Within source [] [] :=
  ⟨.whole, rfl, rfl⟩

theorem moveTo_consumed (h : cursor.rest = text ++ left) :
    (cursor.moveTo left).consumed = cursor.consumed ++ text := by
  simp [moveTo, h]

theorem Within.moveTo (h : cursor.Within source before after) (hrest : cursor.rest = text ++ left)
    (hclosed : Quoting.outside.run text = .outside) :
    (cursor.moveTo left).Within source before after where
  encloses := by
    rw [moveTo_source cursor ⟨text, hrest.symm⟩]
    exact h.encloses
  base_eq := h.base_eq
  closed := by
    rw [moveTo_consumed hrest, Quoting.run_append, h.closed, hclosed]

theorem Within.skipBlanks (h : cursor.Within source before after) :
    cursor.skipBlanks.Within source before after := by
  obtain ⟨blanks, hblank, hrest⟩ := Text.exists_append_skipBlanks cursor.rest
  exact h.moveTo hrest (Lexeme.balanced_of_blank hblank).2

theorem Within.skipChar? {c : Char} (h : cursor.Within source before after)
    (hskip : cursor.skipChar? c = some behind) (hc : c ≠ '"') :
    behind.Within source before after := by
  obtain ⟨hrest, hbehind⟩ := skipChar?_eq_some hskip
  have hclosed : Quoting.outside.run [c] = .outside := by
    simp [Quoting.next, hc]
  rw [hbehind]
  exact h.moveTo hrest hclosed

theorem Within.position_eq (h : cursor.Within source before after) :
    cursor.position = (before ++ cursor.consumed).byteLength := by
  rw [position, h.base_eq, Text.byteLength_append]

theorem Within.continuesAt (h : cursor.Within source before after) :
    source.ContinuesAt cursor.position (cursor.rest ++ after) := by
  refine ⟨before ++ cursor.consumed, ?_, h.position_eq.symm, ?_⟩
  · rw [h.encloses.source_eq, Cursor.source]
    simp
  · rw [Quoting.run_append, h.encloses.run_before, h.closed]

/-- The reading of a group that stands at the cursor. -/
theorem Within.interior {interior : Text} (h : cursor.Within source before after)
    (hrest : cursor.rest = '(' :: (interior ++ ')' :: left))
    (hbalanced : Lexeme.Balanced interior) :
    (start interior (cursor.position + 1)).Within source (before ++ cursor.consumed ++ ['('])
      (')' :: (left ++ after)) where
  encloses := by
    apply Text.Encloses.group
    · rw [h.encloses.source_eq, Cursor.source, hrest]
      simp [start, Cursor.source]
    · rw [Quoting.run_append, h.encloses.run_before, h.closed]
    · exact hbalanced
  base_eq := by
    rw [Text.byteLength_append, ← h.position_eq]
    rfl
  closed := rfl

theorem Within.source_isInfix (h : cursor.Within source before after) :
    cursor.source <:+: source :=
  ⟨before, after, by rw [h.encloses.source_eq, List.append_assoc]⟩

theorem Within.rest_isInfix (h : cursor.Within source before after) : cursor.rest <:+: source :=
  (List.suffix_append _ _).isInfix.trans h.source_isInfix

/-- A fault that is reported where the cursor stands. -/
theorem Within.pointsInto {fault : FormatFault} (h : cursor.Within source before after)
    (hfragment : fragment <:+: source) (hfault : fault.PointsAt source fragment cursor.position) :
    (Error.format fault fragment cursor.position).PointsInto source := by
  obtain ⟨front, hsource, hposition, -⟩ := h.continuesAt
  exact ⟨⟨front, ⟨_, hsource.symm⟩, hposition⟩, hfragment, hfault⟩

end Cursor

namespace Clause

/-! Each reader reports a fault where its cause is, or leaves the cursor in place -/

theorem readNext_meets {next : Option Connective}
    (h : ∀ connective, next = some connective → cursor.Behind source before after connective) :
    (readNext next cursor).Meets
      (fun follows => ∀ connective following, follows = some (connective, following) →
        following.Within source before after)
      (Error.PointsInto source) := by
  cases next with
  | none =>
      intro connective following hsame
      cases hsame
  | some connective =>
      obtain ⟨hwithin, front, hfront⟩ := h connective rfl
      have hskipped := hwithin.skipBlanks
      rw [readNext]
      split
      · next hend =>
        obtain ⟨blanks, hblank, htakes⟩ := cursor.takes_skipBlanks
        have hnil : cursor.skipBlanks.rest = [] := List.isEmpty_iff.mp hend
        have hrest : cursor.rest = blanks := by rw [htakes.rest_eq, hnil, List.append_nil]
        have hsource : cursor.skipBlanks.source = cursor.source :=
          cursor.moveTo_source ⟨blanks, htakes.rest_eq.symm⟩
        refine hskipped.pointsInto hskipped.source_isInfix ⟨before, after, front, blanks,
          hskipped.encloses, ?_, ?_, hblank⟩
        · rw [hskipped.position_eq, Cursor.source, hnil, List.append_nil]
        · rw [hsource, Cursor.source, hfront, hrest, List.append_assoc]
      · rintro connective' following ⟨⟩
        exact hskipped

theorem readConnective_meets (h : cursor.Within source before after) :
    (readConnective cursor).Meets
      (fun result => ∀ connective, result.1 = some connective →
        result.2.Behind source before after connective)
      (Error.PointsInto source) := by
  have hskipped := h.skipBlanks
  have hstart : cursor.skipBlanks.rest.StartsFull := Text.startsFull_skipBlanks _
  rw [readConnective]
  generalize cursor.skipBlanks = cursor at hskipped hstart
  split
  · rintro connective ⟨⟩
  · next hopen =>
    cases htoken : Lexeme.tokenAt? Connective.tokens cursor.rest with
    | none =>
        have hnone := Lexeme.tokenAt?_eq_none_iff.mp htoken
        refine hskipped.pointsInto hskipped.rest_isInfix
          ⟨before, cursor.consumed, after, hskipped.encloses, hskipped.position_eq, ?_, hstart, ?_⟩
        · simpa [Cursor.atEnd] using hopen
        · intro connective hprefix
          have hnot := hnone connective.token (by cases connective <;> decide)
          rw [← Bool.not_eq_true, Lexeme.startsWith_eq_true_iff] at hnot
          exact hnot ⟨by cases connective <;> decide, hprefix⟩
    | some token =>
        obtain ⟨connective, rfl, left, hleft⟩ := eq_of_tokenAt? htoken
        intro connective' hsame
        simp only [ofToken?_token, Option.some.injEq] at hsame
        subst hsame
        have hdrop : cursor.rest.drop connective.token.length = left := by
          rw [← hleft, List.drop_left]
        rw [hdrop]
        exact ⟨hskipped.moveTo hleft.symm (Layout.balanced_token connective).2,
          cursor.consumed, Cursor.moveTo_consumed hleft.symm⟩

namespace Term

/-- A term goes on behind a connective or is a group, whose interior the source encloses. -/
def Placed (source before after : Text) : Term → Prop
  | comparison _ _ next behind =>
      ∀ connective, next = some connective → behind.Behind source before after connective
  | group _ interior position behind =>
      behind.Within source before after ∧
        ∃ before' after', (Cursor.start interior position).Within source before' after'

theorem blank_pointsInto {token : Option Text} (h : cursor.Within source before after)
    (hsplit : Lexeme.splitAtToken Connective.tokens cursor.rest = ([], token, left)) :
    (Error.format .missingComparison cursor.source cursor.position).PointsInto source := by
  refine h.pointsInto h.source_isInfix ⟨before, after, h.encloses, ?_⟩
  cases token with
  | none =>
      obtain ⟨hrest, -, -⟩ := Lexeme.splitAtToken_eq_none hsplit
      left
      rw [h.position_eq, Cursor.source, ← hrest, List.append_nil]
  | some token =>
      obtain ⟨hrest, -, hvisible⟩ := Lexeme.splitAtToken_eq_some hsplit
      obtain ⟨-, hmem, -, -⟩ := Lexeme.visibleToken?_eq_some hvisible
      obtain ⟨connective, rfl⟩ := eq_token_of_mem hmem
      have hplace := h.continuesAt
      rw [hrest, List.nil_append, List.append_assoc] at hplace
      exact .inr ⟨connective, left ++ after, hplace⟩

theorem close_pointsInto {front token tail : Text} (h : cursor.Within source before after)
    (hrest : cursor.rest = text ++ left)
    (hsplit : Lexeme.splitAtToken [[')']] text = (front, some token, tail)) :
    (Error.format .unbalanced cursor.source
      (cursor.position + front.byteLength)).PointsInto source := by
  obtain ⟨htext, -, hvisible⟩ := Lexeme.splitAtToken_eq_some hsplit
  obtain ⟨hclosed, hmem, -, -⟩ := Lexeme.visibleToken?_eq_some hvisible
  obtain rfl := List.mem_singleton.mp hmem
  have hclose : cursor.rest = front ++ ')' :: (tail ++ left) := by
    simp [hrest, htext]
  have hmoved := h.moveTo hclose hclosed
  rw [← Cursor.moveTo_position hclose]
  exact hmoved.pointsInto h.source_isInfix (.inl ⟨_, hmoved.continuesAt⟩)

theorem behind_of_splitAtToken {token : Text} (h : cursor.Within source before after)
    (hsplit : Lexeme.splitAtToken Connective.tokens cursor.rest = (fragment, some token, left))
    (hconnective : Connective.ofToken? token = some connective) :
    (cursor.moveTo left).Behind source before after connective := by
  obtain ⟨hrest, -, hvisible⟩ := Lexeme.splitAtToken_eq_some hsplit
  obtain ⟨hclosed, hmem, -, -⟩ := Lexeme.visibleToken?_eq_some hvisible
  obtain ⟨connective', rfl⟩ := eq_token_of_mem hmem
  obtain rfl := Option.some.inj ((ofToken?_token connective').symm.trans hconnective)
  rw [← List.append_assoc] at hrest
  refine ⟨h.moveTo hrest ?_, cursor.consumed ++ fragment, ?_⟩
  · rw [Quoting.run_append, hclosed]
    exact (Layout.balanced_token connective').2
  · rw [Cursor.moveTo_consumed hrest, List.append_assoc]

theorem readComparison_meets (h : cursor.Within source before after)
    (hstart : cursor.rest.StartsFull) :
    (readComparison cursor).Meets (Placed source before after) (Error.PointsInto source) := by
  obtain ⟨taken, hprefix, hrest⟩ :=
    Lexeme.exists_append_splitAtToken Connective.tokens cursor.rest
  cases hsplit : Lexeme.splitAtToken Connective.tokens cursor.rest with
  | mk fragment others =>
      obtain ⟨token, left⟩ := others
      rw [hsplit] at hprefix hrest
      obtain ⟨more, rfl⟩ := hprefix
      rw [List.append_assoc] at hrest
      have hfull : fragment.StartsFull := .of_append (hrest ▸ hstart)
      simp only [readComparison, Cursor.takeUntil, hsplit, List.isEmpty_iff]
      by_cases hblank : Text.trim fragment = []
      · obtain rfl : fragment = [] := by_contra fun hne => Text.trim_ne_nil hfull hne hblank
        exact blank_pointsInto h hsplit
      · obtain ⟨trail, -, htrim⟩ := Text.exists_trim_append hfull
        rw [htrim, List.append_assoc] at hrest
        rw [if_neg hblank]
        split
        · next hclose => exact close_pointsInto h hrest hclose
        · intro connective hnext
          obtain ⟨token, rfl, hconnective⟩ := Option.bind_eq_some_iff.mp hnext
          exact behind_of_splitAtToken h hsplit hconnective

theorem readGroup_meets {start : Nat} {opened : Cursor} {negation : Option Text}
    (h : cursor.Within source before after) (hopen : cursor.skipChar? '(' = some opened)
    (hnegation : ∀ gap, negation = some gap → gap.Blank)
    (hstart : source.ContinuesAt start (Layout.opening negation ++ (opened.rest ++ after))) :
    (readGroup start negation.isSome cursor opened).Meets (Placed source before after)
      (Error.PointsInto source) := by
  obtain ⟨hrest, hopened⟩ := Cursor.skipChar?_eq_some hopen
  cases hgroup : Lexeme.group? opened.rest with
  | none =>
      simp only [readGroup, Cursor.takeGroup, hgroup]
      obtain ⟨front, hsource, hposition, -⟩ := id hstart
      refine ⟨⟨front, ⟨_, hsource.symm⟩, hposition⟩, h.rest_isInfix,
        .inr ⟨negation, opened.rest ++ after, hnegation, hstart, ?_⟩⟩
      intro interior left hsplit hbalanced
      -- the text does not stand in a group: there the parenthesis would have its partner
      have hend : after = [] :=
        h.encloses.after_eq_nil (by rw [Cursor.source, hrest]) h.closed hgroup
      rw [hend, List.append_nil] at hsplit
      rw [Lexeme.group?_eq_some_iff.mpr ⟨hsplit, rfl, hbalanced⟩] at hgroup
      cases hgroup
  | some found =>
      obtain ⟨interior, closing⟩ := found
      obtain ⟨hsplit, hclose, hbalanced⟩ := Lexeme.group?_eq_some_iff.mp hgroup
      obtain ⟨left, rfl⟩ := List.head?_eq_some_iff.mp hclose
      have hinterior := h.interior (hrest.trans (by rw [hsplit])) hbalanced
      have hposition : opened.position = cursor.position + 1 := by
        rw [(Cursor.takes_of_skipChar? hopen).position_eq]
        rfl
      rw [readGroup_eq hbalanced hsplit, hposition]
      refine ⟨?_, _, _, hinterior⟩
      have hpassed : opened.rest = (interior ++ [')']) ++ left := by simp [hsplit]
      apply (h.skipChar? hopen (by decide)).moveTo hpassed
      rw [Quoting.run_append, hbalanced.2]
      rfl

theorem read_meets (h : cursor.Within source before after) (hstart : cursor.rest.StartsFull) :
    (read cursor).Meets (Placed source before after) (Error.PointsInto source) := by
  rw [read]
  cases hmark : cursor.skipChar? '!' with
  | none =>
      cases hopen : cursor.skipChar? '(' with
      | none => exact readComparison_meets h hstart
      | some opened =>
          have hplace : source.ContinuesAt cursor.position
              (Layout.opening none ++ (opened.rest ++ after)) := by
            have hhere := h.continuesAt
            rwa [(Cursor.skipChar?_eq_some hopen).1] at hhere
          have hgroup := readGroup_meets h hopen (by simp) hplace
          exact hgroup
  | some negation =>
      have hopening := (h.skipChar? hmark (by decide)).skipBlanks
      obtain ⟨gap, hgap, hskip⟩ := negation.takes_skipBlanks
      have hmarked := (Cursor.takes_of_skipChar? hmark).trans hskip
      have hplace : source.ContinuesAt cursor.position
          ('!' :: (gap ++ (negation.skipBlanks.rest ++ after))) := by
        have hhere := h.continuesAt
        rw [hmarked.rest_eq] at hhere
        simpa using hhere
      simp only
      cases hopen : negation.skipBlanks.skipChar? '(' with
      | none =>
          have hhead := Cursor.head?_of_skipChar? hopen
          have hfull : negation.skipBlanks.rest.StartsFull := Text.startsFull_skipBlanks _
          obtain ⟨hbehind, hother⟩ := h.encloses.startsFull_append hfull hhead
          exact hopening.pointsInto h.source_isInfix
            ⟨cursor.position, gap, _, hplace, hgap, hmarked.position_eq, hbehind, hother⟩
      | some opened =>
          have hblank : ∀ blanks, some gap = some blanks → blanks.Blank := by
            rintro _ ⟨⟩
            exact hgap
          have hstands : source.ContinuesAt cursor.position
              (Layout.opening (some gap) ++ (opened.rest ++ after)) := by
            rw [(Cursor.skipChar?_eq_some hopen).1] at hplace
            simpa [Layout.opening] using hplace
          have hgroup := readGroup_meets hopening hopen hblank hstands
          exact hgroup

end Term

theorem readMember_meets (h : cursor.Within source before after)
    (hstart : cursor.rest.StartsFull)
    (hinner : ∀ interior position before' after', interior.length < cursor.rest.length →
      (Cursor.start interior position).Within source before' after' →
        (readChain (.start interior position)).Meets (fun _ => True) (Error.PointsInto source)) :
    (readMember cursor).Meets
      (fun result => ∀ connective following, result.2 = some (connective, following) →
        following.Within source before after)
      (Error.PointsInto source) := by
  refine (Term.read_meets h hstart).bind fun term hterm hplaced => ?_
  cases term with
  | comparison text position next behind =>
      exact (readNext_meets hplaced).bind fun follows _ hfollows => hfollows
  | group negated interior position behind =>
      obtain ⟨hbehind, before', after', hinterior⟩ := hplaced
      have hshorter : interior.length < cursor.rest.length := Term.interior_shorter hterm
      refine (hinner _ _ _ _ hshorter hinterior).bind fun inner _ _ => ?_
      refine (readConnective_meets hbehind).bind fun result _ hresult => ?_
      exact (readNext_meets hresult).bind fun follows _ hfollows => hfollows

/-- Every fault of a chain is reported where its cause is. The induction is on the length of
the text, which covers both the inside of a group and what follows a connective. -/
theorem readChain_meets (h : cursor.Within source before after) :
    (readChain cursor).Meets (fun _ => True) (Error.PointsInto source) := by
  induction hlength : cursor.rest.length using Nat.strong_induction_on
    generalizing cursor before after with
  | _ length ih =>
      have hstart : cursor.skipBlanks.rest.StartsFull := Text.startsFull_skipBlanks _
      have hle : cursor.skipBlanks.rest.length ≤ length := hlength ▸ cursor.skipBlanks_le
      rw [readChain_eq]
      refine (readMember_meets h.skipBlanks hstart fun interior position _ _ hinner hwithin =>
        ih _ (hinner.trans_le hle) hwithin rfl).bind fun result hmember hfollows => ?_
      obtain ⟨clause, _ | ⟨connective, following⟩⟩ := result
      · trivial
      · have hshorter := (readMember_shorter hmember).trans_le hle
        exact (ih _ hshorter (hfollows connective following rfl) rfl).map fun _ _ => trivial

/-- Every fault of a text points at its cause: its position is that of a character of the text
or the end of it, it shows a part of the text, and at its position stands what it says. -/
theorem parse_error_points {error : Error} (h : parse source = .error error) :
    ∃ fault fragment position, error = .format fault fragment position ∧
      position ≤ source.byteLength ∧
      (∃ before : Text, before <+: source ∧ before.byteLength = position) ∧
      fragment <:+: source ∧ fault.PointsAt source fragment position := by
  have hpoints := readChain_meets (Cursor.within_start source)
  rw [Except.map_eq_error_iff.mp h] at hpoints
  cases error with
  | format fault fragment position =>
      obtain ⟨⟨before, ⟨rest, rfl⟩, rfl⟩, hfragment, hfault⟩ := hpoints
      refine ⟨fault, fragment, _, rfl, ?_, ⟨before, List.prefix_append _ _, rfl⟩, hfragment, hfault⟩
      rw [Text.byteLength_append]
      exact Nat.le_add_right _ _
  | script fault => exact hpoints.elim
  | conversion fault => exact hpoints.elim

/-- A connective without an operand in a nested group, and a negated group which is never
closed although one inside it is. -/
theorem parse_error_points_nested :
    let dangling := "é == 1 && ((ß < 2) || ü == 3 &&  )".toList
    let unclosed := "ü == 1 && ! (é < 2 && (x == 3)".toList
    parse dangling =
        .error (.format (.missingOperand .and) "(ß < 2) || ü == 3 &&  ".toList 36) ∧
      FormatFault.PointsAt dangling "(ß < 2) || ü == 3 &&  ".toList 36 (.missingOperand .and) ∧
      parse unclosed = .error (.format .unbalanced "(é < 2 && (x == 3)".toList 11) ∧
      FormatFault.PointsAt unclosed "(é < 2 && (x == 3)".toList 11 .unbalanced := by
  intro dangling unclosed
  have hdangling : parse dangling =
      .error (.format (.missingOperand .and) "(ß < 2) || ü == 3 &&  ".toList 36) := by
    decide +kernel
  have hunclosed : parse unclosed =
      .error (.format .unbalanced "(é < 2 && (x == 3)".toList 11) := by
    decide +kernel
  obtain ⟨_, _, _, ⟨⟩, -, -, -, hfirst⟩ := parse_error_points hdangling
  obtain ⟨_, _, _, ⟨⟩, -, -, -, hsecond⟩ := parse_error_points hunclosed
  exact ⟨hdangling, hfirst, hunclosed, hsecond⟩

end Clause

end Criteria
