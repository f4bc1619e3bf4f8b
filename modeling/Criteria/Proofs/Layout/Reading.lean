import Criteria.Clause.Reader
import Criteria.Proofs.Fallible
import Criteria.Proofs.Layout
import Criteria.Proofs.Scanning.Cursor

/-!
The text of a legible layout is read as its clause. A chain is read member by member,
so what is shown of a layout is how the reader goes on after it: at the end of the
text, or behind a connective.
-/

namespace Criteria

namespace Clause

/-- Joins a chain to the end of another one. -/
def Chain.append (first : Chain) (connective : Connective) (second : Chain) : Chain :=
  (first.1, first.2 ++ (connective, second.1) :: second.2)

theorem Chain.append_assoc (first second third : Chain) (before after : Connective) :
    (first.append before second).append after third =
      first.append before (second.append after third) := by
  simp [append]

theorem ofChain_append_single (chain : Chain) (connective : Connective) (clause : Clause) :
    ofChain (chain.append connective (clause, [])) = logic (ofChain chain) connective clause := by
  simp [ofChain, Chain.append]

/-- Reads a comparison or a whole group, and what joins it to the next clause. -/
def readMember (cursor : Cursor) : Except Error (Clause × Option (Connective × Cursor)) := do
  match ← Term.read cursor with
  | .comparison text position next after => return (comparison text position, ← readNext next after)
  | .group negated interior position after =>
      let inner ← readChain (.start interior position)
      let (next, after) ← readConnective after
      return (group negated (ofChain inner), ← readNext next after)

/-- A chain is a member and, behind a connective, another chain. -/
theorem readChain_eq (cursor : Cursor) :
    readChain cursor = (do
      match ← readMember cursor.skipBlanks with
      | (clause, none) => return (clause, [])
      | (clause, some (connective, following)) =>
          (readChain following).map (Chain.cons clause connective)) := by
  rw [readChain, readMember]
  split
  · next error hterm => simp only [hterm, Except.error_bind]
  · next text position next after hterm =>
    simp only [hterm, Except.ok_bind]
    split
    · next error hnext => simp only [hnext, Except.error_bind]
    · next hnext => simp only [hnext, Except.ok_bind, Except.pure_eq_ok]
    · next connective following hnext => simp only [hnext, Except.ok_bind, Except.pure_eq_ok]
  · next negated interior position after hterm =>
    simp only [hterm, Except.ok_bind]
    split
    · next error hinner => simp only [hinner, Except.error_bind]
    · next inner hinner =>
      simp only [hinner, Except.ok_bind]
      split
      · next error hconnective => simp only [hconnective, Except.error_bind]
      · next next after' hconnective =>
        simp only [hconnective, Except.ok_bind]
        split
        · next error hnext => simp only [hnext, Except.error_bind]
        · next hnext => simp only [hnext, Except.ok_bind, Except.pure_eq_ok]
        · next connective following hnext => simp only [hnext, Except.ok_bind, Except.pure_eq_ok]

theorem readMember_shorter {cursor following : Cursor} {clause : Clause}
    {connective : Connective}
    (h : readMember cursor = .ok (clause, some (connective, following))) :
    following.rest.length < cursor.rest.length := by
  obtain ⟨term, hterm, h⟩ := Except.bind_eq_ok_iff.mp h
  cases term with
  | comparison text position next after =>
      obtain ⟨follows, hnext, hsame⟩ := Except.bind_eq_ok_iff.mp h
      obtain ⟨rfl, rfl⟩ := Prod.mk.inj (Except.ok.inj hsame)
      exact (readNext_le hnext).trans_lt (Term.comparison_shorter hterm)
  | group negated interior position after =>
      obtain ⟨inner, -, h⟩ := Except.bind_eq_ok_iff.mp h
      obtain ⟨⟨next, behind⟩, hconnective, h⟩ := Except.bind_eq_ok_iff.mp h
      obtain ⟨follows, hnext, hsame⟩ := Except.bind_eq_ok_iff.mp h
      obtain ⟨rfl, rfl⟩ := Prod.mk.inj (Except.ok.inj hsame)
      exact ((readNext_le hnext).trans (readConnective_le hconnective)).trans_lt
        (Term.group_shorter hterm)

/-! What is read after a clause -/

section

variable {cursor : Cursor} {connective : Connective} {text before after left trail : Text}

theorem tokenAt?_token (connective : Connective) (left : Text) :
    Lexeme.tokenAt? Connective.tokens (connective.token ++ left) = some connective.token := by
  cases connective <;> rfl

theorem ofToken?_token (connective : Connective) :
    Connective.ofToken? connective.token = some connective := by
  cases connective <;> rfl

theorem startsFull_token (connective : Connective) (left : Text) :
    Text.StartsFull (connective.token ++ left) := by
  intro c hc
  cases connective with
  | and =>
      obtain rfl : '&' = c := Option.some.inj hc
      rfl
  | or =>
      obtain rfl : '|' = c := Option.some.inj hc
      rfl

theorem readConnective_of_token (cursor : Cursor) (connective : Connective)
    (hrest : cursor.rest = before ++ (connective.token ++ left))
    (hbefore : before.Blank) :
    readConnective cursor = .ok (some connective, cursor.moveTo left) := by
  have hskip := Cursor.skipBlanks_eq hrest hbefore (startsFull_token connective left)
  have hopen : (cursor.moveTo (connective.token ++ left)).atEnd = false := by
    cases connective <;> rfl
  simp only [readConnective, hskip, hopen, Cursor.moveTo_rest, tokenAt?_token, ofToken?_token,
    List.drop_left]
  rw [Cursor.moveTo_moveTo ⟨before, hrest.symm⟩ (List.suffix_append _ _)]
  rfl

theorem readConnective_of_blank (cursor : Cursor) (hblank : Text.Blank cursor.rest) :
    readConnective cursor = .ok (none, cursor.moveTo []) := by
  have hskip : cursor.skipBlanks = cursor.moveTo [] :=
    Cursor.skipBlanks_eq (List.append_nil cursor.rest).symm hblank (by simp [Text.StartsFull])
  rw [readConnective, hskip]
  rfl

theorem readNext_eq (cursor : Cursor) (hrest : cursor.rest = after ++ left) (hafter : after.Blank)
    (hstart : left.StartsFull) (hne : left ≠ []) :
    readNext (some connective) cursor = .ok (some (connective, cursor.moveTo left)) := by
  have hopen : (cursor.moveTo left).atEnd = false := by
    simpa [Cursor.atEnd] using hne
  simp only [readNext, Cursor.skipBlanks_eq hrest hafter hstart, hopen]
  rfl

/-! How a member is read -/

theorem Term.read_comparison (hfragment : Fragment text) {following : Text}
    (hrest : cursor.rest = text ++ following) : Term.read cursor = readComparison cursor := by
  have hhead : cursor.rest.head? = text.head? := by
    rw [hrest, List.head?_append_of_ne_nil text hfragment.nonempty]
  rw [read, Cursor.skipChar?_eq_none (hhead ▸ hfragment.noGroup.1)]
  simp only
  rw [Cursor.skipChar?_eq_none (hhead ▸ hfragment.noGroup.2)]

theorem Term.readComparison_eq (token : Option Text) (hfragment : Fragment text)
    (hblank : before.Blank)
    (hsplit : Lexeme.splitAtToken Connective.tokens cursor.rest = (text ++ before, token, left)) :
    readComparison cursor =
      .ok (.comparison text cursor.position (token.bind Connective.ofToken?)
        (cursor.moveTo left)) := by
  have htrim : Text.trim (text ++ before) = text :=
    Text.trim_append hblank hfragment.startsFull hfragment.nonempty hfragment.endsFull
  have hclose : Lexeme.splitAtToken [[')']] text = (text, none, []) :=
    Lexeme.splitAtToken_of_clear ((Lexeme.clear_singleton_iff (by decide)).mpr hfragment.noClose)
  simp only [readComparison, Cursor.takeUntil, hsplit, htrim, List.isEmpty_iff,
    hfragment.nonempty, if_false, hclose]

theorem Term.read_comparison_last (hfragment : Fragment text) (htrail : trail.Blank)
    (hrest : cursor.rest = text ++ trail) :
    Term.read cursor = .ok (.comparison text cursor.position none (cursor.moveTo [])) := by
  have hclear : Lexeme.Clear Connective.tokens .outside (text ++ trail) [] := by
    by_cases hnil : trail = []
    · rw [hnil, List.append_nil]
      exact hfragment.noConnective
    · exact hfragment.noConnective.append_blank Layout.isBlank_of_mem_token htrail hnil []
  rw [read_comparison hfragment hrest]
  apply readComparison_eq none hfragment htrail
  rw [hrest, Lexeme.splitAtToken_of_clear hclear]

theorem Term.read_comparison_joined (hfragment : Fragment text) (hbefore : before.Blank)
    (hprecedes : (Layout.comparison text).Precedes before connective)
    (hrest : cursor.rest = text ++ (before ++ (connective.token ++ left))) :
    Term.read cursor =
      .ok (.comparison text cursor.position (some connective) (cursor.moveTo left)) := by
  obtain ⟨hclear, hclosed⟩ := hprecedes
  have hlonger : Lexeme.Clear Connective.tokens .outside (text ++ before)
      (connective.token ++ left) := by
    cases connective <;> exact hclear.of_short (by decide) _
  have hplace : Quoting.outside.run (text ++ before) = .outside := by
    rw [Quoting.run_append, hclosed, (Lexeme.balanced_of_blank hbefore).2]
  have hvisible : Lexeme.visibleToken? Connective.tokens (Quoting.outside.run (text ++ before))
      (connective.token ++ left) = some connective.token := by
    rw [hplace]
    cases connective <;> rfl
  rw [read_comparison hfragment hrest]
  have hsplit : Lexeme.splitAtToken Connective.tokens cursor.rest =
      (text ++ before, some connective.token, left) := by
    rw [hrest, ← List.append_assoc text, Lexeme.splitAtToken_of_token hlonger hvisible]
  rw [readComparison_eq _ hfragment hbefore hsplit, Option.bind_some, ofToken?_token]

theorem Term.readGroup_eq {interior : Text} {start : Nat} {negated : Bool} {opened : Cursor}
    (hbalanced : Lexeme.Balanced interior) (hrest : opened.rest = interior ++ ')' :: left) :
    readGroup start negated cursor opened =
      .ok (.group negated interior opened.position (opened.moveTo left)) := by
  have hclosing : (opened.moveTo (')' :: left)).skipChar? ')' = some (opened.moveTo left) := by
    rw [Cursor.skipChar?_of_rest rfl,
      Cursor.moveTo_moveTo ⟨interior, hrest.symm⟩ (List.suffix_cons _ _)]
  simp only [readGroup, Cursor.takeGroup_eq hrest hbalanced, hclosing]

theorem Term.read_group {negation : Option Text} {interior : Text}
    (hnegation : ∀ gap, negation = some gap → gap.Blank) (hbalanced : Lexeme.Balanced interior)
    (hrest : cursor.rest = Layout.opening negation ++ (interior ++ ')' :: left)) :
    Term.read cursor =
      .ok (.group negation.isSome interior
        (cursor.position + (Layout.opening negation).byteLength) (cursor.moveTo left)) := by
  have hinside : interior ++ ')' :: left <:+ cursor.rest := ⟨_, hrest.symm⟩
  have hafter : left <:+ interior ++ ')' :: left := ⟨interior ++ [')'], by simp⟩
  have hread {start : Nat} {negated : Bool} {outer : Cursor} :
      readGroup start negated outer (cursor.moveTo (interior ++ ')' :: left)) =
        .ok (.group negated interior (cursor.position + (Layout.opening negation).byteLength)
          (cursor.moveTo left)) := by
    rw [readGroup_eq hbalanced rfl, Cursor.moveTo_position hrest,
      Cursor.moveTo_moveTo hinside hafter]
  cases negation with
  | none =>
      have hnot : cursor.skipChar? '!' = none := by
        apply Cursor.skipChar?_eq_none
        simp [hrest, Layout.opening]
      have hopen : cursor.skipChar? '(' = some (cursor.moveTo (interior ++ ')' :: left)) :=
        Cursor.skipChar?_of_rest hrest
      simp only [read, hnot, hopen, hread]
      rfl
  | some gap =>
      have hmark : cursor.skipChar? '!' =
          some (cursor.moveTo (gap ++ '(' :: (interior ++ ')' :: left))) := by
        apply Cursor.skipChar?_of_rest
        simp [hrest, Layout.opening]
      have hgap : (cursor.moveTo (gap ++ '(' :: (interior ++ ')' :: left))).skipBlanks =
          cursor.moveTo ('(' :: (interior ++ ')' :: left)) := by
        rw [Cursor.skipBlanks_eq rfl (hnegation gap rfl) (by simp [Text.StartsFull]; decide)]
        refine Cursor.moveTo_moveTo ⟨['!'], ?_⟩ (List.suffix_append _ _)
        simp [hrest, Layout.opening]
      have hopen : (cursor.moveTo ('(' :: (interior ++ ')' :: left))).skipChar? '(' =
          some (cursor.moveTo (interior ++ ')' :: left)) := by
        rw [Cursor.skipChar?_of_rest rfl]
        refine congrArg some (Cursor.moveTo_moveTo ⟨'!' :: gap, ?_⟩ (List.suffix_cons _ _))
        simp [hrest, Layout.opening]
      simp only [read, hmark, hgap, hopen, hread]
      rfl

end

end Clause

namespace Layout

/-- The members of a layout which stands at `position`, as the reader collects them. -/
def chain : Layout → (position : Nat) → Clause.Chain
  | logic left before connective after right, position =>
      (left.chain position).append connective
        (right.clause
          (position + (left.text ++ before ++ connective.token ++ after).byteLength), [])
  | layout, position => (layout.clause position, [])

theorem ofChain_chain (layout : Layout) (position : Nat) :
    Clause.ofChain (layout.chain position) = layout.clause position := by
  induction layout with
  | comparison text => rfl
  | group negation lead inner trail ih => rfl
  | logic left before connective after right ihl ihr =>
      rw [chain, Clause.ofChain_append_single, ihl]
      rfl

theorem chain_of_isLogic {layout : Layout} (h : layout.isLogic = false) (position : Nat) :
    layout.chain position = (layout.clause position, []) := by
  cases layout with
  | comparison text => rfl
  | group negation lead inner trail => rfl
  | logic left before connective after right => cases h

/-- How the reader goes on after a layout. What follows a connective starts with
neither a blank nor the end of the text. -/
structure Readable (layout : Layout) : Prop where
  last (cursor : Cursor) {lead trail : Text} (hlead : lead.Blank) (htrail : trail.Blank)
    (hrest : cursor.rest = lead ++ (layout.text ++ trail)) :
    Clause.readChain cursor = .ok (layout.chain (cursor.position + lead.byteLength))
  joined (cursor : Cursor) {lead before after left : Text} {connective : Connective}
    (hlead : lead.Blank) (hbefore : before.Blank) (hafter : after.Blank)
    (hprecedes : layout.Precedes before connective) (hstart : left.StartsFull) (hne : left ≠ [])
    (hrest : cursor.rest =
      lead ++ (layout.text ++ (before ++ (connective.token ++ (after ++ left))))) :
    Clause.readChain cursor =
      (Clause.readChain (cursor.moveTo left)).map
        ((layout.chain (cursor.position + lead.byteLength)).append connective)

/-- A layout without a connective of its own is readable when it is read as one
member. -/
theorem readable_of_member {layout : Layout} (h : layout.Legible) (hlogic : layout.isLogic = false)
    (hlast : ∀ {cursor : Cursor} {trail : Text}, trail.Blank → cursor.rest = layout.text ++ trail →
      Clause.readMember cursor = .ok (layout.clause cursor.position, none))
    (hjoined : ∀ {cursor : Cursor} {before after left : Text} {connective : Connective},
      before.Blank → after.Blank → layout.Precedes before connective → left.StartsFull →
      left ≠ [] →
      cursor.rest = layout.text ++ (before ++ (connective.token ++ (after ++ left))) →
      Clause.readMember cursor =
        .ok (layout.clause cursor.position, some (connective, cursor.moveTo left))) :
    layout.Readable where
  last := by
    intro cursor lead trail hlead htrail hrest
    have hskip := Cursor.skipBlanks_eq hrest hlead (h.startsFull.append h.text_ne_nil trail)
    rw [Clause.readChain_eq, hskip, hlast htrail rfl, Cursor.moveTo_position hrest,
      chain_of_isLogic hlogic]
    rfl
  joined := by
    intro cursor lead before after left connective hlead hbefore hafter hprecedes hstart hne hrest
    have hskip := Cursor.skipBlanks_eq hrest hlead (h.startsFull.append h.text_ne_nil _)
    have hleft : left <:+ layout.text ++ (before ++ (connective.token ++ (after ++ left))) :=
      ⟨layout.text ++ (before ++ (connective.token ++ after)), by simp⟩
    rw [Clause.readChain_eq, hskip, hjoined hbefore hafter hprecedes hstart hne rfl,
      Cursor.moveTo_position hrest, Cursor.moveTo_moveTo ⟨lead, hrest.symm⟩ hleft,
      chain_of_isLogic hlogic]
    rfl

theorem readable_comparison {text : Text} (h : Fragment text) : (comparison text).Readable := by
  refine readable_of_member h rfl ?_ ?_
  · intro cursor trail htrail hrest
    rw [Clause.readMember, Clause.Term.read_comparison_last h htrail hrest]
    rfl
  · intro cursor before after left connective hbefore hafter hprecedes hstart hne hrest
    have hsuffix : after ++ left <:+ cursor.rest :=
      ⟨text ++ (before ++ connective.token), by simp [hrest, Layout.text]⟩
    rw [Clause.readMember, Clause.Term.read_comparison_joined h hbefore hprecedes hrest,
      Except.ok_bind]
    simp only [Clause.readNext_eq (cursor.moveTo (after ++ left)) rfl hafter hstart hne,
      Except.ok_bind, Cursor.moveTo_moveTo hsuffix (List.suffix_append _ _)]
    rfl

theorem readable_group {negation : Option Text} {lead trail : Text} {inner : Layout}
    (h : (group negation lead inner trail).Legible) (hinner : inner.Readable) :
    (group negation lead inner trail).Readable := by
  obtain ⟨hnegation, hlead, htrail, hlegible, henclosable⟩ := id h
  have hbalanced : Lexeme.Balanced (lead ++ (inner.text ++ trail)) :=
    (Lexeme.balanced_of_blank hlead).append
      ((hlegible.balanced henclosable).append (Lexeme.balanced_of_blank htrail))
  have hsplit (left : Text) : (group negation lead inner trail).text ++ left =
      opening negation ++ (lead ++ (inner.text ++ trail) ++ ')' :: left) := by
    simp [text]
  have hread (position : Nat) :
      Clause.readChain (.start (lead ++ (inner.text ++ trail)) position) =
        .ok (inner.chain (position + lead.byteLength)) :=
    hinner.last _ hlead htrail rfl
  have hclause (position : Nat) : (group negation lead inner trail).clause position =
      .group negation.isSome
        (inner.clause (position + (opening negation).byteLength + lead.byteLength)) := by
    rw [clause, Text.byteLength_append, Nat.add_assoc]
  apply readable_of_member h rfl
  · intro cursor trail' htrail' hrest
    rw [hsplit] at hrest
    rw [Clause.readMember, Clause.Term.read_group hnegation hbalanced hrest, Except.ok_bind]
    simp only [hread, Except.ok_bind, Clause.readConnective_of_blank (cursor.moveTo trail') htrail',
      ofChain_chain, hclause]
    rfl
  · intro cursor before after left connective hbefore hafter _ hstart hne hrest
    rw [hsplit] at hrest
    have hend : before ++ (connective.token ++ (after ++ left)) <:+ cursor.rest :=
      ⟨opening negation ++ (lead ++ (inner.text ++ trail) ++ [')']), by simp [hrest]⟩
    have hafterToken : after ++ left <:+ before ++ (connective.token ++ (after ++ left)) :=
      ⟨before ++ connective.token, by simp⟩
    rw [Clause.readMember, Clause.Term.read_group hnegation hbalanced hrest, Except.ok_bind]
    simp only [hread, Except.ok_bind, Clause.readConnective_of_token
        (cursor.moveTo (before ++ (connective.token ++ (after ++ left)))) connective rfl hbefore,
      ofChain_chain, hclause, Cursor.moveTo_moveTo hend hafterToken,
      Clause.readNext_eq (cursor.moveTo (after ++ left)) rfl hafter hstart hne,
      Cursor.moveTo_moveTo (hafterToken.trans hend) (List.suffix_append _ _)]
    rfl

theorem readable_logic {left right : Layout} {before after : Text} {connective : Connective}
    (h : (logic left before connective after right).Legible) (hleft : left.Readable)
    (hright : right.Readable) : (logic left before connective after right).Readable := by
  obtain ⟨hlegible, hbefore, hafter, hlegibleRight, hlogic, hprecedes⟩ := h
  have hstart := hlegibleRight.startsFull
  have hne := hlegibleRight.text_ne_nil
  have hchain (position : Nat) : (logic left before connective after right).chain position =
      (left.chain position).append connective (right.chain (position +
        (left.text ++ before ++ connective.token ++ after).byteLength)) := by
    rw [chain, chain_of_isLogic hlogic]
  have hsplit (left' : Text) : (logic left before connective after right).text ++ left' =
      left.text ++ (before ++ (connective.token ++ (after ++ (right.text ++ left')))) := by
    simp [text]
  have hmiddle {lead : Text} (left' : Text) :
      lead ++ (left.text ++ (before ++ (connective.token ++ (after ++ (right.text ++ left'))))) =
        (lead ++ (left.text ++ before ++ connective.token ++ after)) ++ (right.text ++ left') := by
    simp
  constructor
  · intro cursor lead trail hlead htrail hrest
    rw [hsplit] at hrest
    have hnext := hright.last (cursor.moveTo (right.text ++ trail)) Text.blank_nil htrail rfl
    rw [hleft.joined cursor hlead hbefore hafter hprecedes (hstart.append hne trail)
        (by simp [hne]) hrest,
      hnext, Cursor.moveTo_position (hrest.trans (hmiddle trail)), hchain, Except.ok_map,
      Text.byteLength_append, Text.byteLength_nil, Nat.add_zero, Nat.add_assoc]
  · intro cursor lead before' after' left' connective' hlead hbefore' hafter' hprecedes' hstart'
      hne' hrest
    rw [hsplit] at hrest
    have hnext := hright.joined
      (cursor.moveTo (right.text ++ (before' ++ (connective'.token ++ (after' ++ left')))))
      Text.blank_nil hbefore' hafter' hprecedes' hstart' hne' rfl
    have hsuffix : left' <:+ right.text ++ (before' ++ (connective'.token ++ (after' ++ left'))) :=
      ⟨right.text ++ (before' ++ (connective'.token ++ after')), by simp⟩
    rw [hleft.joined cursor hlead hbefore hafter hprecedes (hstart.append hne _)
        (by simp [hne]) hrest,
      hnext, Cursor.moveTo_position (hrest.trans (hmiddle _)), hchain,
      Cursor.moveTo_moveTo ⟨_, (hrest.trans (hmiddle _)).symm⟩ hsuffix,
      Text.byteLength_append, Text.byteLength_nil, Nat.add_zero, ← Nat.add_assoc]
    cases Clause.readChain (cursor.moveTo left') with
    | error error => rfl
    | ok more =>
        simp only [Except.ok_map, Clause.Chain.append_assoc]

theorem Legible.readable {layout : Layout} (h : layout.Legible) : layout.Readable := by
  induction layout with
  | comparison text => exact readable_comparison h
  | group negation lead inner trail ih => exact readable_group h (ih h.2.2.2.1)
  | logic left before connective after right ihl ihr =>
      exact readable_logic h (ihl h.1) (ihr h.2.2.2.1)

end Layout

/-- A legible layout is read as its clause, whatever blanks are around it. -/
theorem Clause.parse_of_legible {layout : Layout} {lead trail : Text} (h : layout.Legible)
    (hlead : lead.Blank) (htrail : trail.Blank) :
    parse (lead ++ (layout.text ++ trail)) = .ok (layout.clause lead.byteLength) := by
  have hread := h.readable.last (.start (lead ++ (layout.text ++ trail)) 0) hlead htrail rfl
  rw [parse, hread, Except.ok_map, Layout.ofChain_chain, Cursor.start_position, Nat.zero_add]

end Criteria
