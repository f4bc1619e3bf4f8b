import Criteria.Proofs.Layout.Reading

/-!
Every text which is read as clauses is the text of a legible layout, with blanks
around it. Each piece that the reader takes off the text is put back at its place in
the layout, so nothing of a script that is accepted is lost.
-/

namespace Criteria

namespace Clause

variable {cursor after : Cursor} {connective : Connective} {text : Text} {position : Nat}
  {next : Option Connective}

/-! What stands where a piece was read -/

theorem exists_of_readNext {after : Option (Connective × Cursor)}
    (h : readNext (some connective) cursor = .ok after) :
    ∃ blanks following, Text.Blank blanks ∧ after = some (connective, following) ∧
      cursor.Takes blanks following := by
  obtain ⟨blanks, hblank, htakes⟩ := cursor.takes_skipBlanks
  simp only [readNext] at h
  split at h
  · simp at h
  · obtain rfl := Except.ok.inj h
    exact ⟨blanks, cursor.skipBlanks, hblank, rfl, htakes⟩

theorem eq_token_of_mem {token : Text} (h : token ∈ Connective.tokens) :
    ∃ connective : Connective, token = connective.token := by
  simp only [Connective.tokens, List.mem_cons, List.not_mem_nil, or_false] at h
  rcases h with rfl | rfl
  · exact ⟨.and, rfl⟩
  · exact ⟨.or, rfl⟩

theorem eq_of_tokenAt? {token left : Text}
    (h : Lexeme.tokenAt? Connective.tokens left = some token) :
    ∃ connective : Connective, token = connective.token ∧ connective.token <+: left := by
  obtain ⟨hmem, -, hstart⟩ := Lexeme.tokenAt?_eq_some h
  obtain ⟨connective, rfl⟩ := eq_token_of_mem hmem
  exact ⟨connective, rfl, hstart⟩

theorem blank_of_readConnective_none (h : readConnective cursor = .ok (none, after)) :
    Text.Blank cursor.rest := by
  obtain ⟨blanks, hblank, htakes⟩ := cursor.takes_skipBlanks
  simp only [readConnective] at h
  split at h
  · next hend =>
    have hnil : cursor.skipBlanks.rest = [] := by simpa [Cursor.atEnd] using hend
    rw [htakes.rest_eq, hnil, List.append_nil]
    exact hblank
  · split at h
    · next token htoken =>
      obtain ⟨connective, rfl, -⟩ := eq_of_tokenAt? htoken
      simp [ofToken?_token] at h
    · simp at h

theorem exists_of_readConnective_some (h : readConnective cursor = .ok (some connective, after)) :
    ∃ blanks, Text.Blank blanks ∧ cursor.Takes (blanks ++ connective.token) after := by
  obtain ⟨blanks, hblank, htakes⟩ := cursor.takes_skipBlanks
  simp only [readConnective] at h
  split at h
  · simp at h
  · split at h
    · next token htoken =>
      obtain ⟨connective', rfl, left, hleft⟩ := eq_of_tokenAt? htoken
      obtain ⟨hsame, rfl⟩ := Prod.mk.inj (Except.ok.inj h)
      rw [ofToken?_token] at hsame
      obtain rfl := Option.some.inj hsame
      refine ⟨blanks, hblank, htakes.trans ?_⟩
      rw [← hleft, List.drop_left]
      exact Cursor.takes_moveTo hleft.symm
    · simp at h

theorem Term.exists_of_readGroup {start : Nat} {negated negated' : Bool} {opened : Cursor}
    {interior : Text}
    (h : readGroup start negated cursor opened = .ok (.group negated' interior position after)) :
    negated' = negated ∧ position = opened.position ∧ Lexeme.Balanced interior ∧
      opened.Takes (interior ++ [')']) after := by
  unfold readGroup at h
  split at h
  · next interior' closing hgroup =>
    split at h
    · next after' hclose =>
      obtain ⟨rfl, rfl, rfl, rfl⟩ : negated = negated' ∧ interior' = interior ∧
          opened.position = position ∧ after' = after := by simpa using h
      obtain ⟨hinterior, hbalanced⟩ := Cursor.takes_of_takeGroup hgroup
      exact ⟨rfl, rfl, hbalanced, hinterior.trans (Cursor.takes_of_skipChar? hclose)⟩
    · simp at h
  · simp at h

/-- Where a group was read stands one, from its negation to its end. -/
theorem Term.exists_of_read_group {negated : Bool} {interior : Text}
    (h : read cursor = .ok (.group negated interior position after)) :
    ∃ negation : Option Text, negated = negation.isSome ∧
      (∀ gap, negation = some gap → gap.Blank) ∧ Lexeme.Balanced interior ∧
      position = cursor.position + (Layout.opening negation).byteLength ∧
      cursor.Takes (Layout.opening negation ++ (interior ++ [')'])) after := by
  unfold read at h
  split at h
  · next mark hmark =>
    obtain ⟨gap, hgap, hskip⟩ := mark.takes_skipBlanks
    simp only at h
    split at h
    · next opened hopen =>
      obtain ⟨rfl, rfl, hbalanced, hinterior⟩ := Term.exists_of_readGroup h
      have hopening : cursor.Takes (Layout.opening (some gap)) opened := by
        have hmarked := Cursor.takes_of_skipChar? hmark
        exact hmarked.trans (hskip.trans (Cursor.takes_of_skipChar? hopen))
      refine ⟨some gap, rfl, ?_, hbalanced, hopening.position_eq, hopening.trans hinterior⟩
      rintro _ ⟨⟩
      exact hgap
    · simp at h
  · split at h
    · next opened hopen =>
      obtain ⟨rfl, rfl, hbalanced, hinterior⟩ := Term.exists_of_readGroup h
      have hopening : cursor.Takes (Layout.opening none) opened := Cursor.takes_of_skipChar? hopen
      exact ⟨none, rfl, by simp, hbalanced, hopening.position_eq, hopening.trans hinterior⟩
    · obtain ⟨_, _, _, _, hterm, -⟩ := readComparison_shorter h
      simp at hterm

theorem Term.readComparison_of_read (h : read cursor = .ok (.comparison text position next after)) :
    cursor.rest.head? ≠ some '!' ∧ cursor.rest.head? ≠ some '(' ∧
      readComparison cursor = .ok (.comparison text position next after) := by
  unfold read at h
  split at h
  · simp only at h
    split at h
    · obtain ⟨_, _, _, hterm, -⟩ := readGroup_shorter h
      simp at hterm
    · simp at h
  · next hmark =>
    split at h
    · obtain ⟨_, _, _, hterm, -⟩ := readGroup_shorter h
      simp at hterm
    · next hopen =>
      exact ⟨Cursor.head?_of_skipChar? hmark, Cursor.head?_of_skipChar? hopen, h⟩

theorem Term.exists_of_readComparison
    (h : readComparison cursor = .ok (.comparison text position next after)) :
    ∃ fragment token left,
      Lexeme.splitAtToken Connective.tokens cursor.rest = (fragment, token, left) ∧
        text = Text.trim fragment ∧ text ≠ [] ∧ Lexeme.Avoids (· = ')') .outside text ∧
        position = cursor.position ∧ next = token.bind Connective.ofToken? ∧
        after = cursor.moveTo left := by
  simp only [readComparison, Cursor.takeUntil] at h
  cases hsplit : Lexeme.splitAtToken Connective.tokens cursor.rest with
  | mk fragment others =>
      obtain ⟨token, left⟩ := others
      simp only [hsplit, List.isEmpty_iff] at h
      split at h
      · simp at h
      · next hne =>
        split at h
        · simp at h
        · next hclose =>
          obtain ⟨rfl, rfl, rfl, rfl⟩ : Text.trim fragment = text ∧ cursor.position = position ∧
              token.bind Connective.ofToken? = next ∧ cursor.moveTo left = after := by
            simpa using h
          have hclear := (Lexeme.splitAtToken_eq_none hclose).2.2
          exact ⟨fragment, token, left, rfl, rfl, hne,
            (Lexeme.clear_singleton_iff (by decide)).mp hclear, rfl, rfl, rfl⟩

/-- Where a comparison was read stands one, at the end of the text or before a
connective. -/
theorem Term.exists_of_read_comparison (hstart : cursor.rest.StartsFull)
    (h : read cursor = .ok (.comparison text position next after)) :
    Fragment text ∧ position = cursor.position ∧
      ((next = none ∧ ∃ trail, Text.Blank trail ∧ cursor.rest = text ++ trail) ∨
        ∃ connective before, next = some connective ∧ Text.Blank before ∧
          (Layout.comparison text).Precedes before connective ∧
          cursor.Takes (text ++ (before ++ connective.token)) after) := by
  obtain ⟨hmark, hopen, hcomparison⟩ := Term.readComparison_of_read h
  obtain ⟨fragment, token, left, hsplit, htext, hne, hclose, rfl, rfl, rfl⟩ :=
    Term.exists_of_readComparison hcomparison
  have hfragment (following : Text) (hrest : cursor.rest = fragment ++ following)
      (hclear : Lexeme.Clear Connective.tokens .outside fragment following) :
      Fragment text ∧ ∃ before, Text.Blank before ∧ fragment = text ++ before := by
    obtain ⟨before, hbefore, hwhole⟩ :=
      Text.exists_trim_append (Text.StartsFull.of_append (hrest ▸ hstart))
    rw [← htext] at hwhole
    have hhead : cursor.rest.head? = text.head? := by
      rw [hrest, hwhole, List.append_assoc, List.head?_append_of_ne_nil text hne]
    rw [hwhole] at hclear
    refine ⟨⟨hne, ?_, ?_, ⟨hhead ▸ hmark, hhead ▸ hopen⟩, hclose, ?_⟩, before, hbefore, hwhole⟩
    · rw [htext]
      exact Text.startsFull_trim fragment
    · rw [htext]
      exact Text.endsFull_trim fragment
    · exact (Lexeme.clear_append_iff.mp hclear).1.alone
  cases token with
  | none =>
      obtain ⟨hwhole, rfl, hclear⟩ := Lexeme.splitAtToken_eq_none hsplit
      rw [← hwhole] at hclear
      obtain ⟨hlegible, trail, htrail, hrest⟩ :=
        hfragment [] (by rw [hwhole, List.append_nil]) hclear
      exact ⟨hlegible, rfl, .inl ⟨rfl, trail, htrail, hwhole.symm.trans hrest⟩⟩
  | some token =>
      obtain ⟨hwhole, hclear, hvisible⟩ := Lexeme.splitAtToken_eq_some hsplit
      obtain ⟨hlegible, before, hbefore, hrest⟩ := hfragment _ hwhole hclear
      obtain ⟨hplace, hmem, -, -⟩ := Lexeme.visibleToken?_eq_some hvisible
      obtain ⟨connective, rfl⟩ := eq_token_of_mem hmem
      subst hrest
      rw [Quoting.run_append] at hplace
      have hclosed := Lexeme.run_of_blank_eq_outside hbefore hplace
      have hshorter : Lexeme.Clear Connective.tokens .outside (text ++ before)
          connective.token := by
        cases connective <;> exact hclear.of_short (by decide) _
      refine ⟨hlegible, rfl, .inr ⟨connective, before, ?_, hbefore, ⟨hshorter, hclosed⟩, ?_⟩⟩
      · rw [Option.bind_some, ofToken?_token]
      · apply Cursor.takes_moveTo
        rw [hwhole]
        simp

end Clause

namespace Layout

/-- Puts a member and a connective before a layout. -/
def prepend : (layout member : Layout) → (before : Text) → Connective → (after : Text) → Layout
  | logic left before' connective' after' right, member, before, connective, after =>
      logic (left.prepend member before connective after) before' connective' after' right
  | layout, member, before, connective, after => logic member before connective after layout

section

variable {member layout : Layout} {before after : Text} {connective : Connective}

theorem text_prepend (member layout : Layout) (before after : Text) (connective : Connective) :
    (layout.prepend member before connective after).text =
      member.text ++ (before ++ (connective.token ++ (after ++ layout.text))) := by
  induction layout with
  | comparison text => rfl
  | group negation lead inner trail ih => rfl
  | logic left before' connective' after' right ihl ihr => simp [prepend, text, ihl]

theorem chain_prepend (position : Nat) :
    (layout.prepend member before connective after).chain position =
      (member.chain position).append connective (layout.chain (position +
        (member.text ++ (before ++ (connective.token ++ after))).byteLength)) := by
  induction layout with
  | comparison text => simp [prepend, chain, clause]
  | group negation lead inner trail ih => simp [prepend, chain, clause]
  | logic left before' connective' after' right ihl ihr =>
      rw [prepend, chain, ihl, chain, Clause.Chain.append_assoc, text_prepend]
      simp [Nat.add_assoc]

theorem precedes_prepend {before' : Text} {connective' : Connective} :
    (layout.prepend member before connective after).Precedes before' connective' ↔
      layout.Precedes before' connective' := by
  cases layout <;> rfl

theorem Legible.prepend (h : layout.Legible) (hmember : member.Legible) (hbefore : before.Blank)
    (hafter : after.Blank) (hprecedes : member.Precedes before connective) :
    (layout.prepend member before connective after).Legible := by
  induction layout with
  | comparison text => exact ⟨hmember, hbefore, hafter, h, rfl, hprecedes⟩
  | group negation lead inner trail ih => exact ⟨hmember, hbefore, hafter, h, rfl, hprecedes⟩
  | logic left before' connective' after' right ihl ihr =>
      obtain ⟨hleft, hbefore', hafter', hright, hlogic, hjoined⟩ := h
      exact ⟨ihl hleft, hbefore', hafter', hright, hlogic, precedes_prepend.mpr hjoined⟩

end

/-- A layout stands at a cursor, at the end of the text or before the connective which
the reader goes on behind. -/
inductive StandsAt (layout : Layout) (cursor : Cursor) : Option (Connective × Cursor) → Prop
  | last {trail : Text} (htrail : trail.Blank) (hrest : cursor.rest = layout.text ++ trail) :
      StandsAt layout cursor none
  | joined {connective : Connective} {before after : Text} {following : Cursor}
      (hbefore : before.Blank) (hafter : after.Blank)
      (hprecedes : layout.Precedes before connective)
      (htakes : cursor.Takes (layout.text ++ (before ++ (connective.token ++ after))) following) :
      StandsAt layout cursor (some (connective, following))

/-- A chain which is that of a legible layout with blanks around it. -/
def Covers (text : Text) (position : Nat) (chain : Clause.Chain) : Prop :=
  ∃ lead layout trail, Text.Blank lead ∧ Text.Blank trail ∧ Legible layout ∧
    text = lead ++ (layout.text ++ trail) ∧ chain = layout.chain (position + lead.byteLength)

end Layout

namespace Clause

variable {cursor : Cursor} {text : Text} {position : Nat} {next : Option Connective}

theorem standsAt_of_read_comparison {after : Option (Connective × Cursor)} {behind : Cursor}
    (hstart : cursor.rest.StartsFull)
    (hterm : Term.read cursor = .ok (.comparison text position next behind))
    (hnext : readNext next behind = .ok after) :
    Fragment text ∧ position = cursor.position ∧
      (Layout.comparison text).StandsAt cursor after := by
  obtain ⟨hlegible, hplace, hjoined⟩ := Term.exists_of_read_comparison hstart hterm
  refine ⟨hlegible, hplace, ?_⟩
  rcases hjoined with ⟨rfl, trail, htrail, hrest⟩ |
    ⟨connective, before, rfl, hbefore, hprecedes, htakes⟩
  · obtain rfl := Except.ok.inj hnext
    exact .last htrail hrest
  · obtain ⟨blanks, following, hblank, rfl, hskip⟩ := exists_of_readNext hnext
    apply Layout.StandsAt.joined hbefore hblank hprecedes
    simpa [Layout.text] using htakes.trans hskip

theorem standsAt_of_readConnective {after : Option (Connective × Cursor)}
    {opened behind : Cursor} {negation : Option Text} {lead trail : Text} {inner : Layout}
    (htakes : cursor.Takes (Layout.group negation lead inner trail).text opened)
    (hconnective : readConnective opened = .ok (next, behind))
    (hnext : readNext next behind = .ok after) :
    (Layout.group negation lead inner trail).StandsAt cursor after := by
  cases next with
  | none =>
      obtain rfl := Except.ok.inj hnext
      exact .last (blank_of_readConnective_none hconnective) htakes.rest_eq
  | some connective =>
      obtain ⟨before, hbefore, hjoin⟩ := exists_of_readConnective_some hconnective
      obtain ⟨blanks, following, hblank, rfl, hskip⟩ := exists_of_readNext hnext
      refine .joined hbefore hblank trivial ?_
      simpa using htakes.trans (hjoin.trans hskip)

/-- What a member was read from, when this is known of everything inside a group. -/
theorem exists_of_readMember {clause : Clause} {after : Option (Connective × Cursor)}
    (hstart : cursor.rest.StartsFull)
    (hinner : ∀ interior position chain, interior.length < cursor.rest.length →
      readChain (.start interior position) = .ok chain → Layout.Covers interior position chain)
    (h : readMember cursor = .ok (clause, after)) :
    ∃ layout : Layout, layout.Legible ∧ layout.isLogic = false ∧
      clause = layout.clause cursor.position ∧ layout.StandsAt cursor after := by
  obtain ⟨term, hterm, h⟩ := Except.bind_eq_ok_iff.mp h
  cases term with
  | comparison text position next behind =>
      obtain ⟨after', hnext, hsame⟩ := Except.bind_eq_ok_iff.mp h
      obtain ⟨rfl, rfl⟩ := Prod.mk.inj (Except.ok.inj hsame)
      obtain ⟨hlegible, rfl, hstands⟩ := standsAt_of_read_comparison hstart hterm hnext
      exact ⟨.comparison text, hlegible, rfl, rfl, hstands⟩
  | group negated interior position opened =>
      obtain ⟨negation, rfl, hnegation, hbalanced, rfl, htakes⟩ := Term.exists_of_read_group hterm
      obtain ⟨inner, hread, h⟩ := Except.bind_eq_ok_iff.mp h
      obtain ⟨⟨next, behind⟩, hconnective, h⟩ := Except.bind_eq_ok_iff.mp h
      obtain ⟨after', hnext, hsame⟩ := Except.bind_eq_ok_iff.mp h
      obtain ⟨rfl, rfl⟩ := Prod.mk.inj (Except.ok.inj hsame)
      have hshorter : interior.length < cursor.rest.length := Term.interior_shorter hterm
      obtain ⟨lead, layout, trail, hlead, htrail, hlegible, rfl, rfl⟩ := hinner _ _ _ hshorter hread
      have henclosable : layout.Enclosable :=
        hlegible.enclosable hlead htrail (by simpa using hbalanced)
      have htext : Layout.opening negation ++ (lead ++ (layout.text ++ trail) ++ [')']) =
          (Layout.group negation lead layout trail).text := by
        simp [Layout.text]
      rw [htext] at htakes
      refine ⟨.group negation lead layout trail,
        ⟨hnegation, hlead, htrail, hlegible, henclosable⟩, rfl, ?_,
        standsAt_of_readConnective htakes hconnective hnext⟩
      rw [Layout.ofChain_chain, Layout.clause, Text.byteLength_append, Nat.add_assoc]

/-- Every chain is read from a legible layout. The induction is on the length of the
text, which covers both the inside of a group and what follows a connective. -/
theorem covers_of_readChain {cursor : Cursor} {chain : Chain} (h : readChain cursor = .ok chain) :
    Layout.Covers cursor.rest cursor.position chain := by
  induction hlength : cursor.rest.length using Nat.strong_induction_on
    generalizing cursor chain with
  | _ length ih =>
      obtain ⟨lead, hlead, hskip⟩ := cursor.takes_skipBlanks
      rw [readChain_eq] at h
      obtain ⟨⟨clause, after⟩, hmember, h⟩ := Except.bind_eq_ok_iff.mp h
      have hstart : cursor.skipBlanks.rest.StartsFull := Text.startsFull_skipBlanks _
      have hle : cursor.skipBlanks.rest.length ≤ length := hlength ▸ cursor.skipBlanks_le
      obtain ⟨member, hlegible, hlogic, rfl, hstands⟩ := exists_of_readMember hstart
        (fun _ _ _ hinner hread => ih _ (Nat.lt_of_lt_of_le hinner hle) hread rfl) hmember
      cases hstands with
      | @last trail htrail hrest =>
          obtain rfl := Except.ok.inj h
          refine ⟨lead, member, trail, hlead, htrail, hlegible, ?_, ?_⟩
          · rw [hskip.rest_eq, hrest]
          · rw [Layout.chain_of_isLogic hlogic, hskip.position_eq]
      | @joined connective before after following hbefore hafter hprecedes htakes =>
          obtain ⟨more, hmore, rfl⟩ := Except.map_eq_ok_iff.mp h
          have hshorter : following.rest.length < length := by
            have hlengths := congrArg List.length htakes.rest_eq
            have hpositive := List.length_pos_of_ne_nil hlegible.text_ne_nil
            simp only [List.length_append] at hlengths
            omega
          obtain ⟨lead', layout, trail, hlead', htrail, hlegible', hrest, rfl⟩ :=
            ih _ hshorter hmore rfl
          have hblank := Text.blank_append_iff.mpr ⟨hafter, hlead'⟩
          refine ⟨lead, layout.prepend member before connective (after ++ lead'), trail, hlead,
            htrail, hlegible'.prepend hlegible hbefore hblank hprecedes, ?_, ?_⟩
          · rw [hskip.rest_eq, htakes.rest_eq, hrest, Layout.text_prepend]
            simp
          · rw [Layout.chain_prepend, Layout.chain_of_isLogic hlogic, htakes.position_eq,
              hskip.position_eq]
            simp [Chain.cons, Chain.append, Nat.add_assoc]

/-- The scripts whose clauses can be read are the legible layouts with blanks around
them, and the clause is that of the layout. -/
theorem parse_eq_ok_iff {text : Text} {clause : Clause} :
    parse text = .ok clause ↔
      ∃ lead layout trail, Text.Blank lead ∧ Text.Blank trail ∧ Layout.Legible layout ∧
        text = lead ++ (layout.text ++ trail) ∧ clause = layout.clause lead.byteLength := by
  constructor
  · intro h
    obtain ⟨chain, hread, rfl⟩ := Except.map_eq_ok_iff.mp h
    obtain ⟨lead, layout, trail, hlead, htrail, hlegible, htext, rfl⟩ := covers_of_readChain hread
    refine ⟨lead, layout, trail, hlead, htrail, hlegible, htext, ?_⟩
    rw [Layout.ofChain_chain, Cursor.start_position, Nat.zero_add]
  · rintro ⟨lead, layout, trail, hlead, htrail, hlegible, rfl, rfl⟩
    exact parse_of_legible hlegible hlead htrail

theorem trim_ne_nil_of_parse {text : Text} {clause : Clause} (h : parse text = .ok clause) :
    Text.trim text ≠ [] := by
  obtain ⟨lead, layout, trail, hlead, -, hlegible, rfl, -⟩ := parse_eq_ok_iff.mp h
  rw [Text.trim_blank_append hlead]
  apply Text.trim_ne_nil (hlegible.startsFull.append hlegible.text_ne_nil trail)
  simp [hlegible.text_ne_nil]

end Clause

end Criteria
