import Criteria.Proofs.Scanning.Quoting
import Criteria.Proofs.Symbol.Written

/-!
The grammar of symbols. A key is the longest run of word characters and dots, and indexers
follow it as long as there are any. What is left then decides: nothing but blanks makes a
symbol, an opening bracket an error, and anything else no symbol. The reader of symbols gives
the outcome of this grammar, and no other, for every text.
-/

namespace Criteria

namespace Lexeme

/-- Letters, digits, underscores and dots, of which no dot is first or right behind another. -/
structure Dotted (run : Text) : Prop where
  characters : ∀ c ∈ run, c.isAlphanum = true ∨ c = '_' ∨ c = '.'
  first : run.head? ≠ some '.'
  behind : ¬['.', '.'] <:+: run

/-- The longest such run with which the text starts. -/
structure Leads (run text : Text) : Prop where
  dotted : Dotted run
  starts : run <+: text
  longest : ∀ other, Dotted other → other <+: text → other.length ≤ run.length

/-- A run which is a key. -/
structure Names (run : Text) : Prop where
  ne_nil : run ≠ []
  first : ∀ c, run.head? = some c → c.isDigit = false
  last : run.getLast? ≠ some '.'

variable {c : Char} {run text other left : Text} {dotAllowed : Bool}

theorem two_dots_infix_cons_iff :
    ['.', '.'] <:+: c :: run ↔ (c = '.' ∧ run.head? = some '.') ∨ ['.', '.'] <:+: run := by
  rw [List.infix_cons_iff, List.cons_prefix_cons, List.singleton_prefix_iff_head?_eq_some, eq_comm]

theorem isWordCharacter_dot : isWordCharacter '.' = false := by
  decide

theorem dottedRun_eq_self_iff :
    dottedRun dotAllowed run = run ↔
      (∀ c ∈ run, isWordCharacter c = true ∨ c = '.') ∧
        (dotAllowed = false → run.head? ≠ some '.') ∧ ¬['.', '.'] <:+: run := by
  induction run generalizing dotAllowed with
  | nil => simp [dottedRun]
  | cons c rest ih =>
      rw [dottedRun, two_dots_infix_cons_iff, List.forall_mem_cons]
      by_cases hword : isWordCharacter c = true
      · have hdot : c ≠ '.' := by
          rintro rfl
          rw [isWordCharacter_dot] at hword
          cases hword
        rw [if_pos hword, List.cons_inj_right, ih]
        simp [hword, hdot]
      · rw [if_neg hword]
        by_cases hdot : c = '.'
        · subst hdot
          cases dotAllowed with
          | false => simp
          | true =>
              rw [if_pos (by simp), List.cons_inj_right, ih]
              simp [not_or]
        · simp [hword, hdot]

theorem dotted_iff : Dotted run ↔ dottedRun false run = run := by
  rw [dottedRun_eq_self_iff]
  constructor
  · rintro ⟨hcharacters, hfirst, hbehind⟩
    refine ⟨fun c hc => ?_, fun _ => hfirst, hbehind⟩
    simpa [isWordCharacter, or_comm, or_left_comm] using hcharacters c hc
  · rintro ⟨hcharacters, hfirst, hbehind⟩
    refine ⟨fun c hc => ?_, hfirst rfl, hbehind⟩
    simpa [isWordCharacter, or_comm, or_left_comm] using hcharacters c hc

theorem dottedRun_dottedRun :
    dottedRun dotAllowed (dottedRun dotAllowed text) = dottedRun dotAllowed text := by
  fun_induction dottedRun dotAllowed text with
  | case1 => rfl
  | case2 dotAllowed c rest hword ih => rw [dottedRun, if_pos hword, ih]
  | case3 dotAllowed c rest hword hdot ih => rw [dottedRun, if_neg hword, if_pos hdot, ih]
  | case4 => rfl

theorem prefix_dottedRun (hother : dottedRun dotAllowed other = other) (hstarts : other <+: text) :
    other <+: dottedRun dotAllowed text := by
  induction other generalizing dotAllowed text with
  | nil => exact List.nil_prefix
  | cons c more ih =>
      obtain ⟨rest, rfl, hrest⟩ := List.cons_prefix_iff.mp hstarts
      rw [dottedRun] at hother ⊢
      split at hother
      · next hword =>
        rw [if_pos hword]
        exact (List.prefix_cons_inj c).mpr (ih (List.cons.inj hother).2 hrest)
      · next hword =>
        split at hother
        · next hdot =>
          rw [if_neg hword, if_pos hdot]
          exact (List.prefix_cons_inj c).mpr (ih (List.cons.inj hother).2 hrest)
        · cases hother

/-- There is one longest run, and it is what the reader of keys goes over. -/
theorem leads_iff : Leads run text ↔ dottedRun false text = run := by
  have hself : Dotted (dottedRun false text) := dotted_iff.mpr dottedRun_dottedRun
  have hstarts : dottedRun false text <+: text := dottedRun_isPrefix false text
  constructor
  · rintro ⟨hdotted, hrun, hlongest⟩
    have hle : run <+: dottedRun false text := prefix_dottedRun (dotted_iff.mp hdotted) hrun
    exact (hle.eq_of_length_le (hlongest _ hself hstarts)).symm
  · rintro rfl
    refine ⟨hself, hstarts, fun other hother hprefix => ?_⟩
    exact (prefix_dottedRun (dotted_iff.mp hother) hprefix).length_le

theorem names_iff : Names run ↔ isIdentifier run = true := by
  rw [isIdentifier_eq_true_iff]
  constructor
  · rintro ⟨hne, hfirst, hlast⟩
    refine ⟨run.head hne, run.getLast hne, List.head?_eq_some_head hne,
      List.getLast?_eq_some_getLast hne, hfirst _ (List.head?_eq_some_head hne), ?_⟩
    intro hdot
    exact hlast (hdot ▸ List.getLast?_eq_some_getLast hne)
  · rintro ⟨first, last, hfirst, hlast, hdigit, hdot⟩
    refine ⟨?_, ?_, ?_⟩
    · rintro rfl
      cases hfirst
    · intro c hc
      obtain rfl := Option.some.inj (hfirst.symm.trans hc)
      exact hdigit
    · intro hend
      exact hdot (Option.some.inj (hlast.symm.trans hend))

theorem identifier?_of_leads (hrun : Leads run (run ++ left)) (hname : Names run) :
    identifier? (run ++ left) = some (run, left) :=
  identifier?_eq_some_iff.mpr ⟨leads_iff.mp hrun, names_iff.mp hname, List.drop_left⟩

theorem identifier?_eq_none (hrun : Leads run text) (hname : ¬Names run) :
    identifier? text = none := by
  rw [Option.eq_none_iff_forall_ne_some]
  rintro ⟨key, left⟩ hkey
  obtain ⟨hsame, hidentifier, -⟩ := identifier?_eq_some_iff.mp hkey
  rw [leads_iff.mp hrun] at hsame
  exact hname (names_iff.mpr (hsame ▸ hidentifier))

end Lexeme

/-- What stands between the brackets of an indexer, and what follows it: a literal, or a number
that is whole and not below zero. -/
inductive Indexer.Starts : Indexer → (text left : Text) → Prop
  | key {body name left : Text} (hbody : Quoted.Denotes body name) :
      Starts (key name) ('"' :: (body ++ '"' :: left)) left
  | position {text left : Text} {negative : Bool} {whole : Nat}
      (hnumber : Lexeme.number? text = some (.finite negative (whole * Number.one), left))
      (hsign : negative = true → whole = 0) :
      Starts (position (min whole Number.maxIndex)) text left

/-- An indexer in brackets, with blanks before and inside them, and what follows it. -/
inductive Indexer.Opens : Indexer → (text left : Text) → Prop
  | intro {indexer : Indexer} {blanks lead trail text left : Text} (hblanks : Text.Blank blanks)
      (hlead : Text.Blank lead) (htrail : Text.Blank trail)
      (hindexer : indexer.Starts text (trail ++ ']' :: left)) :
      Opens indexer (blanks ++ '[' :: (lead ++ text)) left

/-- All indexers with which a text starts, one behind another, and what follows the last. -/
inductive Indexer.Path : List Indexer → (text left : Text) → Prop
  | nil {text : Text} (hnone : ∀ indexer left, ¬Opens indexer text left) : Path [] text text
  | cons {indexer : Indexer} {more : List Indexer} {text rest left : Text}
      (hindexer : Opens indexer text rest) (hmore : Path more rest left) :
      Path (indexer :: more) text left

/-- The outcome for a text, an error being given by the number of its code. -/
inductive Symbol.Grammar (text : Text) : Except (Option Nat) (Option Symbol) → Prop
  | unnamed {run : Text} (hrun : Lexeme.Leads run text) (hname : ¬Lexeme.Names run) :
      Grammar text (.ok none)
  | symbol {run rest left : Text} {indexers : List Indexer} (hrun : Lexeme.Leads run text)
      (hname : Lexeme.Names run) (hwhole : text = run ++ rest)
      (hpath : Indexer.Path indexers rest left) (hend : Text.Blank left) :
      Grammar text (.ok (some { source := text, key := run, indexers }))
  | malformed {run rest left blanks more : Text} {indexers : List Indexer}
      (hrun : Lexeme.Leads run text) (hname : Lexeme.Names run) (hwhole : text = run ++ rest)
      (hpath : Indexer.Path indexers rest left) (hblanks : Text.Blank blanks)
      (hopen : left = blanks ++ '[' :: more) :
      Grammar text (.error (some 2007))
  | followed {run rest left : Text} {indexers : List Indexer} (hrun : Lexeme.Leads run text)
      (hname : Lexeme.Names run) (hwhole : text = run ++ rest)
      (hpath : Indexer.Path indexers rest left) (hend : ¬Text.Blank left)
      (hopen : ∀ blanks more, Text.Blank blanks → left ≠ blanks ++ '[' :: more) :
      Grammar text (.ok none)

theorem Indexer.Starts.startsFull {indexer : Indexer} {text left : Text}
    (h : indexer.Starts text left) : text.StartsFull := by
  intro c hc
  cases h with
  | key _ =>
      obtain rfl := Option.some.inj hc
      decide
  | position hnumber _ =>
      obtain ⟨d, hhead, hd⟩ := Lexeme.head?_of_number? hnumber
      obtain rfl := Option.some.inj (hc.symm.trans hhead)
      rcases hd with rfl | hdigit
      · decide
      · exact Lexeme.isBlank_of_isWordCharacter (Lexeme.isWordCharacter_of_isDigit hdigit)

theorem Indexer.Starts.length_le {indexer : Indexer} {text left : Text}
    (h : indexer.Starts text left) : left.length ≤ text.length := by
  cases h with
  | key _ =>
      simp only [List.length_cons, List.length_append]
      omega
  | position hnumber _ => exact Lexeme.number?_le hnumber

theorem Indexer.Opens.length_lt {indexer : Indexer} {text left : Text}
    (h : indexer.Opens text left) : left.length < text.length := by
  obtain ⟨-, -, -, hindexer⟩ := h
  have hle := hindexer.length_le
  simp only [List.length_append, List.length_cons] at hle ⊢
  omega

/-- Some indexers, maybe none, are all with which a text starts. -/
theorem Indexer.exists_path (text : Text) : ∃ indexers left, Path indexers text left := by
  induction hlength : text.length using Nat.strong_induction_on generalizing text with
  | _ n ih =>
      subst hlength
      by_cases hopen : ∃ indexer rest, Opens indexer text rest
      · obtain ⟨indexer, rest, hindexer⟩ := hopen
        obtain ⟨more, left, hmore⟩ := ih rest.length hindexer.length_lt rest rfl
        exact ⟨indexer :: more, left, .cons hindexer hmore⟩
      · exact ⟨[], text, .nil fun indexer left hindexer => hopen ⟨indexer, left, hindexer⟩⟩

namespace Symbol

variable {cursor opened after : Cursor} {text left : Text} {indexer : Indexer}
  {indexers : List Indexer} {outcome : Except (Option Nat) (Option Symbol)}

theorem starts_of_readIndex (h : readIndex cursor = (some indexer, after)) :
    indexer.Starts cursor.rest after.rest := by
  unfold readIndex at h
  split at h
  · next name behind hquoted =>
    obtain ⟨⟨name', left⟩, hdecode, hsame⟩ := Option.map_eq_some_iff.mp hquoted
    obtain ⟨rfl, rfl⟩ := Prod.mk.inj hsame
    obtain ⟨hindexer, rfl⟩ := Prod.mk.inj h
    obtain rfl := Option.some.inj hindexer
    obtain ⟨body, hwhole, hbody⟩ := Quoted.decode?_eq_some_iff.mp hdecode
    rw [hwhole]
    exact .key hbody
  · split at h
    · next value behind hread =>
      obtain ⟨⟨value', left⟩, hnumber, hsame⟩ := Option.map_eq_some_iff.mp hread
      obtain ⟨rfl, rfl⟩ := Prod.mk.inj hsame
      obtain ⟨hindex, rfl⟩ := Prod.mk.inj h
      obtain ⟨index, hvalue, rfl⟩ := Option.map_eq_some_iff.mp hindex
      obtain ⟨negative, whole, rfl, hsign, rfl⟩ := Number.index?_eq_some_iff.mp hvalue
      exact .position hnumber hsign
    · cases h

theorem readIndex_of_starts (h : indexer.Starts cursor.rest left) :
    readIndex cursor = (some indexer, cursor.moveTo left) := by
  generalize hrest : cursor.rest = rest at h
  cases h with
  | @key body name left hbody =>
      have hdecode : Quoted.decode? cursor.rest = some (name, left) :=
        Quoted.decode?_eq_some_iff.mpr ⟨body, hrest, hbody⟩
      have hquoted : cursor.readQuoted? = some (name, cursor.moveTo left) := by
        rw [Cursor.readQuoted?, hdecode]
        rfl
      rw [readIndex, hquoted]
  | @position _ left negative whole hnumber hsign =>
      have hplain : cursor.readQuoted? = none := by
        obtain ⟨c, hhead, hc⟩ := Lexeme.head?_of_number? hnumber
        rw [Cursor.readQuoted?, Option.map_eq_none_iff, hrest]
        apply Quoted.decode?_eq_none
        rw [hhead]
        rintro ⟨⟩
        revert hc
        decide
      have hread : cursor.readNumber? =
          some (.finite negative (whole * Number.one), cursor.moveTo left) := by
        rw [Cursor.readNumber?, hrest, hnumber]
        rfl
      rw [readIndex, hplain, hread]
      simp only [Number.index?_eq_some_iff.mpr ⟨negative, whole, rfl, hsign, rfl⟩, Option.map_some]

theorem starts_of_readIndexer (h : readIndexer cursor = .ok (indexer, after)) :
    ∃ lead text trail, cursor.rest = lead ++ text ∧ Text.Blank lead ∧ Text.Blank trail ∧
      indexer.Starts text (trail ++ ']' :: after.rest) := by
  simp only [readIndexer] at h
  split at h
  · next found closed hfound hclose =>
    obtain ⟨rfl, rfl⟩ := Prod.mk.inj (Except.ok.inj h)
    obtain ⟨lead, hlead, htakes⟩ := cursor.takes_skipBlanks
    obtain ⟨trail, htrail, hbehind⟩ := (readIndex cursor.skipBlanks).2.takes_skipBlanks
    have hstarts := starts_of_readIndex (Prod.ext hfound rfl)
    rw [hbehind.rest_eq, (Cursor.skipChar?_eq_some hclose).1] at hstarts
    exact ⟨lead, _, trail, htakes.rest_eq, hlead, htrail, hstarts⟩
  · cases h

theorem readIndexer_of_starts {lead trail : Text} (hrest : cursor.rest = lead ++ text)
    (hlead : Text.Blank lead) (htrail : Text.Blank trail)
    (hindexer : indexer.Starts text (trail ++ ']' :: left)) :
    ∃ after, readIndexer cursor = .ok (indexer, after) ∧ after.rest = left := by
  have hskip : cursor.skipBlanks = cursor.moveTo text :=
    Cursor.skipBlanks_eq hrest hlead hindexer.startsFull
  have hindex : readIndex cursor.skipBlanks =
      (some indexer, cursor.skipBlanks.moveTo (trail ++ ']' :: left)) := by
    apply readIndex_of_starts
    rwa [hskip]
  have hclosing : (cursor.skipBlanks.moveTo (trail ++ ']' :: left)).skipBlanks.rest = ']' :: left :=
    (Text.skipBlanks_append htrail _).trans (Text.skipBlanks_of_startsFull (by rintro c ⟨⟩; decide))
  refine ⟨(cursor.skipBlanks.moveTo (trail ++ ']' :: left)).skipBlanks.moveTo left, ?_, rfl⟩
  simp only [readIndexer, hindex, Cursor.skipChar?_of_rest hclosing]

/-- The reader goes through the indexers, and fails where a bracket opens none. -/
theorem readIndexers_of_path (h : Indexer.Path indexers text left) (hrest : cursor.rest = text) :
    ((Text.skipBlanks left).head? ≠ some '[' →
      ∃ after, readIndexers cursor = .ok (indexers, after) ∧ after.rest = Text.skipBlanks left) ∧
    ((Text.skipBlanks left).head? = some '[' →
      ∃ position, readIndexers cursor = .error position) := by
  induction h generalizing cursor with
  | @nil text hnone =>
      have hskip : cursor.skipBlanks.rest = Text.skipBlanks text := congrArg Text.skipBlanks hrest
      constructor
      · intro hopen
        rw [← hskip] at hopen
        exact ⟨_, readIndexers_of_none (Cursor.skipChar?_eq_none hopen), hskip⟩
      · intro hopen
        obtain ⟨more, hmore⟩ := List.head?_eq_some_iff.mp hopen
        have hopened := Cursor.skipChar?_of_rest (hskip.trans hmore)
        cases hread : readIndexer (cursor.skipBlanks.moveTo more) with
        | error position =>
            exact ⟨position, by rw [readIndexers_of_opened hopened, hread, Except.error_bind]⟩
        | ok found =>
            obtain ⟨indexer, after⟩ := found
            obtain ⟨lead, inner, trail, hinner, hlead, htrail, hindexer⟩ :=
              starts_of_readIndexer hread
            obtain ⟨blanks, hblanks, hwhole⟩ := Text.exists_append_skipBlanks text
            rw [Cursor.moveTo_rest] at hinner
            rw [hmore, hinner] at hwhole
            exact absurd (hwhole ▸ .intro hblanks hlead htrail hindexer) (hnone indexer after.rest)
  | @cons indexer more text rest left hindexer _ ih =>
      obtain ⟨hblanks, hlead, htrail, hstarts⟩ := hindexer
      have hskip : cursor.skipBlanks.rest = _ :=
        (congrArg Text.skipBlanks hrest).trans (Text.skipBlanks_append hblanks _)
      have hopened : cursor.skipBlanks.skipChar? '[' = some _ := Cursor.skipChar?_of_rest hskip
      obtain ⟨after, hread, hafter⟩ :=
        readIndexer_of_starts (Cursor.moveTo_rest cursor.skipBlanks _) hlead htrail hstarts
      obtain ⟨hall, hfails⟩ := ih hafter
      rw [readIndexers_of_some hopened hread]
      constructor
      · intro hopen
        obtain ⟨behind, hmore, hbehind⟩ := hall hopen
        exact ⟨behind, by rw [hmore]; rfl, hbehind⟩
      · intro hopen
        obtain ⟨position, hmore⟩ := hfails hopen
        exact ⟨position, by rw [hmore]; rfl⟩

/-- A text which starts with a key is a symbol if its indexers are followed by blanks alone. -/
theorem ofText?_of_path {run rest : Text} (hrun : Lexeme.Leads run text) (hname : Lexeme.Names run)
    (hwhole : text = run ++ rest) (hpath : Indexer.Path indexers rest left) :
    ((Text.skipBlanks left).head? ≠ some '[' → ofText? text = .ok (
      if Text.skipBlanks left = [] then some { source := text, key := run, indexers }
      else none)) ∧
    ((Text.skipBlanks left).head? = some '[' →
      ∃ position, ofText? text = .error (.script (.expectedIndexer text position))) := by
  have hkey : (Cursor.start text 0).readIdentifier? =
      some (run, (Cursor.start text 0).moveTo rest) := by
    rw [Cursor.readIdentifier?, Cursor.start_rest, hwhole,
      Lexeme.identifier?_of_leads (hwhole ▸ hrun) hname]
    rfl
  obtain ⟨hall, hfails⟩ :=
    readIndexers_of_path hpath (Cursor.moveTo_rest (Cursor.start text 0) rest)
  constructor
  · intro hopen
    obtain ⟨after, hindexers, hafter⟩ := hall hopen
    simp only [ofText?, hkey, hindexers, Cursor.atEnd, hafter, List.isEmpty_iff]
  · intro hopen
    obtain ⟨position, hindexers⟩ := hfails hopen
    simp only [ofText?, hkey, hindexers]
    exact ⟨position, rfl⟩

theorem ofText?_of_grammar (h : Grammar text outcome) :
    (ofText? text).mapError (fun error => error.code?.map ErrorCode.number) = outcome := by
  cases h with
  | unnamed hrun hname =>
      have hkey : (Cursor.start text 0).readIdentifier? = none := by
        rw [Cursor.readIdentifier?, Cursor.start_rest, Lexeme.identifier?_eq_none hrun hname,
          Option.map_none]
      rw [ofText?, hkey]
      rfl
  | symbol hrun hname hwhole hpath hend =>
      have hnothing := Text.skipBlanks_eq_nil_iff.mpr hend
      rw [(ofText?_of_path hrun hname hwhole hpath).1 (by simp [hnothing]), if_pos hnothing]
      rfl
  | malformed hrun hname hwhole hpath hblanks hopen =>
      have hbracket := (Text.head?_skipBlanks_eq_some_iff (by decide)).mpr ⟨_, _, hblanks, hopen⟩
      obtain ⟨position, hread⟩ := (ofText?_of_path hrun hname hwhole hpath).2 hbracket
      rw [hread]
      rfl
  | @followed run rest left indexers hrun hname hwhole hpath hend hopen =>
      have hsomething := mt Text.skipBlanks_eq_nil_iff.mp hend
      have hbracket : (Text.skipBlanks left).head? ≠ some '[' := by
        rw [Ne, Text.head?_skipBlanks_eq_some_iff (by decide)]
        rintro ⟨blanks, more, hblanks, hleft⟩
        exact hopen blanks more hblanks hleft
      rw [(ofText?_of_path hrun hname hwhole hpath).1 hbracket, if_neg hsomething]
      rfl

theorem exists_grammar (text : Text) : ∃ outcome, Grammar text outcome := by
  have hrun : Lexeme.Leads (Lexeme.dottedRun false text) text := Lexeme.leads_iff.mpr rfl
  by_cases hname : Lexeme.Names (Lexeme.dottedRun false text)
  · obtain ⟨rest, hwhole⟩ := hrun.starts
    obtain ⟨indexers, left, hpath⟩ := Indexer.exists_path rest
    by_cases hend : Text.Blank left
    · exact ⟨_, .symbol hrun hname hwhole.symm hpath hend⟩
    · by_cases hopen : ∃ blanks more, Text.Blank blanks ∧ left = blanks ++ '[' :: more
      · obtain ⟨blanks, more, hblanks, hleft⟩ := hopen
        exact ⟨_, .malformed hrun hname hwhole.symm hpath hblanks hleft⟩
      · exact ⟨_, .followed hrun hname hwhole.symm hpath hend fun blanks more hblanks hleft =>
          hopen ⟨blanks, more, hblanks, hleft⟩⟩
  · exact ⟨_, .unnamed hrun hname⟩

/-- The reader of symbols and the grammar give the same. Each text has exactly one outcome: a symbol
with the longest name and the longest path that it begins with, the error of an indexer that cannot
be read, or no symbol. -/
theorem ofText?_grammar (text : Text) (outcome : Except (Option Nat) (Option Symbol)) :
    (ofText? text).mapError (fun error => error.code?.map ErrorCode.number) = outcome ↔
      Grammar text outcome := by
  constructor
  · intro h
    obtain ⟨other, hother⟩ := exists_grammar text
    rwa [← h, ofText?_of_grammar hother]
  · exact ofText?_of_grammar

end Symbol

end Criteria
