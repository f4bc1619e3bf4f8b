import Criteria.Proofs.Fallible
import Criteria.Proofs.Number.Whole
import Criteria.Proofs.Operand.Sealing
import Criteria.Proofs.Scanning.Cursor

/-!
Symbols written with their indexers. Behind the key each indexer stands in brackets, a key as
the literal of its text and a position in decimal digits, and this is read back as the symbol
with that key and those indexers, whatever characters the keys have.
-/

namespace Criteria

theorem Quoted.decode?_eq_none {text : Text} (h : text.head? ≠ some '"') : decode? text = none := by
  unfold decode?
  split
  · exact absurd rfl h
  · rfl

namespace Lexeme

variable {c : Char} {text run rest key left : Text} {dotAllowed : Bool}

theorem isWordCharacter_of_isDigit (h : c.isDigit = true) : isWordCharacter c = true := by
  simp [isWordCharacter, Char.isAlphanum, h]

theorem isWordCharacter_eq (c : Char) :
    isWordCharacter c = (c == '_' || ((decide ('A' ≤ c ∧ c ≤ 'Z') || ('a' ≤ c && c ≤ 'z')) ||
      ('0' ≤ c && c ≤ '9'))) :=
  rfl

theorem toNat_of_isWordCharacter (h : isWordCharacter c = true) : 45 < c.toNat ∧ c.toNat < 128 := by
  simp only [isWordCharacter_eq, Bool.or_eq_true, Bool.and_eq_true, beq_iff_eq,
    decide_eq_true_eq, Char.le_def, UInt32.le_iff_toNat_le, Char.reduceVal, UInt32.toNat_ofNat,
    Nat.reducePow, Nat.reduceMod] at h
  rcases h with rfl | hrange
  · decide
  · have hval : c.toNat = c.val.toNat := rfl
    omega

theorem isBlank_of_isWordCharacter (h : isWordCharacter c = true) : Text.isBlank c = false := by
  have hrange := toNat_of_isWordCharacter h
  simp only [Text.isBlank, Bool.or_eq_false_iff, Bool.and_eq_false_iff, decide_eq_false_iff_not,
    beq_eq_false_iff_ne]
  omega

/-- A run of word characters and dots ends before a character which is neither. -/
theorem dottedRun_append (hrun : dottedRun dotAllowed run = run)
    (hrest : ∀ c, rest.head? = some c → isWordCharacter c = false ∧ c ≠ '.') :
    dottedRun dotAllowed (run ++ rest) = run := by
  induction run generalizing dotAllowed with
  | nil =>
      cases rest with
      | nil => rfl
      | cons c more =>
          obtain ⟨hword, hdot⟩ := hrest c rfl
          simp [dottedRun, hword, hdot]
  | cons c more ih =>
      rw [dottedRun] at hrun
      rw [List.cons_append, dottedRun]
      split at hrun
      · next hword => rw [if_pos hword, ih (List.cons.inj hrun).2]
      · next hword =>
        split at hrun
        · next hdot => rw [if_neg hword, if_pos hdot, ih (List.cons.inj hrun).2]
        · cases hrun

theorem identifier?_eq_some_iff :
    identifier? text = some (key, left) ↔
      dottedRun false text = key ∧ isIdentifier key = true ∧ text.drop key.length = left := by
  simp only [identifier?]
  split
  · next h => grind
  · next h => grind

/-- An identifier ends where no word character and no dot follows it. -/
theorem identifier?_append (hkey : identifier? key = some (key, []))
    (hrest : ∀ c, rest.head? = some c → isWordCharacter c = false ∧ c ≠ '.') :
    identifier? (key ++ rest) = some (key, rest) := by
  obtain ⟨hrun, hidentifier, -⟩ := identifier?_eq_some_iff.mp hkey
  exact identifier?_eq_some_iff.mpr ⟨dottedRun_append hrun hrest, hidentifier, List.drop_left⟩

theorem isIdentifier_eq_true_iff :
    isIdentifier run = true ↔ ∃ first last, run.head? = some first ∧ run.getLast? = some last ∧
      first.isDigit = false ∧ last ≠ '.' := by
  unfold isIdentifier
  split
  · next hfirst hlast => simp [hfirst, hlast]
  · next hnone =>
    simp only [Bool.false_eq_true, false_iff]
    rintro ⟨first, last, hfirst, hlast, -⟩
    exact hnone first last hfirst hlast

theorem isWordCharacter_of_dottedRun (h : dottedRun false text = c :: rest) :
    isWordCharacter c = true := by
  cases text with
  | nil => cases h
  | cons d more =>
      rw [dottedRun, Bool.and_false] at h
      split at h
      · next hword => rwa [(List.cons.inj h).1] at hword
      · simp at h

/-- An identifier starts with a letter or an underscore. -/
theorem exists_of_identifier? (h : identifier? text = some (key, left)) :
    ∃ c rest, key = c :: rest ∧ isWordCharacter c = true ∧ c.isDigit = false := by
  obtain ⟨hrun, hidentifier, -⟩ := identifier?_eq_some_iff.mp h
  obtain ⟨c, -, hfirst, -, hdigit, -⟩ := isIdentifier_eq_true_iff.mp hidentifier
  obtain ⟨rest, rfl⟩ := List.head?_eq_some_iff.mp hfirst
  exact ⟨c, rest, rfl, isWordCharacter_of_dottedRun hrun, hdigit⟩

/-- An identifier ends with a word character. -/
theorem isWordCharacter_of_getLast? (h : identifier? text = some (key, left))
    (hlast : key.getLast? = some c) : isWordCharacter c = true := by
  obtain ⟨rfl, hidentifier, -⟩ := identifier?_eq_some_iff.mp h
  obtain ⟨-, last, -, hend, -, hdot⟩ := isIdentifier_eq_true_iff.mp hidentifier
  obtain rfl := Option.some.inj (hend.symm.trans hlast)
  exact (of_mem_dottedRun (List.mem_of_getLast? hlast)).resolve_right hdot

end Lexeme

namespace Indexer

/-- A position that is written in digits of which every one counts. -/
def IsExact : Indexer → Prop
  | key _ => True
  | position index => index < Number.twoTo 53

/-- What stands between the brackets. -/
def body : Indexer → Text
  | key name => Quoted.encode name
  | position index => Text.ofNat index

def written (indexer : Indexer) : Text :=
  '[' :: indexer.body ++ [']']

theorem startsFull_body (indexer : Indexer) (rest : Text) : (indexer.body ++ rest).StartsFull := by
  intro c hc
  cases indexer with
  | key name =>
      obtain rfl := Option.some.inj hc
      decide
  | position index =>
      exact Lexeme.isBlank_of_isWordCharacter
        (Lexeme.isWordCharacter_of_isDigit (Text.isDigit_of_head?_ofNat hc))

variable {path : List Indexer} {c : Char}

theorem head?_flatMap_written (h : (path.flatMap written).head? = some c) : c = '[' := by
  cases path with
  | nil => cases h
  | cons indexer more => exact (Option.some.inj h).symm

theorem getLast?_flatMap_written (h : (path.flatMap written).getLast? = some c) : c = ']' := by
  induction path with
  | nil => cases h
  | cons indexer more ih =>
      rw [List.flatMap_cons, List.getLast?_append, Option.or_eq_some_iff] at h
      rcases h with hmore | ⟨-, hlast⟩
      · exact ih hmore
      · rw [written, List.getLast?_concat] at hlast
        exact (Option.some.inj hlast).symm

end Indexer

namespace Symbol

variable {cursor opened after : Cursor} {rest key : Text} {indexer : Indexer} {path : List Indexer}

theorem readIndex_body (hindexer : indexer.IsExact)
    (hrest : cursor.rest = indexer.body ++ ']' :: rest) :
    readIndex cursor = (some indexer, cursor.moveTo (']' :: rest)) := by
  cases indexer with
  | key name =>
      have hquoted : cursor.readQuoted? = some (name, cursor.moveTo (']' :: rest)) := by
        rw [Cursor.readQuoted?, hrest, Indexer.body, Quoted.decode?_encode]
        rfl
      rw [readIndex, hquoted]
  | position index =>
      have hplain : cursor.readQuoted? = none := by
        have hdigits : cursor.rest.head? ≠ some '"' := by
          rw [hrest]
          intro hhead
          exact absurd (Text.isDigit_of_head?_ofNat hhead) (by decide)
        rw [Cursor.readQuoted?, Quoted.decode?_eq_none hdigits, Option.map_none]
      have hnumber : cursor.readNumber? =
          some (.finite false (index * Number.one), cursor.moveTo (']' :: rest)) := by
        rw [Cursor.readNumber?, hrest, Indexer.body,
          Lexeme.number?_ofNat hindexer (by decide) (by decide)]
        rfl
      rw [readIndex, hplain, hnumber]
      simp only [Number.index?_of_lt hindexer, Option.map_some]

theorem readIndexer_body (hindexer : indexer.IsExact)
    (hrest : cursor.rest = indexer.body ++ ']' :: rest) :
    ∃ after, readIndexer cursor = .ok (indexer, after) ∧ after.rest = rest := by
  have hskip : cursor.skipBlanks.rest = indexer.body ++ ']' :: rest := by
    rw [← hrest]
    apply Text.skipBlanks_of_startsFull
    rw [hrest]
    exact indexer.startsFull_body _
  have hclosing : (cursor.skipBlanks.moveTo (']' :: rest)).skipBlanks.rest = ']' :: rest := rfl
  refine ⟨(cursor.skipBlanks.moveTo (']' :: rest)).skipBlanks.moveTo rest, ?_, rfl⟩
  simp only [readIndexer, readIndex_body hindexer hskip, Cursor.skipChar?_of_rest hclosing]

theorem readIndexers_of_none (h : cursor.skipBlanks.skipChar? '[' = none) :
    readIndexers cursor = .ok ([], cursor.skipBlanks) := by
  rw [readIndexers]
  split
  · rfl
  · next hopen =>
    rw [h] at hopen
    cases hopen

/-- Behind an opening bracket there is an indexer, and more of them may follow it. -/
theorem readIndexers_of_opened (hopen : cursor.skipBlanks.skipChar? '[' = some opened) :
    readIndexers cursor = readIndexer opened >>= fun (indexer, after) =>
      (readIndexers after).map fun (more, left) => (indexer :: more, left) := by
  rw [readIndexers]
  split
  · next hnone =>
    rw [hopen] at hnone
    cases hnone
  · next opened' hopen' =>
    obtain rfl := Option.some.inj (hopen.symm.trans hopen')
    split
    · next hread => simp only [hread, Except.error_bind]
    · next hread => simp only [hread, Except.ok_bind]

theorem readIndexers_of_some (hopen : cursor.skipBlanks.skipChar? '[' = some opened)
    (hread : readIndexer opened = .ok (indexer, after)) :
    readIndexers cursor = (readIndexers after).map fun (more, left) => (indexer :: more, left) := by
  rw [readIndexers_of_opened hopen, hread, Except.ok_bind]

/-- All written indexers are read, and the blanks behind them. -/
theorem readIndexers_written (hpath : ∀ indexer ∈ path, indexer.IsExact)
    (hrest : cursor.rest = path.flatMap Indexer.written ++ rest)
    (hopen : (Text.skipBlanks rest).head? ≠ some '[') :
    ∃ left, readIndexers cursor = .ok (path, left) ∧ left.rest = Text.skipBlanks rest := by
  -- Each indexer is read from where the one before it ended, with blanks skipped first.
  induction path generalizing cursor with
  | nil =>
      have hskip : cursor.skipBlanks.rest = Text.skipBlanks rest := congrArg Text.skipBlanks hrest
      refine ⟨_, readIndexers_of_none (Cursor.skipChar?_eq_none ?_), hskip⟩
      rwa [hskip]
  | cons indexer more ih =>
      obtain ⟨hindexer, hmore⟩ := List.forall_mem_cons.mp hpath
      have hskip : cursor.skipBlanks.rest =
          '[' :: (indexer.body ++ ']' :: (more.flatMap Indexer.written ++ rest)) := by
        have hsplit : cursor.rest =
            '[' :: (indexer.body ++ ']' :: (more.flatMap Indexer.written ++ rest)) := by
          rw [hrest]
          simp [Indexer.written]
        rw [← hsplit]
        apply Text.skipBlanks_of_startsFull
        rw [hsplit]
        rintro c ⟨⟩
        decide
      obtain ⟨after, hread, hafter⟩ := readIndexer_body hindexer
        (Cursor.moveTo_rest cursor.skipBlanks _)
      obtain ⟨left, hleft, hend⟩ := ih hmore hafter
      refine ⟨left, ?_, hend⟩
      rw [readIndexers_of_some (Cursor.skipChar?_of_rest hskip) hread, hleft]
      rfl

/-- The symbol with these indexers, written without blanks. -/
def ofPath (key : Text) (path : List Indexer) : Symbol where
  source := key ++ path.flatMap Indexer.written
  key := key
  indexers := path

theorem ofText?_ofPath (hkey : Lexeme.identifier? key = some (key, []))
    (hpath : ∀ indexer ∈ path, indexer.IsExact) :
    ofText? (ofPath key path).source = .ok (some (ofPath key path)) := by
  let start := Cursor.start (ofPath key path).source 0
  let behind := start.moveTo (path.flatMap Indexer.written)
  have hidentifier : start.readIdentifier? = some (key, behind) := by
    have hsplit : Lexeme.identifier? (key ++ path.flatMap Indexer.written) =
        some (key, path.flatMap Indexer.written) := by
      apply Lexeme.identifier?_append hkey
      intro c hc
      rw [Indexer.head?_flatMap_written hc]
      decide
    rw [Cursor.readIdentifier?, Cursor.start_rest, ofPath, hsplit]
    rfl
  have hbehind : behind.rest = path.flatMap Indexer.written ++ [] :=
    (Cursor.moveTo_rest start _).trans (List.append_nil _).symm
  obtain ⟨left, hindexers, hend⟩ := readIndexers_written hpath hbehind nofun
  have hatEnd : left.atEnd = true := by
    rw [Cursor.atEnd, hend]
    rfl
  simp only [ofText?, hidentifier, hindexers, if_pos hatEnd, start]
  rfl

end Symbol

end Criteria
