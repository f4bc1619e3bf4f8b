import Criteria.Operand.Builtin
import Criteria.Proofs.Fallible
import Criteria.Proofs.Scanning.Cursor
import Criteria.Proofs.Scanning.Sealing

/-!
The operands which every script may use are sealed. Each reader takes a sealed text
off what it reads: runs of plain characters, and literals from their opening to their
closing quote, whose ends the reader and the scanner agree on.
-/

namespace Criteria

theorem Quoted.closing_of_decodeBody? {source value left : Text}
    (h : decodeBody? source = some (value, left)) :
    ∃ taken, Text.Closing taken ∧ source = taken ++ left := by
  fun_induction decodeBody? source generalizing value with
  | case1 => simp at h
  | case2 rest =>
      obtain ⟨-, rfl⟩ := Prod.mk.inj (Option.some.inj h)
      exact ⟨_, Text.closing_quote, rfl⟩
  | case3 c rest ih =>
      obtain ⟨⟨more, tail⟩, hfound, hsame⟩ := Option.map_eq_some_iff.mp h
      obtain ⟨-, rfl⟩ := Prod.mk.inj hsame
      obtain ⟨taken, htaken, rfl⟩ := ih hfound
      exact ⟨_, htaken.escape c, rfl⟩
  | case4 => simp at h
  | case5 c rest hquote _ hescape ih =>
      obtain ⟨⟨more, tail⟩, hfound, hsame⟩ := Option.map_eq_some_iff.mp h
      obtain ⟨-, rfl⟩ := Prod.mk.inj hsame
      obtain ⟨taken, htaken, rfl⟩ := ih hfound
      exact ⟨_, htaken.cons hquote hescape, rfl⟩

theorem Quoted.sealedUpTo_of_decode? {source value left : Text}
    (h : decode? source = some (value, left)) : Text.SealedUpTo left source := by
  unfold decode? at h
  split at h
  · next rest =>
    obtain ⟨taken, htaken, rfl⟩ := closing_of_decodeBody? h
    exact ⟨_, htaken.sealed, rfl⟩
  · simp at h

namespace Number

theorem sealedUpTo_splitMinus (text : Text) : Text.SealedUpTo (splitMinus text).2 text := by
  unfold splitMinus
  split
  · exact (Text.sealedUpTo_refl _).cons (by decide)
  · exact Text.sealedUpTo_refl _

theorem sealedUpTo_splitSign (text : Text) : Text.SealedUpTo (splitSign text).2 text := by
  unfold splitSign
  split
  · exact (Text.sealedUpTo_refl _).cons (by decide)
  · exact sealedUpTo_splitMinus text

theorem sealedUpTo_digits (text : Text) : Text.SealedUpTo (text.dropWhile Char.isDigit) text :=
  Text.sealedUpTo_dropWhile (by simp [Text.marks]) text

theorem sealedUpTo_splitFraction (text : Text) : Text.SealedUpTo (splitFraction text).2 text := by
  unfold splitFraction
  split
  · next rest => exact (sealedUpTo_digits rest).cons (by decide)
  · exact Text.sealedUpTo_refl _

end Number

theorem Lexeme.sealedUpTo_of_number? {text left : Text} {value : Number}
    (h : number? text = some (value, left)) : Text.SealedUpTo left text := by
  simp only [number?] at h
  split at h
  · simp at h
  · obtain ⟨-, rfl⟩ := Prod.mk.inj (Option.some.inj h)
    exact (Number.sealedUpTo_splitFraction _).trans
      ((Number.sealedUpTo_digits _).trans (Number.sealedUpTo_splitMinus text))

namespace Json

namespace Numeral

theorem sealedUpTo_of_digits? {text digits left : Text} (h : digits? text = some (digits, left)) :
    Text.SealedUpTo left text := by
  unfold digits? at h
  split at h
  · simp at h
  · obtain ⟨-, rfl⟩ := Prod.mk.inj (Option.some.inj h)
    exact Number.sealedUpTo_digits text

theorem sealedUpTo_of_fraction? {text fraction left : Text}
    (h : fraction? text = some (fraction, left)) : Text.SealedUpTo left text := by
  unfold fraction? at h
  split at h
  · exact (sealedUpTo_of_digits? h).cons (by decide)
  · obtain ⟨-, rfl⟩ := Prod.mk.inj (Option.some.inj h)
    exact Text.sealedUpTo_refl _

theorem sealedUpTo_of_exponent? {text left : Text} {exponent : Option Int}
    (h : exponent? text = some (exponent, left)) : Text.SealedUpTo left text := by
  have hpower {rest : Text} {found : Option Int × Text}
      (h : ((digits? (Number.splitSign rest).2).bind fun pair =>
        some (some (if (Number.splitSign rest).1 then -(Number.ofDigits pair.1 : Int)
          else Number.ofDigits pair.1), pair.2)) = some found) :
      Text.SealedUpTo found.2 rest := by
    obtain ⟨⟨digits, tail⟩, hdigits, hsame⟩ := Option.bind_eq_some_iff.mp h
    obtain rfl := Option.some.inj hsame
    exact (sealedUpTo_of_digits? hdigits).trans (Number.sealedUpTo_splitSign rest)
  unfold exponent? at h
  split at h
  · exact (hpower h).cons (by decide)
  · exact (hpower h).cons (by decide)
  · obtain ⟨-, rfl⟩ := Prod.mk.inj (Option.some.inj h)
    exact Text.sealedUpTo_refl _

theorem sealedUpTo_of_ofText? {text left : Text} {numeral : Numeral}
    (h : ofText? text = some (numeral, left)) : Text.SealedUpTo left text := by
  simp only [ofText?, Option.bind_eq_bind, Option.bind_eq_some_iff] at h
  obtain ⟨⟨whole, rest⟩, hwhole, ⟨fraction, rest'⟩, hfraction, ⟨exponent, rest''⟩, hexponent,
    h⟩ := h
  split at h
  · simp at h
  · obtain ⟨-, rfl⟩ := Prod.mk.inj (Option.some.inj h)
    exact (sealedUpTo_of_exponent? hexponent).trans ((sealedUpTo_of_fraction? hfraction).trans
      ((sealedUpTo_of_digits? hwhole).trans (Number.sealedUpTo_splitMinus text)))

end Numeral

namespace Token

/-- What stands for one character of a quoted text: it does not close the literal. -/
def Quotable (text : Text) : Prop :=
  ∀ more, Text.Closing more → Text.Closing (text ++ more)

theorem Quotable.append {a b : Text} (ha : Quotable a) (hb : Quotable b) : Quotable (a ++ b) := by
  intro more hmore
  rw [List.append_assoc]
  exact ha _ (hb _ hmore)

theorem quotable_of_forall {text : Text} (h : ∀ c ∈ text, c ≠ '"' ∧ c ≠ '\\') : Quotable text := by
  intro more hmore
  induction text with
  | nil => exact hmore
  | cons c rest ih =>
      have hrest := ih fun d hd => h d (List.mem_cons_of_mem c hd)
      exact hrest.cons (h c List.mem_cons_self).1 (h c List.mem_cons_self).2

theorem quotable_escape (c : Char) : Quotable ['\\', c] :=
  fun _ hmore => hmore.escape c

theorem plain_of_hexDigit? {c : Char} {n : Nat} (h : hexDigit? c = some n) :
    c ≠ '"' ∧ c ≠ '\\' := by
  have hquote : hexDigit? '"' = none := by decide
  have hescape : hexDigit? '\\' = none := by decide
  constructor
  · rintro rfl
    rw [hquote] at h
    cases h
  · rintro rfl
    rw [hescape] at h
    cases h

theorem exists_of_readHex? {source left : Text} {n : Nat} (h : readHex? source = some (n, left)) :
    ∃ taken, Quotable taken ∧ source = taken ++ left := by
  match source with
  | a :: b :: c :: d :: rest =>
      simp only [readHex?, Option.bind_eq_bind, Option.bind_eq_some_iff] at h
      obtain ⟨digits, hdigits, hsame⟩ := h
      obtain ⟨-, rfl⟩ := Prod.mk.inj (Option.some.inj hsame)
      simp only [List.mapM_cons, Option.bind_eq_bind, Option.bind_eq_some_iff] at hdigits
      obtain ⟨_, ha, _, ⟨_, hb, _, ⟨_, hc, _, ⟨_, hd, _⟩, _⟩, _⟩, _⟩ := hdigits
      refine ⟨[a, b, c, d], quotable_of_forall ?_, rfl⟩
      simp only [List.forall_mem_cons]
      exact ⟨plain_of_hexDigit? ha, plain_of_hexDigit? hb, plain_of_hexDigit? hc,
        plain_of_hexDigit? hd, by simp⟩

theorem exists_of_readUnicode? {source left : Text} {c : Char}
    (h : readUnicode? source = some (c, left)) :
    ∃ taken, Quotable taken ∧ source = taken ++ left := by
  simp only [readUnicode?, Option.bind_eq_bind, Option.bind_eq_some_iff] at h
  obtain ⟨⟨unit, rest⟩, hunit, h⟩ := h
  obtain ⟨taken, htaken, rfl⟩ := exists_of_readHex? hunit
  split at h
  · split at h
    · next rest' hpair =>
      obtain rfl : rest = '\\' :: 'u' :: rest' := hpair
      obtain ⟨⟨low, tail⟩, hlow, h⟩ := Option.bind_eq_some_iff.mp h
      obtain ⟨taken', htaken', rfl⟩ := exists_of_readHex? hlow
      split at h
      · obtain ⟨-, rfl⟩ := Prod.mk.inj (Option.some.inj h)
        exact ⟨taken ++ (['\\', 'u'] ++ taken'),
          htaken.append ((quotable_escape 'u').append htaken'), by simp⟩
      · simp at h
    · simp at h
  · split at h
    · simp at h
    · obtain ⟨-, rfl⟩ := Prod.mk.inj (Option.some.inj h)
      exact ⟨taken, htaken, rfl⟩

theorem exists_of_readCharacter? {source left : Text} {c : Char} (hopen : source.head? ≠ some '"')
    (h : readCharacter? source = some (c, left)) :
    ∃ taken, Quotable taken ∧ source = taken ++ left := by
  unfold readCharacter? at h
  split at h
  · next rest =>
    obtain ⟨taken, htaken, rfl⟩ := exists_of_readUnicode? h
    exact ⟨['\\', 'u'] ++ taken, (quotable_escape 'u').append htaken, rfl⟩
  · next d rest _ =>
    obtain ⟨meaning, -, hsame⟩ := Option.map_eq_some_iff.mp h
    obtain ⟨-, rfl⟩ := Prod.mk.inj hsame
    exact ⟨['\\', d], quotable_escape d, rfl⟩
  · next d rest _ _ =>
    split at h
    · next hplain =>
      obtain ⟨-, rfl⟩ := Prod.mk.inj (Option.some.inj h)
      simp only [Bool.and_eq_true, bne_iff_ne] at hplain
      refine ⟨[d], quotable_of_forall fun e he => ?_, rfl⟩
      obtain rfl := List.mem_singleton.mp he
      exact ⟨by simpa using hopen, hplain.2⟩
    · simp at h
  · simp at h

theorem closing_of_readText? {source decoded left : Text}
    (h : readText? source = some (decoded, left)) :
    ∃ taken, Text.Closing taken ∧ source = taken ++ left := by
  fun_induction readText? source generalizing decoded left with
  | case1 rest =>
      obtain ⟨-, rfl⟩ := Prod.mk.inj (Option.some.inj h)
      exact ⟨_, Text.closing_quote, rfl⟩
  | case2 => simp at h
  | case3 source hopen c rest hfirst _ ih =>
      obtain ⟨⟨more, tail⟩, hread, hsame⟩ := Option.map_eq_some_iff.mp h
      obtain ⟨-, rfl⟩ := Prod.mk.inj hsame
      obtain ⟨taken, htaken, rfl⟩ := ih hread
      have hhead : source.head? ≠ some '"' := by
        intro hquote
        obtain ⟨rest', rfl⟩ := List.head?_eq_some_iff.mp hquote
        exact hopen rest' rfl
      obtain ⟨first, hquotable, rfl⟩ := exists_of_readCharacter? hhead hfirst
      exact ⟨first ++ taken, hquotable taken htaken, by simp⟩

theorem sealedUpTo_of_read? {source left : Text} {token : Token}
    (h : read? source = some (token, left)) : Text.SealedUpTo left source := by
  unfold read? at h
  split at h
  case h_7 =>
    obtain ⟨⟨decoded, tail⟩, hread, hsame⟩ := Option.map_eq_some_iff.mp h
    obtain ⟨-, rfl⟩ := Prod.mk.inj hsame
    obtain ⟨taken, htaken, rfl⟩ := closing_of_readText? hread
    exact ⟨_, htaken.sealed, rfl⟩
  case h_11 =>
    simp only [Option.bind_eq_bind, Option.bind_eq_some_iff] at h
    obtain ⟨⟨numeral, tail⟩, hread, _, _, hsame⟩ := h
    obtain ⟨-, rfl⟩ := Prod.mk.inj (Option.some.inj hsame)
    exact Numeral.sealedUpTo_of_ofText? hread
  all_goals
    obtain ⟨-, rfl⟩ := Prod.mk.inj (Option.some.inj h)
    repeat refine Text.SealedUpTo.cons ?_ (by decide)
    exact Text.sealedUpTo_refl _

theorem sealed_of_lex? {source : Text} {tokens : List Token} (h : lex? source = some tokens) :
    Text.Sealed source := by
  fun_induction lex? source generalizing tokens with
  | case1 => exact Text.hides_nil
  | case2 c rest hblank ih =>
      apply Text.sealedUpTo_nil_iff.mp
      apply (Text.sealedUpTo_nil_iff.mpr (ih h)).cons
      intro hmark
      have hplain : ∀ mark ∈ '"' :: Text.marks, isBlank mark = false := by
        simp [Text.marks, isBlank]
      rw [hplain c hmark] at hblank
      cases hblank
  | case3 => simp at h
  | case4 c rest _ token left hread _ ih =>
      obtain ⟨more, hmore, -⟩ := Option.map_eq_some_iff.mp h
      exact Text.sealedUpTo_nil_iff.mp
        ((Text.sealedUpTo_nil_iff.mpr (ih hmore)).trans (sealedUpTo_of_read? hread))

end Token

theorem sealed_of_read? {source : Text} {value : Json} (h : read? source = some value) :
    Text.Sealed source := by
  simp only [read?, Option.bind_eq_bind, Option.bind_eq_some_iff] at h
  obtain ⟨tokens, htokens, -⟩ := h
  exact Token.sealed_of_lex? htokens

end Json

/-! Symbols -/

theorem Lexeme.dottedRun_isPrefix (dotAllowed : Bool) (text : Text) :
    dottedRun dotAllowed text <+: text := by
  fun_induction dottedRun dotAllowed text with
  | case1 => exact List.nil_prefix
  | case2 dotAllowed c rest hword ih => exact (List.prefix_cons_inj c).mpr ih
  | case3 dotAllowed c rest hword hdot ih => exact (List.prefix_cons_inj c).mpr ih
  | case4 => exact List.nil_prefix

theorem Lexeme.of_mem_dottedRun {dotAllowed : Bool} {text : Text} {c : Char}
    (h : c ∈ dottedRun dotAllowed text) : isWordCharacter c = true ∨ c = '.' := by
  fun_induction dottedRun dotAllowed text with
  | case1 => simp at h
  | case2 dotAllowed d rest hword ih =>
      rcases List.mem_cons.mp h with rfl | hmore
      · exact .inl hword
      · exact ih hmore
  | case3 dotAllowed d rest hword hdot ih =>
      rcases List.mem_cons.mp h with rfl | hmore
      · simp only [Bool.and_eq_true, beq_iff_eq] at hdot
        exact .inr hdot.1
      · exact ih hmore
  | case4 => simp at h

theorem Lexeme.sealedUpTo_of_identifier? {text name left : Text}
    (h : identifier? text = some (name, left)) : Text.SealedUpTo left text := by
  simp only [identifier?] at h
  split at h
  · obtain ⟨-, rfl⟩ := Prod.mk.inj (Option.some.inj h)
    refine ⟨dottedRun false text, Text.hides_of_forall fun c hc hmark => ?_, ?_⟩
    · have hplain : ∀ mark ∈ '"' :: Text.marks, isWordCharacter mark = false ∧ mark ≠ '.' := by
        simp [Text.marks, isWordCharacter]
      rcases of_mem_dottedRun hc with hword | hdot
      · rw [(hplain c hmark).1] at hword
        cases hword
      · exact (hplain c hmark).2 hdot
    · exact (List.prefix_iff_eq_append.mp (dottedRun_isPrefix false text)).symm
  · simp at h

namespace Symbol

theorem sealedUpTo_skipBlanks (cursor : Cursor) :
    Text.SealedUpTo cursor.skipBlanks.rest cursor.rest :=
  Text.sealedUpTo_dropWhile (by simp [Text.marks, Text.isBlank]) cursor.rest

theorem sealedUpTo_of_skipChar? {cursor after : Cursor} {c : Char} (hplain : c ∉ '"' :: Text.marks)
    (h : cursor.skipChar? c = some after) : Text.SealedUpTo after.rest cursor.rest := by
  rw [(Cursor.takes_of_skipChar? h).rest_eq]
  exact (Text.sealedUpTo_refl after.rest).cons hplain

theorem sealedUpTo_readIndex (cursor : Cursor) :
    Text.SealedUpTo (readIndex cursor).2.rest cursor.rest := by
  unfold readIndex
  split
  · next key after hread =>
    obtain ⟨⟨value, left⟩, hdecode, hsame⟩ := Option.map_eq_some_iff.mp hread
    obtain ⟨-, rfl⟩ := Prod.mk.inj hsame
    exact Quoted.sealedUpTo_of_decode? hdecode
  · split
    · next value after hread =>
      obtain ⟨⟨number, left⟩, hnumber, hsame⟩ := Option.map_eq_some_iff.mp hread
      obtain ⟨-, rfl⟩ := Prod.mk.inj hsame
      exact Lexeme.sealedUpTo_of_number? hnumber
    · exact Text.sealedUpTo_refl _

theorem sealedUpTo_of_readIndexer {cursor after : Cursor} {indexer : Indexer}
    (h : readIndexer cursor = .ok (indexer, after)) : Text.SealedUpTo after.rest cursor.rest := by
  simp only [readIndexer] at h
  split at h
  · next hclose =>
    obtain ⟨-, rfl⟩ := Prod.mk.inj (Except.ok.inj h)
    exact (sealedUpTo_of_skipChar? (by decide) hclose).trans ((sealedUpTo_skipBlanks _).trans
      ((sealedUpTo_readIndex _).trans (sealedUpTo_skipBlanks cursor)))
  · simp at h

theorem sealedUpTo_of_readIndexers {cursor left : Cursor} {indexers : List Indexer}
    (h : readIndexers cursor = .ok (indexers, left)) : Text.SealedUpTo left.rest cursor.rest := by
  fun_induction readIndexers cursor generalizing indexers left with
  | case1 cursor _ hnone =>
      obtain ⟨-, rfl⟩ := Prod.mk.inj (Except.ok.inj h)
      exact sealedUpTo_skipBlanks cursor
  | case2 => simp at h
  | case3 cursor _ opened hopen _ indexer after hread _ ih =>
      obtain ⟨⟨more, tail⟩, hmore, hsame⟩ := Except.map_eq_ok_iff.mp h
      obtain ⟨-, rfl⟩ := Prod.mk.inj hsame
      exact (ih hmore).trans ((sealedUpTo_of_readIndexer hread).trans
        ((sealedUpTo_of_skipChar? (by decide) hopen).trans (sealedUpTo_skipBlanks cursor)))

theorem sealed_of_ofText? {text : Text} {symbol : Symbol} (h : ofText? text = .ok (some symbol)) :
    Text.Sealed text := by
  unfold ofText? at h
  split at h
  · simp at h
  · next key after hread =>
    obtain ⟨⟨name, left⟩, hname, hsame⟩ := Option.map_eq_some_iff.mp hread
    obtain ⟨-, rfl⟩ := Prod.mk.inj hsame
    split at h
    · simp at h
    · next indexers last hindexers =>
      split at h
      · next hend =>
        have hnil : last.rest = [] := by simpa [Cursor.atEnd] using hend
        have hindexed := sealedUpTo_of_readIndexers hindexers
        rw [hnil] at hindexed
        exact Text.sealedUpTo_nil_iff.mp (hindexed.trans (Lexeme.sealedUpTo_of_identifier? hname))
      · simp at h

theorem source_of_ofText? {text : Text} {symbol : Symbol} (h : ofText? text = .ok (some symbol)) :
    symbol.source = text := by
  unfold ofText? at h
  split at h
  · simp at h
  · split at h
    · simp at h
    · split at h
      · obtain rfl := Option.some.inj (Except.ok.inj h)
        rfl
      · simp at h

end Symbol

end Criteria
