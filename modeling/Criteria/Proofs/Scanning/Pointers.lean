import Criteria.Pointer
import Criteria.Proofs.Fallible
import Criteria.Proofs.Number.Grammar
import Criteria.Proofs.Scanning.Groups
import Criteria.Proofs.Scanning.Skipping
import Criteria.Proofs.Symbol.Written

/-!
Pointers and cursors in step. A cursor stands between two characters by its form, a pointer only
as far as its moves count their bytes rightly. Here each move of a pointer is shown to find the
characters which it is about to read, and to lead where the same move leads the cursor.
-/

namespace Criteria

namespace Cursor

variable {cursor after behind : Cursor} {part text left gone : Text} {c : Char}
  {pointer : Pointer} {fault : Misplaced}

/-- The place of a cursor as a number of bytes. -/
def toPointer (cursor : Cursor) : Pointer :=
  { base := cursor.base, source := cursor.source, index := cursor.consumed.byteLength }

theorem toPointer_start (text : Text) (base : Nat) :
    (start text base).toPointer = Pointer.start text base := rfl

theorem toPointer_rest (cursor : Cursor) : cursor.toPointer.rest = .ok cursor.rest :=
  Text.after_append ..

theorem toPointer_peek (cursor : Cursor) : cursor.toPointer.peek = .ok cursor.peek? := by
  rw [Pointer.peek, toPointer_rest]
  rfl

theorem toPointer_before (cursor : Cursor) :
    cursor.source.before cursor.toPointer.index = .ok cursor.consumed :=
  Text.before_append ..

theorem moveTo_self (h : cursor.rest = left) : cursor.moveTo left = cursor := by
  simp [moveTo, ← h]

/-- One cursor is behind the other in the same text, with `part` between them. -/
structure Goes (cursor : Cursor) (part : Text) (after : Cursor) : Prop where
  rest_eq : cursor.rest = part ++ after.rest
  eq_moveTo : after = cursor.moveTo after.rest

theorem goes_moveTo (h : cursor.rest = part ++ left) : cursor.Goes part (cursor.moveTo left) :=
  ⟨h, rfl⟩

theorem goes_self (cursor : Cursor) : cursor.Goes [] cursor :=
  ⟨rfl, (moveTo_self rfl).symm⟩

namespace Goes

variable (h : cursor.Goes part after)

include h

theorem moveTo (hleft : left <:+ after.rest) : after.moveTo left = cursor.moveTo left := by
  rw [h.eq_moveTo, moveTo_moveTo ⟨part, h.rest_eq.symm⟩ hleft]

theorem trans {more : Text} {further : Cursor} (h' : after.Goes more further) :
    cursor.Goes (part ++ more) further := by
  constructor
  · rw [h.rest_eq, h'.rest_eq, List.append_assoc]
  · rw [← h.moveTo ⟨more, h'.rest_eq.symm⟩]
    exact h'.eq_moveTo

theorem source_eq : after.source = cursor.source := by
  rw [h.eq_moveTo, cursor.moveTo_source ⟨part, h.rest_eq.symm⟩]

theorem consumed_eq : after.consumed = cursor.consumed ++ part := by
  rw [h.eq_moveTo]
  simp [Cursor.moveTo, h.rest_eq]

theorem toPointer_eq : after.toPointer = cursor.toPointer.advance part.byteLength := by
  have hbase : after.base = cursor.base := by
    rw [h.eq_moveTo]
    rfl
  simp only [toPointer, hbase, h.source_eq, h.consumed_eq, Text.byteLength_append]
  rfl

theorem between :
    cursor.source.between cursor.toPointer.index after.toPointer.index = .ok part := by
  simp only [toPointer, h.consumed_eq, source, h.rest_eq]
  exact Text.between_append ..

theorem index_eq : after.toPointer.index = cursor.toPointer.index + part.byteLength := by
  rw [h.toPointer_eq]
  rfl

theorem index_eq_iff : after.toPointer.index = cursor.toPointer.index ↔ part = [] := by
  rw [h.index_eq, Nat.add_eq_left, Text.byteLength_eq_zero_iff]

theorem index_lt_iff : cursor.toPointer.index < after.toPointer.index ↔ part ≠ [] := by
  rw [h.index_eq, Nat.lt_add_right_iff_pos, Nat.pos_iff_ne_zero, ne_eq,
    Text.byteLength_eq_zero_iff]

theorem backTo : after.toPointer.backTo cursor.toPointer.index = cursor.toPointer := by
  rw [h.toPointer_eq]
  rfl

end Goes

section

variable (hpointer : cursor.toPointer = pointer)

include hpointer

theorem peek_ne_error : pointer.peek ≠ .error fault := by
  rw [← hpointer, toPointer_peek]
  nofun

theorem rest_eq_nil_of_peek (h : pointer.peek = .ok none) : cursor.rest = [] := by
  rw [← hpointer, toPointer_peek] at h
  exact List.head?_eq_none_iff.mp (Except.ok.inj h)

theorem exists_goes_of_peek (h : pointer.peek = .ok (some c)) :
    ∃ behind, cursor.rest = c :: behind.rest ∧ cursor.Goes [c] behind ∧
      behind.toPointer = pointer.behind c := by
  rw [← hpointer, toPointer_peek] at h
  obtain ⟨rest, hrest⟩ := List.head?_eq_some_iff.mp (Except.ok.inj h)
  have hgoes : cursor.Goes [c] (cursor.moveTo rest) := goes_moveTo hrest
  exact ⟨_, hrest, hgoes, hpointer ▸ hgoes.toPointer_eq⟩

end

/-- A loop over characters goes behind the characters which pass its test, if it goes over each of
them by its own bytes. -/
theorem skipWhile_toPointer {test : Char → Bool} {stride : Pointer.Stride}
    (hstride : ∀ c, test c = true → stride.bytes c = c.utf8Size)
    (hpointer : cursor.toPointer = pointer) :
    pointer.skipWhile (fun _ c => .ok (test c)) stride =
      .ok (cursor.moveTo (cursor.rest.dropWhile test)).toPointer := by
  fun_induction Pointer.skipWhile _ _ pointer generalizing cursor with
  | case1 _ _ hpeek => exact absurd hpeek (peek_ne_error hpointer)
  | case2 _ hpeek =>
      have hrest := rest_eq_nil_of_peek hpointer hpeek
      rw [moveTo_self (by rw [hrest]; rfl), hpointer]
  | case3 _ c hpeek _ _ ih =>
      obtain ⟨behind, hrest, hgoes, hbehind⟩ := exists_goes_of_peek hpointer hpeek
      rw [Except.ok_bind]
      split
      · next hpass =>
        rw [hstride c hpass] at ih ⊢
        rw [ih hbehind, hgoes.moveTo (List.dropWhile_suffix _), hrest,
          List.dropWhile_cons_of_pos hpass]
      · next hfail =>
        rw [moveTo_self (by rw [hrest, List.dropWhile_cons_of_neg hfail]), hpointer]
        rfl

theorem skipBlanks_toPointer (cursor : Cursor) :
    cursor.toPointer.skipBlanks = .ok cursor.skipBlanks.toPointer :=
  skipWhile_toPointer (fun _ _ => rfl) rfl

theorem utf8Size_of_isWordCharacter (h : Lexeme.isWordCharacter c = true) : c.utf8Size = 1 := by
  have hrange := (Lexeme.toNat_of_isWordCharacter h).2
  rw [Char.utf8Size_eq_one_iff, UInt32.le_iff_toNat_le]
  exact Nat.le_of_lt_succ hrange

theorem skipDigits_toPointer (cursor : Cursor) : cursor.toPointer.skipDigits =
    .ok (cursor.moveTo (cursor.rest.dropWhile Char.isDigit)).toPointer := by
  refine skipWhile_toPointer (fun c hdigit => ?_) rfl
  exact (utf8Size_of_isWordCharacter (Lexeme.isWordCharacter_of_isDigit hdigit)).symm

/-! Literals -/

theorem leave_suffix (quoting : Quoting) (text : Text) : quoting.leave text <:+ text := by
  obtain ⟨taken, hwhole, -⟩ := quoting.exists_append_leave text
  exact ⟨taken, hwhole.symm⟩

theorem Goes.moveTo_leave {quoting : Quoting} (h : cursor.Goes [c] behind)
    (hquoting : quoting ≠ .outside) :
    cursor.moveTo (quoting.leave cursor.rest) =
      behind.moveTo ((quoting.next c).leave behind.rest) := by
  rw [h.moveTo (leave_suffix ..), h.rest_eq, List.singleton_append, Quoting.leave]
  exact hquoting

/-- A pointer leaves quotes where the searches do. -/
theorem leaveQuotes_toPointer (hpointer : cursor.toPointer = pointer) :
    pointer.leaveQuotes = .ok (cursor.moveTo (Quoting.inside.leave cursor.rest)).toPointer := by
  fun_induction Pointer.leaveQuotes pointer generalizing cursor with
  | case1 _ _ hpeek => exact absurd hpeek (peek_ne_error hpointer)
  | case2 _ hpeek =>
      have hrest := rest_eq_nil_of_peek hpointer hpeek
      rw [moveTo_self (by rw [hrest]; rfl), hpointer]
  | case3 _ _ hpeek _ _ hnext =>
      obtain ⟨behind, -, -, hbehind⟩ := exists_goes_of_peek hpointer hpeek
      exact absurd hnext (peek_ne_error hbehind)
  | case4 _ hpeek _ _ hnext ih =>
      obtain ⟨behind, -, hgoes, hbehind⟩ := exists_goes_of_peek hpointer hpeek
      rw [ih hbehind, hgoes.moveTo_leave (by decide), rest_eq_nil_of_peek hbehind hnext]
      rfl
  | case5 _ escaped hpeek _ _ hnext ih =>
      obtain ⟨behind, -, hgoes, hbehind⟩ := exists_goes_of_peek hpointer hpeek
      obtain ⟨further, -, hgoes', hfurther⟩ := exists_goes_of_peek hbehind hnext
      rw [ih hfurther, hgoes.moveTo_leave (by decide), hgoes'.moveTo_leave (by decide)]
      rfl
  | case6 _ hpeek =>
      obtain ⟨behind, -, hgoes, hbehind⟩ := exists_goes_of_peek hpointer hpeek
      have hclosed : Quoting.inside.next '"' = .outside := rfl
      rw [hgoes.moveTo_leave (by decide), hclosed, Quoting.leave, moveTo_self rfl, hbehind]
  | case7 _ c hpeek _ _ hbackslash hquote ih =>
      obtain ⟨behind, -, hgoes, hbehind⟩ := exists_goes_of_peek hpointer hpeek
      rw [ih hbehind, hgoes.moveTo_leave (by decide), Quoting.next, if_neg hquote,
        if_neg hbackslash]

theorem skipQuoted_toPointer (hpointer : cursor.toPointer = pointer)
    (hpeek : pointer.peek = .ok (some '"')) :
    pointer.skipQuoted = .ok cursor.skipQuoted.toPointer := by
  obtain ⟨behind, hrest, hgoes, hbehind⟩ := exists_goes_of_peek hpointer hpeek
  rw [skipQuoted, hrest, List.drop_one, List.tail_cons, ← hgoes.moveTo (leave_suffix ..)]
  exact leaveQuotes_toPointer hbehind

/-- On a quote, the searches and the pointer go over the same part. -/
theorem exists_skips_of_peek (hpointer : cursor.toPointer = pointer)
    (hpeek : pointer.peek = .ok (some '"')) :
    ∃ body, cursor.Skips body ∧ cursor.Goes ('"' :: body) cursor.skipQuoted := by
  rw [← hpointer, toPointer_peek] at hpeek
  obtain ⟨body, hskips⟩ := exists_skips (Except.ok.inj hpeek)
  exact ⟨body, hskips, hskips.takes.rest_eq, rfl⟩

/-- Where a search leads which gives what it finds behind `lead`, and else ends at `failed`. -/
def outcome (cursor : Cursor) (lead : Text) (failed : Pointer) :
    Option (Text × Text) → Option Text × Pointer
  | some (found, left) => (some (lead ++ found), (cursor.moveTo left).toPointer)
  | none => (none, failed)

/-- A search which goes on behind the cursor adds what the rest of it finds. -/
theorem Goes.outcome_map {lead more : Text} {failed : Pointer} {found : Option (Text × Text)}
    (h : cursor.Goes part behind)
    (hfound : ∀ value left, found = some (value, left) → left <:+ behind.rest) :
    behind.outcome (lead ++ more) failed found =
      cursor.outcome lead failed (found.map fun (value, left) => (more ++ value, left)) := by
  cases found with
  | none => rfl
  | some pair =>
      rw [outcome, h.moveTo (hfound pair.1 pair.2 rfl), List.append_assoc]
      rfl

theorem readQuotedFrom_toPointer {first : Nat} {value : Text}
    (hpointer : cursor.toPointer = pointer) :
    pointer.readQuotedFrom first value =
      .ok (cursor.outcome value (pointer.backTo first) (Quoted.decodeBody? cursor.rest)) := by
  have hsuffix {text value left : Text} (h : Quoted.decodeBody? text = some (value, left)) :
      left <:+ text := by
    obtain ⟨body, rfl, -⟩ := Quoted.decodeBody?_eq_some_iff.mp h
    exact ⟨body ++ ['"'], by simp⟩
  fun_induction Pointer.readQuotedFrom first value pointer generalizing cursor with
  | case1 _ _ _ hpeek => exact absurd hpeek (peek_ne_error hpointer)
  | case2 _ _ hpeek =>
      rw [rest_eq_nil_of_peek hpointer hpeek]
      rfl
  | case3 _ _ hpeek =>
      obtain ⟨behind, hrest, hgoes, hbehind⟩ := exists_goes_of_peek hpointer hpeek
      rw [hrest, Quoted.decodeBody?, outcome, List.append_nil, ← hgoes.eq_moveTo, hbehind]
  | case4 _ _ _ hpeek _ _ _ hnext =>
      obtain ⟨behind, -, -, hbehind⟩ := exists_goes_of_peek hpointer hpeek
      exact absurd hnext (peek_ne_error hbehind)
  | case5 _ _ hpeek _ _ _ hnext =>
      obtain ⟨behind, hrest, hgoes, hbehind⟩ := exists_goes_of_peek hpointer hpeek
      rw [hrest, rest_eq_nil_of_peek hbehind hnext]
      rfl
  | case6 _ _ escaped hpeek _ _ _ hnext ih =>
      obtain ⟨behind, hrest, hgoes, hbehind⟩ := exists_goes_of_peek hpointer hpeek
      obtain ⟨further, hrest', hgoes', hfurther⟩ := exists_goes_of_peek hbehind hnext
      rw [ih hfurther, (hgoes.trans hgoes').outcome_map fun _ _ => hsuffix, hrest, hrest']
      rfl
  | case7 _ _ c hpeek _ _ hquote hbackslash ih =>
      obtain ⟨behind, hrest, hgoes, hbehind⟩ := exists_goes_of_peek hpointer hpeek
      rw [ih hbehind, hgoes.outcome_map fun _ _ => hsuffix, hrest, Quoted.decodeBody?,
        if_neg hbackslash]
      · rfl
      · exact hquote
      · exact fun _ _ h => absurd h hbackslash

/-- What is found, and the place behind it as a number of bytes. -/
def found {α : Type} (cursor : Cursor) : Option (α × Cursor) → Option α × Pointer
  | some (value, after) => (some value, after.toPointer)
  | none => (none, cursor.toPointer)

theorem readQuoted_toPointer (cursor : Cursor) :
    cursor.toPointer.readQuoted = .ok (cursor.found cursor.readQuoted?) := by
  rw [Pointer.readQuoted, toPointer_peek, Except.ok_bind]
  split
  · next hpeek =>
    have hpeek' : cursor.toPointer.peek = .ok (some '"') := by rw [toPointer_peek, hpeek]
    obtain ⟨behind, hrest, hgoes, hbehind⟩ := exists_goes_of_peek rfl hpeek'
    have hbody : (cursor.toPointer.advance 1).readQuotedFrom cursor.toPointer.index [] = _ :=
      readQuotedFrom_toPointer hbehind
    rw [hbody, readQuoted?, hrest, Quoted.decode?]
    cases hdecode : Quoted.decodeBody? behind.rest with
    | none => rfl
    | some pair =>
        obtain ⟨value, left⟩ := pair
        obtain ⟨body, hwhole, -⟩ := Quoted.decodeBody?_eq_some_iff.mp hdecode
        rw [outcome, hgoes.moveTo ⟨body ++ ['"'], by simp [hwhole]⟩]
        rfl
  · next hpeek =>
    rw [readQuoted?, Quoted.decode?_eq_none hpeek]
    rfl

/-! Searches -/

theorem isAt_toPointer (cursor : Cursor) (token : Text) :
    cursor.toPointer.isAt token = .ok (cursor.isAt token) := by
  rw [Pointer.isAt, isAt, Lexeme.startsWith, toPointer_rest]
  cases token.isEmpty <;> rfl

theorem findM?_isAt_toPointer (cursor : Cursor) (tokens : List Text) :
    tokens.findM? cursor.toPointer.isAt = .ok (Lexeme.tokenAt? tokens cursor.rest) := by
  induction tokens with
  | nil => rfl
  | cons token rest ih =>
      rw [List.findM?, isAt_toPointer, Except.ok_bind, ih, Lexeme.tokenAt?, Lexeme.tokenAt?,
        List.find?_cons, isAt]
      cases Lexeme.startsWith token cursor.rest <;> rfl

theorem takeUntil_of_token {tokens : List Text} {token : Text} (hquote : cursor.peek? ≠ some '"')
    (htoken : Lexeme.tokenAt? tokens cursor.rest = some token) :
    ∃ after, cursor.Goes token after ∧ cursor.takeUntil tokens = ([], some token, after) := by
  obtain ⟨-, -, left, hrest⟩ := Lexeme.tokenAt?_eq_some htoken
  have hvisible : Lexeme.visibleToken? tokens .outside cursor.rest = some token := by
    rw [Lexeme.visibleToken?, if_pos ⟨rfl, hquote⟩, htoken]
  rw [← hrest] at hvisible
  refine ⟨cursor.moveTo left, goes_moveTo hrest.symm, ?_⟩
  have hsplit := Lexeme.splitAtToken_of_token Lexeme.clear_nil hvisible
  rw [takeUntil, ← hrest]
  simp only [List.nil_append] at hsplit
  rw [hsplit]

theorem next_outside (hquote : c ≠ '"') : Quoting.outside.next c = .outside :=
  if_neg hquote

theorem Goes.takeUntil {tokens : List Text} (h : cursor.Goes [c] behind) (hquote : c ≠ '"')
    (hnone : Lexeme.tokenAt? tokens cursor.rest = none) :
    cursor.takeUntil tokens =
      ([c] ++ (behind.takeUntil tokens).1, (behind.takeUntil tokens).2) := by
  have hclear : Lexeme.Clear tokens .outside [c] behind.rest := by
    refine ⟨?_, trivial⟩
    rw [h.rest_eq] at hnone
    unfold Lexeme.visibleToken?
    split
    · exact hnone
    · rfl
  have hsplit := Lexeme.splitAtToken_append_of_clear hclear (next_outside hquote)
  obtain ⟨taken, -, hwhole⟩ := Lexeme.exists_append_splitAtToken tokens behind.rest
  have hmove := h.moveTo ⟨taken, hwhole.symm⟩
  simp only [Cursor.takeUntil, h.rest_eq, hsplit, hmove]

theorem takeUntilFrom_toPointer {tokens : List Text} {before : Text}
    (hpointer : cursor.toPointer = pointer) :
    pointer.takeUntilFrom tokens before =
      .ok (before ++ (cursor.takeUntil tokens).1, (cursor.takeUntil tokens).2.1,
        (cursor.takeUntil tokens).2.2.toPointer) := by
  fun_induction Pointer.takeUntilFrom tokens before pointer generalizing cursor with
  | case1 _ _ _ hpeek => exact absurd hpeek (peek_ne_error hpointer)
  | case2 _ _ hpeek =>
      have hrest := rest_eq_nil_of_peek hpointer hpeek
      have hend : cursor.takeUntil tokens = ([], none, cursor.moveTo []) := by
        rw [takeUntil, hrest]
        rfl
      rw [hend, List.append_nil, moveTo_self hrest, hpointer]
  | case3 _ _ _ hskip hpeek =>
      rw [skipQuoted_toPointer hpointer hpeek] at hskip
      cases hskip
  | case4 _ pointer after hskip _ hpeek _ _ ih =>
      obtain ⟨body, hskips, hgoes⟩ := exists_skips_of_peek hpointer hpeek
      rw [skipQuoted_toPointer hpointer hpeek] at hskip
      have hafter := Except.ok.inj hskip
      have hliteral : pointer.source.between pointer.index after.index = .ok ('"' :: body) := by
        rw [← hpointer, ← hafter]
        exact hgoes.between
      rw [hliteral, Except.ok_bind, ih _ hafter, hskips.takeUntil, List.append_assoc]
  | case5 _ pointer c hpeek _ _ hquote ih =>
      obtain ⟨behind, hrest, hgoes, hbehind⟩ := exists_goes_of_peek hpointer hpeek
      rw [← hpointer, findM?_isAt_toPointer, Except.ok_bind]
      cases htoken : Lexeme.tokenAt? tokens cursor.rest with
      | none =>
        rw [hpointer]
        simp only []
        rw [ih hbehind, hgoes.takeUntil hquote htoken, List.append_assoc]
      | some token =>
          have hplain : cursor.peek? ≠ some '"' := by
            rw [peek?, hrest, List.head?_cons]
            exact fun h => hquote (Option.some.inj h)
          obtain ⟨after, hgoes', htake⟩ := takeUntil_of_token hplain htoken
          rw [htake, List.append_nil, hgoes'.toPointer_eq]
          rfl

theorem Goes.outcome_close {depth inner : Nat} (h : cursor.Goes part behind)
    (hsplit : Lexeme.splitBeforeClose? depth .outside cursor.rest =
      (Lexeme.splitBeforeClose? inner .outside behind.rest).map
        fun (before, left) => (part ++ before, left)) :
    behind.outcome (gone ++ part) (behind.moveTo []).toPointer
        (Lexeme.splitBeforeClose? inner .outside behind.rest) =
      cursor.outcome gone (cursor.moveTo []).toPointer
        (Lexeme.splitBeforeClose? depth .outside cursor.rest) := by
  have hsuffix (before left : Text)
      (hfound : Lexeme.splitBeforeClose? inner .outside behind.rest = some (before, left)) :
      left <:+ behind.rest :=
    ⟨before, (Lexeme.splitBeforeClose?_append hfound).1.symm⟩
  rw [hsplit, h.outcome_map hsuffix, h.moveTo List.nil_suffix]

theorem splitBeforeClose?_step {depth inner : Nat} (hrest : cursor.rest = c :: behind.rest)
    (hquote : c ≠ '"') (hstep : Lexeme.step? depth .outside c = some inner) :
    Lexeme.splitBeforeClose? depth .outside cursor.rest =
      (Lexeme.splitBeforeClose? inner .outside behind.rest).map
        fun (before, left) => ([c] ++ before, left) := by
  rw [hrest, Lexeme.splitBeforeClose?_cons hstep, next_outside hquote]
  rfl

theorem takeGroupFrom_toPointer {opened : Cursor} {depth outer first : Nat}
    (hopened : opened.Goes gone cursor) (hfirst : opened.toPointer.index = first)
    (hdepth : outer = depth + 1) (hpointer : cursor.toPointer = pointer) :
    pointer.takeGroupFrom first outer =
      .ok (cursor.outcome gone (cursor.moveTo []).toPointer
        (Lexeme.splitBeforeClose? depth .outside cursor.rest)) := by
  fun_induction Pointer.takeGroupFrom first outer pointer generalizing cursor gone depth with
  | case1 _ _ _ hpeek => exact absurd hpeek (peek_ne_error hpointer)
  | case2 _ _ hpeek =>
      have hrest := rest_eq_nil_of_peek hpointer hpeek
      rw [hrest, moveTo_self hrest, hpointer]
      rfl
  | case3 _ _ _ hskip hpeek =>
      rw [skipQuoted_toPointer hpointer hpeek] at hskip
      cases hskip
  | case4 _ _ _ hskip _ hpeek _ _ ih =>
      obtain ⟨body, hskips, hgoes⟩ := exists_skips_of_peek hpointer hpeek
      rw [skipQuoted_toPointer hpointer hpeek] at hskip
      rw [ih (hopened.trans hgoes) hdepth (Except.ok.inj hskip),
        hgoes.outcome_close (hskips.splitBeforeClose? depth)]
  | case5 _ _ hpeek _ _ hquote ih =>
      obtain ⟨behind, hrest, hgoes, hbehind⟩ := exists_goes_of_peek hpointer hpeek
      rw [ih (hopened.trans hgoes) (congrArg Nat.succ hdepth) hbehind,
        hgoes.outcome_close (splitBeforeClose?_step hrest hquote (Lexeme.step?_open depth))]
  | case6 outer pointer hclosed hpeek =>
      obtain ⟨behind, hrest, -, -⟩ := exists_goes_of_peek hpointer hpeek
      obtain rfl : depth = 0 := by omega
      have hinterior : pointer.source.between first pointer.index = .ok gone := by
        rw [← hpointer, ← hfirst]
        change cursor.source.between _ _ = _
        rw [hopened.source_eq, hopened.between]
      rw [hinterior, hrest, Lexeme.splitBeforeClose?_of_step?_eq_none rfl, outcome, List.append_nil,
        moveTo_self hrest, hpointer]
      rfl
  | case7 outer _ hopen hpeek _ _ hquote _ ih =>
      obtain ⟨behind, hrest, hgoes, hbehind⟩ := exists_goes_of_peek hpointer hpeek
      obtain ⟨inner, rfl⟩ : ∃ inner, depth = inner + 1 := ⟨depth - 1, by omega⟩
      have hinner : outer - 1 = inner + 1 := by omega
      rw [ih (hopened.trans hgoes) hinner hbehind,
        hgoes.outcome_close (splitBeforeClose?_step hrest hquote (Lexeme.step?_close inner))]
  | case8 _ _ c hpeek _ _ hquote hopen hclose ih =>
      obtain ⟨behind, hrest, hgoes, hbehind⟩ := exists_goes_of_peek hpointer hpeek
      have hstep : Lexeme.step? depth .outside c = some depth :=
        Lexeme.step?_plain depth fun _ => not_or.mpr ⟨hopen, hclose⟩
      rw [ih (hopened.trans hgoes) hdepth hbehind,
        hgoes.outcome_close (splitBeforeClose?_step hrest hquote hstep)]

theorem takeGroup_toPointer (cursor : Cursor) :
    cursor.toPointer.takeGroup = .ok (cursor.takeGroup.1, cursor.takeGroup.2.toPointer) := by
  rw [Pointer.takeGroup, takeGroupFrom_toPointer cursor.goes_self rfl rfl rfl, takeGroup,
    Lexeme.group?]
  cases Lexeme.splitBeforeClose? 0 .outside cursor.rest <;> rfl

/-! Names and numbers -/

/-- Whether a point may follow this part of a name. -/
def joins (name : Text) : Bool :=
  name.getLast?.any fun last => last != '.'

theorem joins_concat (name : Text) (c : Char) : joins (name ++ [c]) = (c != '.') := by
  simp [joins]

theorem dottedRun_cons (dotAllowed : Bool) (c : Char) (rest : Text) :
    Lexeme.dottedRun dotAllowed (c :: rest) =
      if Lexeme.isWordCharacter c || (c == '.' && dotAllowed) then
        c :: Lexeme.dottedRun (c != '.') rest
      else [] := by
  rw [Lexeme.dottedRun]
  by_cases hpoint : c = '.'
  · subst hpoint
    rfl
  · have hother : (c == '.') = false := beq_eq_false_iff_ne.mpr hpoint
    simp only [bne, hother, Bool.false_and, Bool.or_false, Bool.not_false, if_false,
      Bool.false_eq_true]

theorem continuesName_toPointer {opened : Cursor} {name : Text} (h : opened.Goes name cursor)
    (c : Char) : Pointer.continuesName opened.toPointer.index cursor.toPointer c =
      .ok (Lexeme.isWordCharacter c || (c == '.' && joins name)) := by
  have hbefore : cursor.toPointer.source.before cursor.toPointer.index =
      .ok (opened.consumed ++ name) := by
    rw [← h.consumed_eq]
    exact cursor.toPointer_before
  simp only [Pointer.continuesName, hbefore, h.index_lt_iff]
  cases hword : Lexeme.isWordCharacter c with
  | true => rfl
  | false =>
      by_cases hpoint : c = '.'
      · rcases List.eq_nil_or_concat name with rfl | ⟨front, last, rfl⟩
        · simp [joins]
        · simp [hpoint, joins, bne]
      · simp [hpoint]

theorem skipName_toPointer {opened : Cursor} {name : Text} {first : Nat}
    (hopened : opened.Goes name cursor) (hfirst : opened.toPointer.index = first)
    (hpointer : cursor.toPointer = pointer) :
    pointer.skipWhile (Pointer.continuesName first) .single =
      .ok (cursor.moveTo
        (cursor.rest.drop (Lexeme.dottedRun (joins name) cursor.rest).length)).toPointer := by
  fun_induction Pointer.skipWhile _ _ pointer generalizing cursor name with
  | case1 _ _ hpeek => exact absurd hpeek (peek_ne_error hpointer)
  | case2 _ hpeek =>
      have hrest := rest_eq_nil_of_peek hpointer hpeek
      rw [moveTo_self (by rw [hrest]; rfl), hpointer]
  | case3 _ c hpeek _ _ ih =>
      obtain ⟨behind, hrest, hgoes, hbehind⟩ := exists_goes_of_peek hpointer hpeek
      have htest := continuesName_toPointer hopened c
      rw [hfirst, hpointer] at htest
      rw [htest, Except.ok_bind, hrest, dottedRun_cons]
      split
      · next hpass =>
        have hwidth : Pointer.Stride.single.bytes c = c.utf8Size := by
          rw [Bool.or_eq_true, Bool.and_eq_true, beq_iff_eq] at hpass
          rcases hpass with hword | ⟨rfl, -⟩
          · exact (utf8Size_of_isWordCharacter hword).symm
          · rfl
        rw [hwidth] at ih ⊢
        rw [ih (hopened.trans hgoes) hbehind, joins_concat, hgoes.moveTo (List.drop_suffix _ _)]
        rfl
      · next hfail =>
        rw [List.length_nil, List.drop_zero, moveTo_self hrest, hpointer]
        rfl

theorem readIdentifier_toPointer (cursor : Cursor) :
    cursor.toPointer.readIdentifier = .ok (cursor.found cursor.readIdentifier?) := by
  have hgoes : cursor.Goes (Lexeme.dottedRun false cursor.rest)
      (cursor.moveTo (cursor.rest.drop (Lexeme.dottedRun false cursor.rest).length)) := by
    apply goes_moveTo
    exact (List.prefix_iff_eq_append.mp (Lexeme.dottedRun_isPrefix false cursor.rest)).symm
  have hname : cursor.toPointer.source.between _ _ = .ok _ := hgoes.between
  have hskip := skipName_toPointer cursor.goes_self rfl rfl
  rw [Pointer.readIdentifier, hskip, Except.ok_bind]
  have hjoins : joins [] = false := rfl
  rw [hjoins, hname, Except.ok_bind, hgoes.backTo, readIdentifier?, Lexeme.identifier?]
  cases Lexeme.isIdentifier (Lexeme.dottedRun false cursor.rest) <;> rfl

/-- The sign of a number is gone over by one byte. -/
theorem skipMinus_toPointer (cursor : Cursor) :
    ∃ negative body, cursor.toPointer.skipMinus = .ok body.toPointer ∧
      cursor.Goes (if negative then ['-'] else []) body ∧
      Number.splitMinus cursor.rest = (negative, body.rest) := by
  rw [Pointer.skipMinus, toPointer_peek, Except.ok_bind]
  split
  · next hminus =>
    obtain ⟨rest, hrest⟩ := List.head?_eq_some_iff.mp hminus
    have hgoes : cursor.Goes ['-'] (cursor.moveTo rest) := goes_moveTo hrest
    refine ⟨true, _, congrArg Except.ok hgoes.toPointer_eq.symm, hgoes, ?_⟩
    rw [hrest]
    rfl
  · next hplain =>
    exact ⟨false, cursor, rfl, cursor.goes_self, Number.splitMinus_of_head?_ne hplain⟩

/-- So is a point, with the digits behind it. -/
theorem skipFraction_toPointer (cursor : Cursor) :
    ∃ part fraction after, cursor.toPointer.skipFraction = .ok after.toPointer ∧
      cursor.Goes part after ∧ Number.splitFraction cursor.rest = (fraction, after.rest) ∧
      (∀ c ∈ fraction, c.isDigit = true) ∧
      (part = [] ∧ fraction = [] ∨ part = '.' :: fraction) := by
  rw [Pointer.skipFraction, toPointer_peek, Except.ok_bind]
  split
  · next hpoint =>
    obtain ⟨rest, hrest⟩ := List.head?_eq_some_iff.mp hpoint
    have hgoes : cursor.Goes ['.'] (cursor.moveTo rest) := goes_moveTo hrest
    have hdigits : (cursor.moveTo rest).Goes (rest.takeWhile Char.isDigit) _ :=
      goes_moveTo List.takeWhile_append_dropWhile.symm
    have hbehind : cursor.toPointer.advance 1 = (cursor.moveTo rest).toPointer :=
      hgoes.toPointer_eq.symm
    refine ⟨_, _, _, ?_, hgoes.trans hdigits, by rw [hrest]; rfl, ?_, .inr rfl⟩
    · rw [hbehind, skipDigits_toPointer]
    · exact fun c hc => List.mem_takeWhile_imp hc
  · next hplain =>
    refine ⟨[], [], cursor, rfl, cursor.goes_self, ?_, nofun, .inl ⟨rfl, rfl⟩⟩
    unfold Number.splitFraction
    split
    · next rest hrest => exact absurd (by rw [peek?, hrest]; rfl) hplain
    · rfl

theorem readNumber_toPointer (cursor : Cursor) :
    cursor.toPointer.readNumber = .ok (cursor.found cursor.readNumber?) := by
  obtain ⟨negative, body, hminus, hsign, hbody⟩ := cursor.skipMinus_toPointer
  have hwhole : body.Goes (body.rest.takeWhile Char.isDigit)
      (body.moveTo (body.rest.dropWhile Char.isDigit)) :=
    goes_moveTo List.takeWhile_append_dropWhile.symm
  obtain ⟨part, fraction, after, hfraction, hpart, hsplit, hdigits, hform⟩ :=
    (body.moveTo (body.rest.dropWhile Char.isDigit)).skipFraction_toPointer
  have hgoes := hsign.trans (hwhole.trans hpart)
  rw [moveTo_rest] at hsplit
  rw [Pointer.readNumber, hminus, Except.ok_bind, skipDigits_toPointer, Except.ok_bind,
    hfraction, Except.ok_bind, (hsign.trans hwhole).backTo, readNumber?, Lexeme.number?, hbody]
  simp only [hsplit, List.isEmpty_iff, hwhole.index_eq_iff]
  split
  · rfl
  · next hne =>
    have hbetween : cursor.toPointer.source.between _ _ = .ok _ := hgoes.between
    rw [hbetween, Except.ok_bind,
      Number.read?_decimal (Number.digits_takeWhile hne) hdigits hform, Option.map_some,
      ← hgoes.eq_moveTo]
    rfl

theorem skipToken_toPointer (cursor : Cursor) (token : Text) :
    cursor.toPointer.skipToken token =
      .ok ((cursor.skipToken? token).isSome,
        ((cursor.skipToken? token).getD cursor).toPointer) := by
  rw [Pointer.skipToken, isAt_toPointer, Except.ok_bind, skipToken?]
  split
  · next hat =>
    have hstarts := (Lexeme.startsWith_eq_true_iff.mp hat).2
    have hgoes : cursor.Goes token (cursor.moveTo (cursor.rest.drop token.length)) :=
      goes_moveTo (List.prefix_iff_eq_append.mp hstarts).symm
    exact congrArg (fun after => Except.ok (true, after)) hgoes.toPointer_eq.symm
  · rfl

theorem skipChar_toPointer (cursor : Cursor) (c : Char) :
    cursor.toPointer.skipChar c =
      .ok ((cursor.skipChar? c).isSome, ((cursor.skipChar? c).getD cursor).toPointer) := by
  rw [Pointer.skipChar, toPointer_peek, Except.ok_bind]
  split
  · next hhead =>
    obtain ⟨rest, hrest⟩ := List.head?_eq_some_iff.mp hhead
    have hgoes : cursor.Goes [c] (cursor.moveTo rest) := goes_moveTo hrest
    rw [skipChar?_of_rest hrest]
    exact congrArg (fun after => Except.ok (true, after)) hgoes.toPointer_eq.symm
  · next hhead =>
    rw [skipChar?_eq_none hhead]
    rfl

/-- A pointer makes each move as the cursor does, and finds the same. -/
theorem perform_toPointer (cursor : Cursor) (move : Move) :
    cursor.toPointer.perform move =
      .ok ((cursor.perform move).1, (cursor.perform move).2.toPointer) := by
  cases move with
  | isAt token =>
      rw [Pointer.perform, isAt_toPointer]
      rfl
  | skipToken token =>
      rw [Pointer.perform, skipToken_toPointer, perform]
      cases cursor.skipToken? token <;> rfl
  | skipBlanks =>
      rw [Pointer.perform, skipBlanks_toPointer]
      rfl
  | takeUntil tokens =>
      rw [Pointer.perform, Pointer.takeUntil, takeUntilFrom_toPointer rfl]
      rfl
  | takeGroup =>
      rw [Pointer.perform, takeGroup_toPointer]
      rfl
  | readIdentifier =>
      rw [Pointer.perform, readIdentifier_toPointer, perform]
      cases cursor.readIdentifier? <;> rfl
  | readQuoted =>
      rw [Pointer.perform, readQuoted_toPointer, perform]
      cases cursor.readQuoted? <;> rfl
  | readNumber =>
      rw [Pointer.perform, readNumber_toPointer, perform]
      cases cursor.readNumber? <;> rfl
  | skipChar c =>
      rw [Pointer.perform, skipChar_toPointer, perform]
      cases cursor.skipChar? c <;> rfl
  | peek =>
      rw [Pointer.perform, toPointer_peek]
      rfl

theorem run_toPointer (cursor : Cursor) (moves : List Move) :
    cursor.toPointer.run moves = .ok (cursor.run moves).toPointer := by
  induction moves generalizing cursor with
  | nil => rfl
  | cons move rest ih =>
      rw [Pointer.run, List.foldlM_cons, perform_toPointer]
      exact ih (cursor.perform move).2

end Cursor

end Criteria
