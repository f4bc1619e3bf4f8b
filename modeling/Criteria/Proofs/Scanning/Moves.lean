import Criteria.Proofs.Scanning.Pointers

/-!
Rows of moves. Whatever a reader asks of a pointer, no move cuts the text within a character, and
none leads back. So the position always falls between two characters of the text in UTF-8, and
what lies after it is the text from there on. A move which looks for something goes on exactly if
it finds it.
-/

namespace Criteria

namespace Cursor

variable {cursor after : Cursor} {left taken : Text}

/-- The other cursor is in the same text, not before this one. -/
def Precedes (cursor after : Cursor) : Prop :=
  ∃ part, cursor.Goes part after

namespace Precedes

theorem refl (cursor : Cursor) : cursor.Precedes cursor :=
  ⟨[], cursor.goes_self⟩

theorem position_le (h : cursor.Precedes after) :
    cursor.toPointer.position ≤ after.toPointer.position := by
  obtain ⟨part, hpart⟩ := h
  rw [hpart.toPointer_eq]
  exact Nat.add_le_add_left (Nat.le_add_right ..) _

theorem toPointer_eq_iff (h : cursor.Precedes after) :
    after.toPointer = cursor.toPointer ↔ after = cursor := by
  obtain ⟨part, hpart⟩ := h
  constructor
  · intro hsame
    obtain rfl := hpart.index_eq_iff.mp (congrArg Pointer.index hsame)
    exact hpart.eq_moveTo.trans (moveTo_self hpart.rest_eq)
  · exact fun hsame => congrArg toPointer hsame

theorem of_suffix (h : left <:+ cursor.rest) : cursor.Precedes (cursor.moveTo left) := by
  obtain ⟨taken, hwhole⟩ := h
  exact ⟨taken, goes_moveTo hwhole.symm⟩

end Precedes

/-! What each move does -/

/-- The moves which look for something at the cursor. -/
def Move.isAttempt : Move → Bool
  | .skipToken _ | .readIdentifier | .readQuoted | .readNumber | .skipChar _ => true
  | _ => false

/-- Nothing was found. -/
def Answer.isRefusal : Answer → Bool
  | .flag found => !found
  | .text found => found.isNone
  | .number found => found.isNone
  | _ => false

/-- If something is found, the cursor found with it is further on. -/
def Finds {α : Type} (cursor : Cursor) (found : Option (α × Cursor)) : Prop :=
  ∀ value after, found = some (value, after) →
    cursor.Precedes after ∧ after.rest.length < cursor.rest.length

section

variable {α : Type} {found : Option (α × Cursor)} {answer : Option α → Answer}

theorem Finds.precedes (h : cursor.Finds found) :
    cursor.Precedes (cursor.attempt answer found).2 := by
  cases found with
  | none => exact .refl cursor
  | some pair => exact (h pair.1 pair.2 rfl).1

theorem Finds.eq_self_iff_isRefusal (h : cursor.Finds found)
    (hanswer : ∀ value, (answer value).isRefusal = value.isNone) :
    (cursor.attempt answer found).2 = cursor ↔
      (cursor.attempt answer found).1.isRefusal = true := by
  cases found with
  | none => simp [attempt, hanswer]
  | some pair =>
      have hlength := (h pair.1 pair.2 rfl).2
      simp only [attempt, hanswer, Option.isNone_some, Bool.false_eq_true, iff_false]
      intro hstays
      rw [hstays] at hlength
      exact Nat.lt_irrefl _ hlength

end

/-- The cursor found is behind what is taken, if this is anything. -/
theorem further_of_append (hrest : cursor.rest = taken ++ left) (hne : taken ≠ []) :
    cursor.Precedes (cursor.moveTo left) ∧ left.length < cursor.rest.length := by
  refine ⟨⟨taken, goes_moveTo hrest⟩, ?_⟩
  have hpos := List.length_pos_of_ne_nil hne
  rw [hrest, List.length_append]
  omega

theorem finds_skipToken? (cursor : Cursor) (token : Text) :
    cursor.Finds ((cursor.skipToken? token).map fun after => ((), after)) := by
  rintro ⟨⟩ after hfound
  obtain ⟨after', hskip, hsame⟩ := Option.map_eq_some_iff.mp hfound
  obtain rfl := (Prod.mk.inj hsame).2
  refine ⟨?_, skipToken?_shorter hskip⟩
  unfold skipToken? at hskip
  split at hskip
  · obtain rfl := Option.some.inj hskip
    exact .of_suffix (List.drop_suffix _ _)
  · cases hskip

theorem finds_readIdentifier? (cursor : Cursor) : cursor.Finds cursor.readIdentifier? := by
  intro value after hfound
  obtain ⟨⟨name, left⟩, hname, hsame⟩ := Option.map_eq_some_iff.mp hfound
  obtain ⟨rfl, rfl⟩ := Prod.mk.inj hsame
  obtain ⟨c, more, hne, -⟩ := Lexeme.exists_of_identifier? hname
  obtain ⟨hrun, -, hleft⟩ := Lexeme.identifier?_eq_some_iff.mp hname
  obtain ⟨rest, hrest⟩ := Lexeme.dottedRun_isPrefix false cursor.rest
  rw [hrun] at hrest
  rw [← hrest, List.drop_left] at hleft
  exact further_of_append (hleft ▸ hrest.symm) (hne ▸ List.cons_ne_nil c more)

theorem finds_readQuoted? (cursor : Cursor) : cursor.Finds cursor.readQuoted? := by
  intro value after hfound
  obtain ⟨⟨value', left⟩, hdecode, hsame⟩ := Option.map_eq_some_iff.mp hfound
  obtain ⟨-, rfl⟩ := Prod.mk.inj hsame
  obtain ⟨body, hrest, -⟩ := Quoted.decode?_eq_some_iff.mp hdecode
  have hwhole : cursor.rest = '"' :: (body ++ ['"']) ++ left := by simpa using hrest
  exact further_of_append hwhole (List.cons_ne_nil _ _)

theorem finds_readNumber? (cursor : Cursor) : cursor.Finds cursor.readNumber? := by
  intro value after hfound
  obtain ⟨⟨value', left⟩, hnumber, hsame⟩ := Option.map_eq_some_iff.mp hfound
  obtain ⟨-, rfl⟩ := Prod.mk.inj hsame
  have hreads := Lexeme.reads_number? cursor.rest
  rw [hnumber] at hreads
  obtain ⟨taken, hne, hrest⟩ := hreads.exists_append
  exact further_of_append hrest hne

theorem precedes_takeUntil (cursor : Cursor) (tokens : List Text) :
    cursor.Precedes (cursor.takeUntil tokens).2.2 := by
  obtain ⟨taken, -, hwhole⟩ := Lexeme.exists_append_splitAtToken tokens cursor.rest
  exact .of_suffix ⟨taken, hwhole.symm⟩

theorem precedes_takeGroup (cursor : Cursor) : cursor.Precedes cursor.takeGroup.2 := by
  unfold takeGroup
  split
  · next interior left hgroup =>
    exact .of_suffix ⟨interior, (Lexeme.group?_eq_some_iff.mp hgroup).1.symm⟩
  · exact .of_suffix List.nil_suffix

theorem precedes_perform (cursor : Cursor) (move : Move) :
    cursor.Precedes (cursor.perform move).2 := by
  cases move with
  | isAt token => exact .refl cursor
  | skipToken token => exact (cursor.finds_skipToken? token).precedes
  | skipBlanks => exact .of_suffix (List.dropWhile_suffix _)
  | takeUntil tokens => exact cursor.precedes_takeUntil tokens
  | takeGroup => exact cursor.precedes_takeGroup
  | readIdentifier => exact cursor.finds_readIdentifier?.precedes
  | readQuoted => exact cursor.finds_readQuoted?.precedes
  | readNumber => exact cursor.finds_readNumber?.precedes
  | skipChar c => exact (cursor.finds_skipToken? [c]).precedes
  | peek => exact .refl cursor

/-- An attempt goes on exactly if it finds what it looks for. -/
theorem perform_eq_self_iff {move : Move} (hattempt : move.isAttempt = true) :
    (cursor.perform move).2 = cursor ↔ (cursor.perform move).1.isRefusal = true := by
  have hflag (found : Option Unit) : (Answer.flag found.isSome).isRefusal = found.isNone := by
    cases found <;> rfl
  cases move with
  | skipToken token => exact (cursor.finds_skipToken? token).eq_self_iff_isRefusal hflag
  | readIdentifier => exact cursor.finds_readIdentifier?.eq_self_iff_isRefusal fun _ => rfl
  | readQuoted => exact cursor.finds_readQuoted?.eq_self_iff_isRefusal fun _ => rfl
  | readNumber => exact cursor.finds_readNumber?.eq_self_iff_isRefusal fun _ => rfl
  | skipChar c => exact (cursor.finds_skipToken? [c]).eq_self_iff_isRefusal hflag
  | isAt | skipBlanks | takeUntil | takeGroup | peek => cases hattempt

end Cursor

namespace Text

variable {text left : Text} {index : Nat}

theorem byteLength_eq_size (text : Text) : text.byteLength = text.utf8Encode.size := by
  induction text with
  | nil => rfl
  | cons c rest ih =>
      rw [byteLength_cons, List.utf8Encode_cons, ByteArray.size_append, ← ih,
        List.utf8Encode_singleton]
      simp

/-- A text can be cut at a byte exactly if its encoding can. -/
theorem cut?_isSome_iff : (text.cut? index).isSome = true ↔
    (String.Pos.Raw.mk index).IsValid (String.ofList text) := by
  rw [Option.isSome_iff_exists, String.Pos.Raw.isValid_iff_exists_append]
  constructor
  · rintro ⟨⟨before, after⟩, hcut⟩
    obtain ⟨rfl, rfl⟩ := cut?_eq_some_iff.mp hcut
    refine ⟨String.ofList before, String.ofList after, String.ofList_append .., ?_⟩
    rw [String.Pos.Raw.ext_iff, String.byteIdx_rawEndPos, ← String.size_toByteArray,
      String.toByteArray_ofList, byteLength_eq_size]
  · rintro ⟨before, after, hwhole, hindex⟩
    refine ⟨(before.toList, after.toList), cut?_eq_some_iff.mpr ⟨?_, ?_⟩⟩
    · rw [← String.toList_append, ← hwhole, String.toList_ofList]
    · rw [byteLength_eq_size, ← String.toByteArray_ofList, String.ofList_toList,
        String.size_toByteArray, ← String.byteIdx_rawEndPos, ← hindex]

theorem extract_of_after (h : text.after index = .ok left) :
    text.utf8Encode.extract index text.utf8Encode.size = left.utf8Encode := by
  obtain ⟨front, rfl, rfl⟩ := after_eq_ok_iff.mp h
  rw [byteLength_eq_size, List.utf8Encode_append, ByteArray.size_append]
  exact ByteArray.extract_append_eq_right rfl rfl

end Text

namespace Pointer

variable {pointer : Pointer} {text left : Text} {base : Nat}

/-- The pointer is in a text which lies at `base`, between two characters of its encoding. -/
structure StandsIn (pointer : Pointer) (text : Text) (base : Nat) : Prop where
  source_eq : pointer.source = text
  base_eq : pointer.base = base
  base_le : base ≤ pointer.position
  offset_le : pointer.position - base ≤ text.utf8Encode.size
  boundary : (String.Pos.Raw.mk (pointer.position - base)).IsValid (String.ofList text)
  rest_eq : ∃ left, pointer.rest = .ok left ∧
    text.utf8Encode.extract (pointer.position - base) text.utf8Encode.size = left.utf8Encode

theorem standsIn_of_rest (h : pointer.rest = .ok left) :
    pointer.StandsIn pointer.source pointer.base := by
  have hoffset : pointer.position - pointer.base = pointer.index := Nat.add_sub_cancel_left ..
  obtain ⟨front, hsource, hindex⟩ := Text.after_eq_ok_iff.mp h
  have hcut := Text.cut?_eq_some_iff.mpr ⟨hsource, hindex⟩
  refine ⟨rfl, rfl, Nat.le_add_right .., ?_, ?_, left, h, ?_⟩
  · rw [hoffset, ← hindex, ← Text.byteLength_eq_size, hsource, Text.byteLength_append]
    exact Nat.le_add_right ..
  · rw [hoffset, ← Text.cut?_isSome_iff, hcut]
    rfl
  · rw [hoffset]
    exact Text.extract_of_after h

theorem standsIn_start (text : Text) (base : Nat) : (start text base).StandsIn text base := by
  rw [← Cursor.toPointer_start]
  exact standsIn_of_rest (Cursor.start text base).toPointer_rest

namespace StandsIn

/-- There is a cursor at the place of the pointer. -/
theorem exists_cursor (h : pointer.StandsIn text base) :
    ∃ cursor : Cursor, cursor.toPointer = pointer := by
  obtain ⟨left, hrest, -⟩ := h.rest_eq
  obtain ⟨front, hsource, hindex⟩ := Text.after_eq_ok_iff.mp hrest
  refine ⟨⟨pointer.base, front, left⟩, ?_⟩
  rw [Cursor.toPointer, Cursor.source, ← hsource, hindex]

theorem of_precedes {cursor after : Cursor} (h : cursor.toPointer.StandsIn text base)
    (hprecedes : cursor.Precedes after) : after.toPointer.StandsIn text base := by
  obtain ⟨part, hgoes⟩ := hprecedes
  have hstands := standsIn_of_rest after.toPointer_rest
  have hbase : after.toPointer.base = base := by
    rw [hgoes.toPointer_eq]
    exact h.base_eq
  have hsource : after.toPointer.source = text := hgoes.source_eq.trans h.source_eq
  rwa [hsource, hbase] at hstands

/-- No move fails, or leads out of the text or within a character, and an attempt leaves the
pointer where it is exactly if it is refused. -/
theorem perform (h : pointer.StandsIn text base) (move : Cursor.Move) :
    ∃ answer after, pointer.perform move = .ok (answer, after) ∧ after.StandsIn text base ∧
      pointer.position ≤ after.position ∧
      (move.isAttempt = true → (after = pointer ↔ answer.isRefusal = true)) := by
  obtain ⟨cursor, rfl⟩ := h.exists_cursor
  have hprecedes := cursor.precedes_perform move
  refine ⟨_, _, cursor.perform_toPointer move, h.of_precedes hprecedes, hprecedes.position_le,
    fun hattempt => ?_⟩
  rw [hprecedes.toPointer_eq_iff, Cursor.perform_eq_self_iff hattempt]

/-- So it is with any row of moves. -/
theorem run (h : pointer.StandsIn text base) (moves : List Cursor.Move) :
    ∃ after, pointer.run moves = .ok after ∧ after.StandsIn text base ∧
      pointer.position ≤ after.position := by
  induction moves generalizing pointer with
  | nil => exact ⟨pointer, rfl, h, Nat.le_refl _⟩
  | cons move rest ih =>
      obtain ⟨answer, middle, hperform, hmiddle, hle, -⟩ := h.perform move
      obtain ⟨after, hrun, hafter, hle'⟩ := ih hmiddle
      refine ⟨after, ?_, hafter, hle.trans hle'⟩
      rw [Pointer.run, List.foldlM_cons, hperform]
      exact hrun

end StandsIn

/-- In any row of moves no cut fails. Behind it the pointer stands between two characters of its
text, and what lies after it is the text from there on. No further moves lead back, and an attempt
leaves the pointer where it is exactly if it is refused. -/
theorem run_standsIn (text : Text) (base : Nat) (moves : List Cursor.Move) :
    ∃ pointer, (start text base).run moves = .ok pointer ∧ pointer.StandsIn text base ∧
      (∀ more, ∃ further, pointer.run more = .ok further ∧ pointer.position ≤ further.position) ∧
      ∀ move, ∃ answer after, pointer.perform move = .ok (answer, after) ∧
        (move.isAttempt = true → (after = pointer ↔ answer.isRefusal = true)) := by
  obtain ⟨pointer, hrun, hstands, -⟩ := (standsIn_start text base).run moves
  refine ⟨pointer, hrun, hstands, fun more => ?_, fun move => ?_⟩
  · obtain ⟨further, hfurther, -, hle⟩ := hstands.run more
    exact ⟨further, hfurther, hle⟩
  · obtain ⟨answer, after, hperform, -, -, hattempt⟩ := hstands.perform move
    exact ⟨answer, after, hperform, hattempt⟩

/-- Characters of several bytes are gone over as a whole, and a name is no number. -/
theorem run_standsIn_multibyte :
    let text := "\u2003(é \")\")名 < 5".toList
    let moves : List Cursor.Move :=
      [.skipBlanks, .skipChar '(', .takeGroup, .skipToken ")".toList]
    ∃ pointer, (start text 7).run moves = .ok pointer ∧ pointer.StandsIn text 7 ∧
      pointer.position = 18 ∧ pointer.rest = .ok "名 < 5".toList ∧
      Cursor.Move.isAttempt .readNumber = true ∧
      pointer.perform .readNumber = .ok (.number none, pointer) ∧
      Cursor.Move.isAttempt (.skipChar '名') = true ∧
      ∃ after, pointer.perform (.skipChar '名') = .ok (.flag true, after) ∧ after ≠ pointer := by
  intro text moves
  obtain ⟨pointer, hrun, hstands, -, hattempt⟩ := run_standsIn text 7 moves
  obtain rfl : ((Cursor.start text 7).run moves).toPointer = pointer :=
    Except.ok.inj ((Cursor.run_toPointer (Cursor.start text 7) moves).symm.trans hrun)
  have hanswer (move : Cursor.Move) (answer : Cursor.Answer)
      (h : (((Cursor.start text 7).run moves).perform move).1 = answer) :
      ∃ after, ((Cursor.start text 7).run moves).toPointer.perform move = .ok (answer, after) ∧
        (move.isAttempt = true → (after = ((Cursor.start text 7).run moves).toPointer ↔
          answer.isRefusal = true)) := by
    obtain ⟨other, after, hperform, hstays⟩ := hattempt move
    have hsame := Except.ok.inj (hperform.symm.trans (Cursor.perform_toPointer _ move))
    obtain rfl := (Prod.mk.inj hsame).1.trans h
    exact ⟨after, hperform, hstays⟩
  refine ⟨_, hrun, hstands, by decide +kernel, ?_, rfl, ?_, rfl, ?_⟩
  · rw [Cursor.toPointer_rest]
    exact congrArg Except.ok (by decide +kernel)
  · obtain ⟨after, hperform, hstays⟩ := hanswer .readNumber (.number none) (by decide +kernel)
    rwa [(hstays rfl).mpr rfl] at hperform
  · obtain ⟨after, hperform, hstays⟩ := hanswer (.skipChar '名') (.flag true) (by decide +kernel)
    refine ⟨after, hperform, fun hsame => ?_⟩
    cases (hstays rfl).mp hsame

end Pointer

end Criteria
