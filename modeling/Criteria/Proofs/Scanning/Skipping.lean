import Criteria.Cursor.Move
import Criteria.Proofs.Scanning.Cursor
import Criteria.Proofs.Scanning.Quoting

/-!
Two ways over a literal. The searches for tokens and for the end of a group keep count only of
where they stand relative to quotes, and are over a literal when they stand outside again. The
reader of literals goes by its characters and escapes. Both leave a literal at the same place, and
where the reader finds no end the searches run to the end of the text.
-/

namespace Criteria

variable {text taken left value body : Text} {candidates : List Text} {cursor after : Cursor}

/-- What is left of a text from the first place on which is outside quotes. -/
def Quoting.leave : Quoting → Text → Text
  | .outside, text => text
  | _, [] => []
  | quoting, c :: rest => (quoting.next c).leave rest

/-- Goes over the literal at the cursor in the way of the searches. -/
def Cursor.skipQuoted (cursor : Cursor) : Cursor :=
  cursor.moveTo (Quoting.inside.leave (cursor.rest.drop 1))

/-- No place that is gone over is outside quotes. If none is reached, the text is used up. -/
theorem Quoting.exists_append_leave (quoting : Quoting) (text : Text) :
    ∃ taken, text = taken ++ quoting.leave text ∧
      Lexeme.Avoids (fun _ => True) quoting taken ∧
      (quoting.run taken = .outside ∨ quoting.leave text = []) := by
  fun_induction leave quoting text with
  | case1 text => exact ⟨[], rfl, trivial, .inl rfl⟩
  | case2 => exact ⟨[], rfl, trivial, .inr rfl⟩
  | case3 quoting c rest hinside ih =>
      obtain ⟨taken, hwhole, havoids, hend⟩ := ih
      exact ⟨c :: taken, congrArg (c :: ·) hwhole, ⟨fun hplace => (hinside hplace).elim, havoids⟩,
        hend⟩

namespace Quoted

/-- The reader keeps in step: an escape which it decodes as one leads from inside quotes to
inside quotes again. -/
theorem leave_of_decodeBody? (h : decodeBody? text = some (value, left)) :
    Quoting.inside.leave text = left := by
  fun_induction decodeBody? text generalizing value with
  | case1 => cases h
  | case2 rest =>
      obtain ⟨-, rfl⟩ := Prod.mk.inj (Option.some.inj h)
      simp [Quoting.leave, Quoting.next]
  | case3 c rest ih =>
      obtain ⟨⟨more, tail⟩, hmore, hsame⟩ := Option.map_eq_some_iff.mp h
      obtain ⟨-, rfl⟩ := Prod.mk.inj hsame
      simpa [Quoting.leave, Quoting.next] using ih hmore
  | case4 => cases h
  | case5 c rest hquote _ hbackslash ih =>
      obtain ⟨⟨more, tail⟩, hmore, hsame⟩ := Option.map_eq_some_iff.mp h
      obtain ⟨-, rfl⟩ := Prod.mk.inj hsame
      have hnext : Quoting.inside.next c = .inside := by
        rw [Quoting.next, if_neg fun hc => hquote hc, if_neg hbackslash]
      rw [Quoting.leave, hnext]
      · exact ih hmore
      · exact fun hplace => absurd hplace (by decide)

/-- A text which leads out of quotes is read. -/
theorem exists_decodeBody?_of_run (h : Quoting.inside.run taken = .outside) (left : Text) :
    ∃ found, decodeBody? (taken ++ left) = some found := by
  obtain ⟨body, value, rest, rfl, hbody, -⟩ := exists_of_run_inside h
  exact ⟨(value, rest ++ left), decodeBody?_eq_some_iff.mpr ⟨body, by simp, hbody⟩⟩

end Quoted

namespace Lexeme

/-- No candidate is seen in a literal, not even one which starts with a quote. -/
theorem clear_literal (h : Avoids (fun _ => True) .inside body) (following : Text) :
    Clear candidates .outside ('"' :: body) following :=
  ⟨by simp [visibleToken?], h.clear (fun _ _ _ _ => trivial) following⟩

theorem nesting_literal (h : Avoids (fun _ => True) .inside body) (depth : Nat) :
    nesting depth .outside ('"' :: body) = some depth := by
  apply nesting_of_avoids
  exact ⟨fun _ => by decide, h.imp fun _ _ => trivial⟩

end Lexeme

namespace Cursor

/-- The searches go over a quote and `body`, and then are outside quotes or at the end. -/
structure Skips (cursor : Cursor) (body : Text) : Prop where
  takes : cursor.Takes ('"' :: body) cursor.skipQuoted
  hidden : Lexeme.Avoids (fun _ => True) .inside body
  ends : Quoting.inside.run body = .outside ∨ cursor.skipQuoted.rest = []

theorem exists_skips (hquote : cursor.peek? = some '"') : ∃ body, cursor.Skips body := by
  obtain ⟨text, hrest⟩ := List.head?_eq_some_iff.mp hquote
  obtain ⟨body, hwhole, hhidden, hends⟩ := Quoting.inside.exists_append_leave text
  have hskip : cursor.skipQuoted = cursor.moveTo (Quoting.inside.leave text) := by
    rw [skipQuoted, hrest, List.drop_one, List.tail_cons]
  refine ⟨body, ?_, hhidden, hskip ▸ hends⟩
  rw [hskip]
  apply takes_moveTo
  rw [hrest, List.cons_append, ← hwhole]

theorem Skips.moveTo (h : cursor.Skips body) (hleft : left <:+ cursor.skipQuoted.rest) :
    cursor.skipQuoted.moveTo left = cursor.moveTo left := by
  have hbehind : cursor.skipQuoted.rest <:+ cursor.rest := ⟨_, h.takes.rest_eq.symm⟩
  exact moveTo_moveTo hbehind hleft

theorem Skips.splitAtToken (h : cursor.Skips body) (tokens : List Text) :
    Lexeme.splitAtToken tokens cursor.rest =
      ('"' :: body ++ (Lexeme.splitAtToken tokens cursor.skipQuoted.rest).1,
        (Lexeme.splitAtToken tokens cursor.skipQuoted.rest).2) := by
  have hclear : Lexeme.Clear tokens .outside ('"' :: body) cursor.skipQuoted.rest :=
    Lexeme.clear_literal h.hidden _
  rw [h.takes.rest_eq]
  rcases h.ends with hclosed | hnil
  · exact Lexeme.splitAtToken_append_of_clear hclear hclosed
  · rw [hnil] at hclear ⊢
    rw [List.append_nil, Lexeme.splitAtToken_of_clear hclear,
      Lexeme.splitAtToken_of_clear Lexeme.clear_nil, List.append_nil]

/-- A search for tokens goes over the literal and starts again behind it. -/
theorem Skips.takeUntil (h : cursor.Skips body) (tokens : List Text) :
    cursor.takeUntil tokens = ('"' :: body ++ (cursor.skipQuoted.takeUntil tokens).1,
      (cursor.skipQuoted.takeUntil tokens).2) := by
  obtain ⟨taken, -, hwhole⟩ := Lexeme.exists_append_splitAtToken tokens cursor.skipQuoted.rest
  have hmove := h.moveTo ⟨taken, hwhole.symm⟩
  simp only [Cursor.takeUntil, h.splitAtToken tokens, hmove]

/-- So does a search for the end of a group, however many groups are open. -/
theorem Skips.splitBeforeClose? (h : cursor.Skips body) (depth : Nat) :
    Lexeme.splitBeforeClose? depth .outside cursor.rest =
      (Lexeme.splitBeforeClose? depth .outside cursor.skipQuoted.rest).map
        fun (before, left) => ('"' :: body ++ before, left) := by
  rw [h.takes.rest_eq, Lexeme.splitBeforeClose?_of_nesting (Lexeme.nesting_literal h.hidden depth)]
  rcases h.ends with hclosed | hnil
  · rw [Quoting.run_cons, show Quoting.outside.next '"' = .inside from rfl, hclosed]
  · rw [hnil]
    rfl

/-- The reader gives the text of a literal and goes where the searches go. -/
theorem exists_of_readQuoted? (h : cursor.readQuoted? = some (value, after)) :
    after = cursor.skipQuoted ∧
      ∃ body, cursor.rest = '"' :: (body ++ '"' :: after.rest) ∧ Quoted.Denotes body value := by
  obtain ⟨⟨value', left⟩, hdecode, hsame⟩ := Option.map_eq_some_iff.mp h
  obtain ⟨rfl, rfl⟩ := Prod.mk.inj hsame
  obtain ⟨body, hrest, hbody⟩ := Quoted.decode?_eq_some_iff.mp hdecode
  have hleave : Quoting.inside.leave (body ++ '"' :: left) = left :=
    Quoted.leave_of_decodeBody? (Quoted.decodeBody?_eq_some_iff.mpr ⟨body, rfl, hbody⟩)
  refine ⟨?_, body, hrest, hbody⟩
  rw [skipQuoted, hrest, List.drop_one, List.tail_cons, hleave]

theorem Skips.readQuoted?_iff (h : cursor.Skips body) :
    (∃ value after, cursor.readQuoted? = some (value, after)) ↔ Text.Literal ('"' :: body) := by
  constructor
  · rintro ⟨value, after, hread⟩
    obtain ⟨rfl, inner, hrest, hinner⟩ := exists_of_readQuoted? hread
    have hsame : '"' :: body = '"' :: (inner ++ ['"']) := by
      refine List.append_cancel_right (h.takes.rest_eq.symm.trans ?_)
      rw [hrest]
      simp
    exact hsame ▸ hinner.literal
  · intro hliteral
    obtain ⟨⟨value, left⟩, hdecode⟩ :=
      Quoted.exists_decodeBody?_of_run hliteral.run cursor.skipQuoted.rest
    refine ⟨value, cursor.moveTo left, ?_⟩
    rw [readQuoted?, h.takes.rest_eq, List.cons_append, Quoted.decode?, hdecode, Option.map_some]

theorem Skips.rest_eq_nil (h : cursor.Skips body) (hread : cursor.readQuoted? = none) :
    cursor.skipQuoted.rest = [] := by
  refine h.ends.resolve_left fun hclosed => ?_
  obtain ⟨value, after, hsome⟩ := h.readQuoted?_iff.mpr ⟨body, rfl, h.hidden, hclosed⟩
  rw [hread] at hsome
  cases hsome

/-- On a quote all searches go over the same text, from the quote up to the one that closes it or
else up to the end. The reader of literals reads a literal exactly if that text is one, and then
goes to the same place. If it is none the reader does not move. -/
theorem readQuoted?_skipQuoted (cursor : Cursor) (hquote : cursor.peek? = some '"') :
    ∃ skipped, cursor.Takes skipped cursor.skipQuoted ∧
      (∀ tokens, cursor.takeUntil tokens =
        (skipped ++ (cursor.skipQuoted.takeUntil tokens).1,
          (cursor.skipQuoted.takeUntil tokens).2)) ∧
      (∀ depth, Lexeme.splitBeforeClose? depth .outside cursor.rest =
        (Lexeme.splitBeforeClose? depth .outside cursor.skipQuoted.rest).map
          fun (before, left) => (skipped ++ before, left)) ∧
      ((∃ value after, cursor.readQuoted? = some (value, after)) ↔ Text.Literal skipped) ∧
      (∀ value after, cursor.readQuoted? = some (value, after) →
        after = cursor.skipQuoted ∧
          cursor.perform .readQuoted = (.text (some value), cursor.skipQuoted)) ∧
      (cursor.readQuoted? = none →
        cursor.skipQuoted.rest = [] ∧ cursor.perform .readQuoted = (.text none, cursor)) := by
  obtain ⟨body, hskips⟩ := exists_skips hquote
  refine ⟨'"' :: body, hskips.takes, hskips.takeUntil, hskips.splitBeforeClose?,
    hskips.readQuoted?_iff, ?_, ?_⟩
  · intro value after hread
    obtain ⟨rfl, -⟩ := exists_of_readQuoted? hread
    exact ⟨rfl, by rw [perform, hread]; rfl⟩
  · intro hread
    exact ⟨hskips.rest_eq_nil hread, by rw [perform, hread]; rfl⟩

/-- An escaped quote closes no literal for either of them, and an escaped backslash escapes none. -/
theorem readQuoted?_skipQuoted_escapes :
    let closed := start "\"é\\\"&&)\\\\\" && y".toList 3
    let unclosed := start "\"é && x\\\"".toList 3
    closed.peek? = some '"' ∧ closed.skipQuoted.rest = " && y".toList ∧
      closed.perform .readQuoted = (.text (some "é\"&&)\\".toList), closed.skipQuoted) ∧
      unclosed.peek? = some '"' ∧ unclosed.skipQuoted.rest = [] ∧
      unclosed.perform .readQuoted = (.text none, unclosed) := by
  intro closed unclosed
  obtain ⟨-, -, -, -, -, hread, -⟩ := readQuoted?_skipQuoted closed rfl
  obtain ⟨-, -, -, -, -, -, hnone⟩ := readQuoted?_skipQuoted unclosed rfl
  have hdecoded : closed.readQuoted? =
      some ("é\"&&)\\".toList, closed.moveTo " && y".toList) := by
    decide +kernel
  obtain ⟨hsame, hperform⟩ := hread _ _ hdecoded
  obtain ⟨hend, hstays⟩ := hnone (by decide +kernel)
  exact ⟨rfl, by rw [← hsame]; rfl, hperform, rfl, hend, hstays⟩

end Cursor

end Criteria
