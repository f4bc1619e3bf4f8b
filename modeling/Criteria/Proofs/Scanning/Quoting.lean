import Criteria.Proofs.Scanning.Literals

/-!
Literals as a grammar. Between its quotes a literal has characters, of which a backslash takes
the next one with it. A text shows what stands outside its literals, if all of them are closed,
and a place is outside them exactly when the text before it shows something.
-/

namespace Criteria

/-- What stands between the quotes of a literal, and the text which the literal denotes. -/
inductive Quoted.Denotes : (body value : Text) → Prop
  | nil : Denotes [] []
  | plain {c : Char} {body value : Text} (hquote : c ≠ '"') (hbackslash : c ≠ '\\')
      (hrest : Denotes body value) : Denotes (c :: body) (c :: value)
  | escape {c : Char} {body value : Text} (hrest : Denotes body value) :
      Denotes ('\\' :: c :: body) (unescape c ++ value)

/-- `seen` is a text without its literals, all of which are closed. -/
inductive Text.Shows : (text seen : Text) → Prop
  | nil : Shows [] []
  | plain {c : Char} {text seen : Text} (hquote : c ≠ '"') (hrest : Shows text seen) :
      Shows (c :: text) (c :: seen)
  | literal {body value text seen : Text} (hbody : Quoted.Denotes body value)
      (hrest : Shows text seen) : Shows ('"' :: (body ++ '"' :: text)) seen

variable {text left body value seen : Text}

namespace Quoted

/-- The reader of literals reads this grammar. -/
theorem decodeBody?_eq_some_iff :
    decodeBody? text = some (value, left) ↔
      ∃ body, text = body ++ '"' :: left ∧ Denotes body value := by
  constructor
  · intro h
    fun_induction decodeBody? text generalizing value with
    | case1 => cases h
    | case2 rest =>
        obtain ⟨rfl, rfl⟩ := Prod.mk.inj (Option.some.inj h)
        exact ⟨[], rfl, .nil⟩
    | case3 c rest ih =>
        obtain ⟨⟨more, tail⟩, hmore, hsame⟩ := Option.map_eq_some_iff.mp h
        obtain ⟨rfl, rfl⟩ := Prod.mk.inj hsame
        obtain ⟨body, rfl, hbody⟩ := ih hmore
        exact ⟨_, rfl, .escape hbody⟩
    | case4 => cases h
    | case5 c rest hquote _ hbackslash ih =>
        obtain ⟨⟨more, tail⟩, hmore, hsame⟩ := Option.map_eq_some_iff.mp h
        obtain ⟨rfl, rfl⟩ := Prod.mk.inj hsame
        obtain ⟨body, rfl, hbody⟩ := ih hmore
        exact ⟨_, rfl, .plain (fun hc => hquote hc) hbackslash hbody⟩
  · rintro ⟨body, rfl, hbody⟩
    induction hbody with
    | nil => rfl
    | @plain c body value hquote hbackslash _ ih =>
        simp [decodeBody?, hbackslash, ih]
    | escape _ ih => simp [decodeBody?, ih]

theorem decode?_eq_some_iff :
    decode? text = some (value, left) ↔
      ∃ body, text = '"' :: (body ++ '"' :: left) ∧ Denotes body value := by
  unfold decode?
  split
  · simp [decodeBody?_eq_some_iff]
  · next hquote =>
    simp only [reduceCtorEq, false_iff]
    rintro ⟨body, rfl, -⟩
    exact hquote _ rfl

theorem Denotes.closing (h : Denotes body value) : Text.Closing (body ++ ['"']) := by
  induction h with
  | nil => exact Text.closing_quote
  | plain hquote hbackslash _ ih => exact ih.cons hquote hbackslash
  | escape _ ih => exact ih.escape _

theorem Denotes.literal (h : Denotes body value) : Text.Literal ('"' :: (body ++ ['"'])) :=
  ⟨_, rfl, h.closing⟩

/-- A text that leads out of a literal starts with the rest of the literal. -/
theorem exists_of_run_inside (h : Quoting.inside.run text = .outside) :
    ∃ body value left, text = body ++ '"' :: left ∧ Denotes body value ∧
      Quoting.outside.run left = .outside := by
  -- Behind a backslash one more character is passed before the literal goes on.
  have hboth : ∀ text : Text,
      (Quoting.inside.run text = .outside → ∃ body value left, text = body ++ '"' :: left ∧
        Denotes body value ∧ Quoting.outside.run left = .outside) ∧
      (Quoting.escaped.run text = .outside → ∃ c body value left,
        text = c :: (body ++ '"' :: left) ∧ Denotes body value ∧
        Quoting.outside.run left = .outside) := by
    intro text
    induction text with
    | nil => exact ⟨nofun, nofun⟩
    | cons c rest ih =>
        constructor
        · intro hrun
          by_cases hquote : c = '"'
          · subst hquote
            exact ⟨[], [], rest, rfl, .nil, hrun⟩
          · by_cases hbackslash : c = '\\'
            · subst hbackslash
              obtain ⟨d, body, value, left, rfl, hbody, hleft⟩ := ih.2 hrun
              exact ⟨_, _, left, rfl, .escape hbody, hleft⟩
            · rw [Quoting.run_cons, Quoting.next, if_neg hquote, if_neg hbackslash] at hrun
              obtain ⟨body, value, left, rfl, hbody, hleft⟩ := ih.1 hrun
              exact ⟨_, _, left, rfl, .plain hquote hbackslash hbody, hleft⟩
        · intro hrun
          obtain ⟨body, value, left, rfl, hbody, hleft⟩ := ih.1 hrun
          exact ⟨c, body, value, left, rfl, hbody, hleft⟩
  exact (hboth text).1 h

end Quoted

namespace Text

theorem Shows.run (h : Shows text seen) : Quoting.outside.run text = .outside := by
  induction h with
  | nil => rfl
  | plain hquote _ ih => rwa [Quoting.run_cons, Quoting.next, if_neg hquote]
  | literal hbody _ ih =>
      have hliteral := hbody.literal.run
      rw [List.append_cons, ← List.cons_append, Quoting.run_append, hliteral, ih]

/-- The place behind the text is outside literals: all that start before it are closed. -/
def EndsOutside (text : Text) : Prop :=
  ∃ seen, Shows text seen

theorem endsOutside_iff : EndsOutside text ↔ Quoting.outside.run text = .outside := by
  constructor
  · rintro ⟨seen, h⟩
    exact h.run
  · intro h
    induction hlength : text.length using Nat.strong_induction_on generalizing text with
    | _ n ih =>
        subst hlength
        cases text with
        | nil => exact ⟨[], .nil⟩
        | cons c rest =>
            by_cases hquote : c = '"'
            · subst hquote
              obtain ⟨body, value, left, rfl, hbody, hleft⟩ := Quoted.exists_of_run_inside h
              obtain ⟨seen, hseen⟩ := ih left.length (by simp; omega) hleft rfl
              exact ⟨seen, .literal hbody hseen⟩
            · rw [Quoting.run_cons, Quoting.next, if_neg hquote] at h
              obtain ⟨seen, hseen⟩ := ih rest.length (by simp) h rfl
              exact ⟨c :: seen, .plain hquote hseen⟩

instance (text : Text) : Decidable (EndsOutside text) :=
  decidable_of_iff _ endsOutside_iff.symm

end Text

end Criteria
