import Criteria.Proofs.Scanning.Nesting

/-!
Texts of which certain characters cannot be seen. Parentheses, comparators and
connectives all start with a mark, so a text without marks outside its quotes, all of
them closed, can stand anywhere in a script without changing what is around it.
-/

namespace Criteria

namespace Text

/-- The characters of parentheses, comparators and connectives. -/
def marks : List Char :=
  ['&', '|', '(', ')', '<', '>', '=', '!']

/-- The characters of parentheses and connectives. -/
def joints : List Char :=
  ['&', '|', '(', ')']

/-- None of the characters can be seen in the text, and what follows it is outside
quotes. -/
structure Hides (characters : List Char) (text : Text) : Prop where
  avoids : Lexeme.Avoids (· ∈ characters) .outside text
  closed : Quoting.outside.run text = .outside

/-- No mark can be seen in the text. -/
abbrev Sealed (text : Text) : Prop :=
  Hides marks text

/-- What is taken off the start of a text is sealed. -/
def SealedUpTo (left text : Text) : Prop :=
  ∃ taken, Sealed taken ∧ text = taken ++ left

/-- The rest of a literal, from behind its opening quote to its closing one. -/
structure Closing (text : Text) : Prop where
  hidden : Lexeme.Avoids (fun _ => True) .inside text
  closed : Quoting.inside.run text = .outside

section

variable {characters : List Char} {text left middle taken : Text} {c : Char}

@[simp] theorem hides_nil : Hides characters [] :=
  ⟨trivial, rfl⟩

theorem Hides.append {a b : Text} (ha : Hides characters a) (hb : Hides characters b) :
    Hides characters (a ++ b) := by
  refine ⟨Lexeme.avoids_append_iff.mpr ⟨ha.avoids, ?_⟩, ?_⟩
  · rw [ha.closed]
    exact hb.avoids
  · rw [Quoting.run_append, ha.closed, hb.closed]

theorem Hides.mono {fewer : List Char} (h : Hides characters text) (hsub : fewer ⊆ characters) :
    Hides fewer text :=
  ⟨h.avoids.imp fun _ hmem => hsub hmem, h.closed⟩

theorem hides_of_forall (h : ∀ c ∈ text, c ∉ '"' :: characters) : Hides characters text := by
  constructor
  · exact Lexeme.avoids_of_forall fun c hc hmem => h c hc (List.mem_cons_of_mem _ hmem)
  · apply Lexeme.run_of_forall_ne_quote
    intro c hc
    rintro rfl
    exact h _ hc List.mem_cons_self

theorem sealed_of_blank (h : Blank text) : Sealed text := by
  apply hides_of_forall
  intro c hc hmark
  have hplain : ∀ mark ∈ '"' :: marks, isBlank mark = false := by
    simp [marks, isBlank]
  have hblank := h c hc
  rw [hplain c hmark] at hblank
  cases hblank

theorem Sealed.hides_joints (h : Sealed text) : Hides joints text :=
  h.mono (by decide)

theorem Hides.balanced (h : Hides joints text) : Lexeme.Balanced text := by
  refine Lexeme.balanced_of_avoids (h.avoids.imp ?_) h.closed
  rintro c (rfl | rfl) <;> decide

theorem Closing.escape (h : Closing text) (c : Char) : Closing ('\\' :: c :: text) :=
  ⟨⟨by simp, by simp [Quoting.next], h.hidden⟩, h.closed⟩

theorem Closing.cons (h : Closing text) (hquote : c ≠ '"') (hescape : c ≠ '\\') :
    Closing (c :: text) := by
  have hnext : Quoting.inside.next c = .inside := by simp [Quoting.next, hquote, hescape]
  constructor
  · refine ⟨by simp, ?_⟩
    rw [hnext]
    exact h.hidden
  · rw [Quoting.run_cons, hnext]
    exact h.closed

theorem closing_quote : Closing ['"'] :=
  ⟨⟨by simp, trivial⟩, rfl⟩

theorem Closing.sealed (h : Closing text) : Sealed ('"' :: text) := by
  constructor
  · exact ⟨fun _ => by decide, h.hidden.imp fun _ _ => trivial⟩
  · exact h.closed

@[simp] theorem sealedUpTo_refl (text : Text) : SealedUpTo text text :=
  ⟨[], hides_nil, rfl⟩

theorem SealedUpTo.trans (hleft : SealedUpTo left middle) (htext : SealedUpTo middle text) :
    SealedUpTo left text := by
  obtain ⟨a, ha, rfl⟩ := htext
  obtain ⟨b, hb, rfl⟩ := hleft
  exact ⟨a ++ b, ha.append hb, by rw [List.append_assoc]⟩

theorem SealedUpTo.cons (h : SealedUpTo left text) (hplain : c ∉ '"' :: marks) :
    SealedUpTo left (c :: text) := by
  refine h.trans ⟨[c], hides_of_forall ?_, rfl⟩
  intro d hd
  obtain rfl := List.mem_singleton.mp hd
  exact hplain

theorem sealedUpTo_nil_iff : SealedUpTo [] text ↔ Sealed text := by
  constructor
  · rintro ⟨taken, htaken, rfl⟩
    rwa [List.append_nil]
  · intro h
    exact ⟨text, h, (List.append_nil text).symm⟩

/-- A run of characters of a class without marks is sealed. -/
theorem sealedUpTo_dropWhile {p : Char → Bool} (hp : ∀ mark ∈ '"' :: marks, p mark = false)
    (text : Text) : SealedUpTo (text.dropWhile p) text := by
  refine ⟨text.takeWhile p, hides_of_forall fun c hc hmark => ?_,
    List.takeWhile_append_dropWhile.symm⟩
  have hin := List.mem_takeWhile_imp hc
  rw [hp c hmark] at hin
  cases hin

end

end Text

end Criteria
