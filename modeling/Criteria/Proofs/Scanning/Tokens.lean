import Criteria.Lexeme
import Criteria.Operation
import Criteria.Proofs.Text.Trimming

/-!
Which tokens are seen. A text is split at the first place outside quotes where a
candidate starts. Whether one starts near the end of a text depends on what follows
it, so the absence of tokens is stated of a text together with what follows.
-/

namespace Criteria.Lexeme

variable {candidates : List Text} {quoting : Quoting} {text before following left : Text}

theorem startsWith_eq_true_iff {token : Text} :
    startsWith token text = true ↔ token ≠ [] ∧ token <+: text := by
  simp [startsWith]

theorem startsWith_append {token : Text} (h : startsWith token text = true) (more : Text) :
    startsWith token (text ++ more) = true := by
  rw [startsWith_eq_true_iff] at h ⊢
  exact ⟨h.1, h.2.trans (List.prefix_append text more)⟩

theorem tokenAt?_eq_none_iff :
    tokenAt? candidates text = none ↔
      ∀ token ∈ candidates, startsWith token text = false := by
  simp [tokenAt?]

theorem tokenAt?_eq_some {token : Text} (h : tokenAt? candidates text = some token) :
    token ∈ candidates ∧ token ≠ [] ∧ token <+: text := by
  unfold tokenAt? at h
  have hstart := List.find?_some h
  exact ⟨List.mem_of_find?_eq_some h, startsWith_eq_true_iff.mp hstart⟩

theorem visibleToken?_eq_none_iff :
    visibleToken? candidates quoting text = none ↔
      (quoting = .outside → text.head? ≠ some '"' →
        ∀ token ∈ candidates, startsWith token text = false) := by
  unfold visibleToken?
  split
  · next hplace => simp [tokenAt?_eq_none_iff, hplace.1, hplace.2]
  · next hplace => grind

theorem visibleToken?_eq_some {token : Text}
    (h : visibleToken? candidates quoting text = some token) :
    quoting = .outside ∧ token ∈ candidates ∧ token ≠ [] ∧ token <+: text := by
  unfold visibleToken? at h
  split at h
  · next hplace => exact ⟨hplace.1, tokenAt?_eq_some h⟩
  · simp at h

theorem visibleToken?_eq_none_of_append {more : Text} (hne : text ≠ [])
    (h : visibleToken? candidates quoting (text ++ more) = none) :
    visibleToken? candidates quoting text = none := by
  rw [visibleToken?_eq_none_iff] at h ⊢
  intro hplace hquote token hmem
  have hhead : (text ++ more).head? = text.head? := List.head?_append_of_ne_nil text hne
  have hnot := h hplace (hhead ▸ hquote) token hmem
  by_contra hstart
  rw [Bool.not_eq_false] at hstart
  simp [startsWith_append hstart more] at hnot

/-- No candidate starts outside quotes in a text which `following` comes after. -/
def Clear (candidates : List Text) : Quoting → (text following : Text) → Prop
  | _, [], _ => True
  | quoting, c :: rest, following =>
      visibleToken? candidates quoting (c :: (rest ++ following)) = none ∧
        Clear candidates (quoting.next c) rest following

instance decidableClear (candidates : List Text) :
    (quoting : Quoting) → (text following : Text) →
      Decidable (Clear candidates quoting text following)
  | _, [], _ => isTrue trivial
  | quoting, c :: rest, following =>
      have := decidableClear candidates (quoting.next c) rest following
      inferInstanceAs (Decidable (_ ∧ _))

@[simp] theorem clear_nil : Clear candidates quoting [] following := trivial

theorem clear_append_iff {a b : Text} :
    Clear candidates quoting (a ++ b) following ↔
      Clear candidates quoting a (b ++ following) ∧
        Clear candidates (quoting.run a) b following := by
  induction a generalizing quoting with
  | nil => simp
  | cons c rest ih =>
      simp only [List.cons_append, Clear, ih, Quoting.run_cons, List.append_assoc, and_assoc]

theorem Clear.alone (h : Clear candidates quoting text following) :
    Clear candidates quoting text [] := by
  induction text generalizing quoting with
  | nil => trivial
  | cons c rest ih =>
      refine ⟨?_, ih h.2⟩
      rw [List.append_nil]
      exact visibleToken?_eq_none_of_append (List.cons_ne_nil c rest) h.1

/-- A prefix of a text with a mark in it ends before the mark, unless it has the mark
itself. -/
theorem prefix_of_not_mem {token a b : Text} {mark : Char} (hmark : mark ∉ token)
    (h : token <+: a ++ mark :: b) : token <+: a := by
  rcases List.prefix_or_prefix_of_prefix h (List.prefix_append a (mark :: b)) with hle | hge
  · exact hle
  · obtain ⟨more, rfl⟩ := hge
    rw [List.prefix_append_right_inj] at h
    cases more with
    | nil => simp
    | cons c more =>
        obtain ⟨rfl, -⟩ := List.cons_prefix_cons.mp h
        simp at hmark

/-! What follows a character that is in no candidate has no part in the search -/

section

variable {mark : Char}

theorem startsWith_append_mark {token : Text} (hmark : mark ∉ token) (following : Text) :
    startsWith token (text ++ mark :: following) = startsWith token text := by
  rw [Bool.eq_iff_iff, startsWith_eq_true_iff, startsWith_eq_true_iff]
  apply and_congr_right
  intro hne
  exact ⟨prefix_of_not_mem hmark, fun h => h.trans (List.prefix_append _ _)⟩

theorem tokenAt?_append_mark (hmark : ∀ token ∈ candidates, mark ∉ token) (following : Text) :
    tokenAt? candidates (text ++ mark :: following) = tokenAt? candidates text := by
  unfold tokenAt?
  induction candidates with
  | nil => rfl
  | cons token others ih =>
      obtain ⟨hfirst, hothers⟩ := List.forall_mem_cons.mp hmark
      rw [List.find?_cons, List.find?_cons, startsWith_append_mark hfirst, ih hothers]

theorem visibleToken?_append_mark (hmark : ∀ token ∈ candidates, mark ∉ token) (hne : text ≠ [])
    (following : Text) :
    visibleToken? candidates quoting (text ++ mark :: following) =
      visibleToken? candidates quoting text := by
  rw [visibleToken?, visibleToken?, List.head?_append_of_ne_nil text hne,
    tokenAt?_append_mark hmark]

theorem Clear.append_mark (hmark : ∀ token ∈ candidates, mark ∉ token)
    (h : Clear candidates quoting text left) (following : Text) :
    Clear candidates quoting text (left ++ mark :: following) := by
  induction text generalizing quoting with
  | nil => trivial
  | cons c rest ih =>
      refine ⟨?_, ih h.2⟩
      rw [← List.append_assoc, ← List.cons_append,
        visibleToken?_append_mark hmark (List.cons_ne_nil c _), h.1]

/-- Such a character separates a text from what follows it. -/
theorem Clear.separated (hmark : ∀ token ∈ candidates, mark ∉ token)
    (h : Clear candidates quoting text []) (following : Text) :
    Clear candidates quoting text (mark :: following) :=
  h.append_mark hmark following

end

/-- Whether a candidate of at most two characters starts in a text depends on no more
than the first character of what follows. -/
theorem Clear.of_short {c : Char} (hshort : ∀ token ∈ candidates, token.length ≤ 2)
    (h : Clear candidates quoting text (c :: following)) (other : Text) :
    Clear candidates quoting text (c :: other) := by
  induction text generalizing quoting with
  | nil => trivial
  | cons d rest ih =>
      refine ⟨?_, ih h.2⟩
      have hnone := h.1
      have hsame : (d :: (rest ++ c :: other)).take 2 = (d :: (rest ++ c :: following)).take 2 := by
        cases rest <;> rfl
      rw [visibleToken?_eq_none_iff] at hnone ⊢
      intro hplace hquote token hmem
      have hnot := hnone hplace hquote token hmem
      by_contra hstart
      rw [Bool.not_eq_false, startsWith_eq_true_iff] at hstart
      have hprefix : token <+: (d :: (rest ++ c :: other)).take 2 :=
        List.prefix_take_iff.mpr ⟨hstart.2, hshort token hmem⟩
      rw [hsame] at hprefix
      rw [startsWith_eq_true_iff.mpr ⟨hstart.1, hprefix.trans (List.take_prefix 2 _)⟩] at hnot
      cases hnot

/-! What is found without tokens, and where a token is found -/

theorem splitBeforeToken_of_clear (h : Clear candidates quoting text following) :
    splitBeforeToken candidates quoting (text ++ following) =
      (text ++ (splitBeforeToken candidates (quoting.run text) following).1,
        (splitBeforeToken candidates (quoting.run text) following).2) := by
  induction text generalizing quoting with
  | nil => rfl
  | cons c rest ih =>
      rw [List.cons_append, splitBeforeToken, h.1, ih h.2]
      rfl

theorem splitBeforeToken_eq {token : Option Text}
    (h : splitBeforeToken candidates quoting text = (before, token, left)) :
    text = before ++ left ∧ Clear candidates quoting before left ∧
      (token = none → left = []) ∧
      ∀ found, token = some found →
        visibleToken? candidates (quoting.run before) left = some found := by
  induction text generalizing quoting before with
  | nil =>
      obtain ⟨rfl, rfl, rfl⟩ : [] = before ∧ none = token ∧ [] = left := by
        simpa [splitBeforeToken] using h
      simp
  | cons c rest ih =>
      rw [splitBeforeToken] at h
      split at h
      · next found hfound =>
        obtain ⟨rfl, rfl, rfl⟩ : [] = before ∧ some found = token ∧ c :: rest = left := by
          simpa using h
        refine ⟨rfl, trivial, by simp, ?_⟩
        rintro _ ⟨⟩
        exact hfound
      · next hnone =>
        cases hrest : splitBeforeToken candidates (quoting.next c) rest with
        | mk before' others =>
            obtain ⟨token', left'⟩ := others
            rw [hrest] at h
            obtain ⟨rfl, rfl, rfl⟩ : c :: before' = before ∧ token' = token ∧ left' = left := by
              simpa using h
            obtain ⟨hsplit, hclear, hend⟩ := ih hrest
            exact ⟨by rw [hsplit]; rfl, ⟨by rw [← hsplit]; exact hnone, hclear⟩, hend⟩

/-- A text without tokens which closes its quotes is passed over. -/
theorem splitAtToken_append_of_clear (h : Clear candidates .outside text following)
    (hclosed : Quoting.outside.run text = .outside) :
    splitAtToken candidates (text ++ following) =
      (text ++ (splitAtToken candidates following).1, (splitAtToken candidates following).2) := by
  rw [splitAtToken, splitAtToken, splitBeforeToken_of_clear h, hclosed]
  rcases splitBeforeToken candidates .outside following with ⟨before, _ | token, left⟩
  · rfl
  · rfl

theorem splitAtToken_of_clear (h : Clear candidates .outside text []) :
    splitAtToken candidates text = (text, none, []) := by
  have hsplit := splitBeforeToken_of_clear h
  rw [List.append_nil] at hsplit
  simp [splitAtToken, hsplit, splitBeforeToken]

theorem splitAtToken_of_token {token : Text} (h : Clear candidates .outside before (token ++ left))
    (hat : visibleToken? candidates (Quoting.outside.run before) (token ++ left) = some token) :
    splitAtToken candidates (before ++ (token ++ left)) = (before, some token, left) := by
  obtain ⟨-, -, hne, -⟩ := visibleToken?_eq_some hat
  obtain ⟨c, rest, rfl⟩ := List.exists_cons_of_ne_nil hne
  have hhere : splitBeforeToken candidates (Quoting.outside.run before) (c :: rest ++ left) =
      ([], some (c :: rest), c :: rest ++ left) := by
    rw [List.cons_append, splitBeforeToken, ← List.cons_append, hat]
  rw [splitAtToken, splitBeforeToken_of_clear h, hhere]
  simp

theorem splitAtToken_eq_none (h : splitAtToken candidates text = (before, none, left)) :
    before = text ∧ left = [] ∧ Clear candidates .outside text [] := by
  unfold splitAtToken at h
  split at h
  · next before' left' hsplit =>
    obtain ⟨rfl, rfl⟩ : before' = before ∧ left' = left := by simpa using h
    obtain ⟨hwhole, hclear, hend, -⟩ := splitBeforeToken_eq hsplit
    obtain rfl := hend rfl
    rw [List.append_nil] at hwhole
    exact ⟨hwhole.symm, rfl, hwhole ▸ hclear⟩
  · simp at h

theorem splitAtToken_eq_some {token : Text}
    (h : splitAtToken candidates text = (before, some token, left)) :
    text = before ++ (token ++ left) ∧ Clear candidates .outside before (token ++ left) ∧
      visibleToken? candidates (Quoting.outside.run before) (token ++ left) = some token := by
  unfold splitAtToken at h
  split at h
  · simp at h
  · next before' token' rest hsplit =>
    obtain ⟨rfl, rfl, rfl⟩ :
        before' = before ∧ token' = token ∧ rest.drop token'.length = left := by
      simpa using h
    obtain ⟨hwhole, hclear, -, hfound⟩ := splitBeforeToken_eq hsplit
    have hat := hfound token' rfl
    obtain ⟨-, -, -, more, rfl⟩ := visibleToken?_eq_some hat
    rw [List.drop_left]
    exact ⟨hwhole, hclear, hat⟩

theorem exists_append_splitAtToken (candidates : List Text) (text : Text) :
    ∃ taken, (splitAtToken candidates text).1 <+: taken ∧
      text = taken ++ (splitAtToken candidates text).2.2 := by
  rcases hsplit : splitAtToken candidates text with ⟨before, _ | token, left⟩
  · obtain ⟨rfl, rfl, -⟩ := splitAtToken_eq_none hsplit
    exact ⟨before, List.prefix_refl before, (List.append_nil before).symm⟩
  · obtain ⟨rfl, -, -⟩ := splitAtToken_eq_some hsplit
    exact ⟨before ++ token, List.prefix_append .., (List.append_assoc ..).symm⟩

/-- A token which is found in a text is found whatever stands behind the mark. -/
theorem splitAtToken_append_mark {token : Text} {mark : Char}
    (hmark : ∀ token ∈ candidates, mark ∉ token)
    (h : splitAtToken candidates text = (before, some token, left)) (following : Text) :
    splitAtToken candidates (text ++ mark :: following) =
      (before, some token, left ++ mark :: following) := by
  obtain ⟨rfl, hclear, hvisible⟩ := splitAtToken_eq_some h
  obtain ⟨-, -, hne, -⟩ := visibleToken?_eq_some hvisible
  rw [← visibleToken?_append_mark hmark (by simp [hne]) following] at hvisible
  rw [List.append_assoc, List.append_assoc]
  apply splitAtToken_of_token
  · simpa using hclear.append_mark hmark following
  · simpa using hvisible

/-! Characters that stand outside quotes -/

/-- No character with the property `bad` stands outside quotes. -/
def Avoids (bad : Char → Prop) : Quoting → Text → Prop
  | _, [] => True
  | quoting, c :: rest => (quoting = .outside → ¬bad c) ∧ Avoids bad (quoting.next c) rest

variable {bad worse : Char → Prop}

instance decidableAvoids [DecidablePred bad] :
    (quoting : Quoting) → (text : Text) → Decidable (Avoids bad quoting text)
  | _, [] => isTrue trivial
  | quoting, c :: rest =>
      have := decidableAvoids (quoting.next c) rest
      inferInstanceAs (Decidable (_ ∧ _))

@[simp] theorem avoids_nil : Avoids bad quoting [] := trivial

@[simp] theorem avoids_append_iff {a b : Text} :
    Avoids bad quoting (a ++ b) ↔ Avoids bad quoting a ∧ Avoids bad (quoting.run a) b := by
  induction a generalizing quoting with
  | nil => simp
  | cons c rest ih => simp only [List.cons_append, Avoids, ih, Quoting.run_cons, and_assoc]

theorem Avoids.imp (hle : ∀ c, worse c → bad c) (h : Avoids bad quoting text) :
    Avoids worse quoting text := by
  induction text generalizing quoting with
  | nil => trivial
  | cons c rest ih => exact ⟨fun hplace hworse => h.1 hplace (hle c hworse), ih h.2⟩

theorem avoids_or_iff :
    Avoids (fun c => bad c ∨ worse c) quoting text ↔
      Avoids bad quoting text ∧ Avoids worse quoting text := by
  constructor
  · intro h
    exact ⟨h.imp fun _ => .inl, h.imp fun _ => .inr⟩
  · rintro ⟨hbad, hworse⟩
    induction text generalizing quoting with
    | nil => trivial
    | cons c rest ih =>
        refine ⟨fun hplace => not_or.mpr ⟨hbad.1 hplace, hworse.1 hplace⟩, ?_⟩
        exact ih hbad.2 hworse.2

theorem avoids_of_forall (h : ∀ c ∈ text, ¬bad c) : Avoids bad quoting text := by
  induction text generalizing quoting with
  | nil => trivial
  | cons c rest ih =>
      exact ⟨fun _ => h c (by simp), ih fun d hd => h d (by simp [hd])⟩

/-- Without quotes a text stays outside them. -/
theorem run_of_forall_ne_quote (h : ∀ c ∈ text, c ≠ '"') :
    Quoting.outside.run text = .outside := by
  induction text with
  | nil => rfl
  | cons c rest ih =>
      rw [Quoting.run_cons, Quoting.next, if_neg (h c (by simp))]
      exact ih fun d hd => h d (by simp [hd])

/-- Blanks close no quotes. -/
theorem run_of_blank_eq_outside {blanks : Text} (hblank : blanks.Blank)
    (h : quoting.run blanks = .outside) : quoting = .outside := by
  induction blanks generalizing quoting with
  | nil => exact h
  | cons c rest ih =>
      have hquote : c ≠ '"' := by
        rintro rfl
        exact absurd (hblank '"' (by simp)) (by decide)
      have hnext := ih (fun d hd => hblank d (by simp [hd])) h
      cases quoting with
      | outside => rfl
      | inside => grind [Quoting.next]
      | escaped => simp [Quoting.next] at hnext

/-- Where no candidate can start, none is seen. -/
theorem Avoids.clear (hfirst : ∀ token ∈ candidates, ∀ c, token.head? = some c → bad c)
    (h : Avoids bad quoting text) (following : Text) :
    Clear candidates quoting text following := by
  induction text generalizing quoting with
  | nil => trivial
  | cons c rest ih =>
      refine ⟨?_, ih h.2⟩
      rw [visibleToken?_eq_none_iff]
      intro hplace _ token hmem
      by_contra hstart
      rw [Bool.not_eq_false, startsWith_eq_true_iff] at hstart
      obtain ⟨d, more, rfl⟩ := List.exists_cons_of_ne_nil hstart.1
      obtain ⟨rfl, -⟩ := List.cons_prefix_cons.mp hstart.2
      exact h.1 hplace (hfirst _ hmem d rfl)

/-! Blanks, where no candidate has any -/

section

variable {blanks : Text}

theorem clear_of_blank (hfull : ∀ token ∈ candidates, ∀ c ∈ token, Text.isBlank c = false)
    (hblank : blanks.Blank) (following : Text) : Clear candidates quoting blanks following := by
  have havoids : Avoids (fun c => Text.isBlank c = false) quoting blanks :=
    avoids_of_forall fun c hc => by simp [hblank c hc]
  apply havoids.clear
  intro token htoken c hc
  exact hfull token htoken c (List.mem_of_mem_head? hc)

/-- Blanks keep a text apart from what follows them. -/
theorem Clear.append_blank (h : Clear candidates quoting text [])
    (hfull : ∀ token ∈ candidates, ∀ c ∈ token, Text.isBlank c = false) (hblank : blanks.Blank)
    (hne : blanks ≠ []) (following : Text) :
    Clear candidates quoting (text ++ blanks) following := by
  refine clear_append_iff.mpr ⟨?_, clear_of_blank hfull hblank following⟩
  obtain ⟨b, more, rfl⟩ := List.exists_cons_of_ne_nil hne
  apply h.separated
  intro token htoken hmem
  have hplain := hfull token htoken b hmem
  rw [hblank b (by simp)] at hplain
  cases hplain

end

/-- A single character is a token which is seen wherever it stands outside quotes. -/
theorem clear_singleton_iff {c : Char} (hquote : c ≠ '"') :
    Clear [[c]] quoting text [] ↔ Avoids (· = c) quoting text := by
  induction text generalizing quoting with
  | nil => simp
  | cons d rest ih =>
      have hplace : visibleToken? [[c]] quoting (d :: (rest ++ [])) = none ↔
          (quoting = .outside → ¬d = c) := by
        rw [visibleToken?_eq_none_iff]
        simp only [List.mem_singleton, forall_eq, ← Bool.not_eq_true, startsWith_eq_true_iff,
          List.cons_prefix_cons, List.head?_cons, ne_eq, Option.some.injEq]
        grind
      rw [Clear, Avoids, ih, hplace]

end Criteria.Lexeme

/-! Comparators -/

namespace Criteria.Operation

variable {text token after : Text}

theorem quote_not_mem_comparator : ∀ token ∈ comparators, '"' ∉ token := by
  decide

/-- Only an equals sign behind a comparator makes another one of it. -/
theorem tokenAt?_append (htoken : token ∈ comparators) (hafter : after.head? ≠ some '=') :
    Lexeme.tokenAt? comparators (token ++ after) = some token := by
  cases after with
  | nil =>
      rw [List.append_nil]
      revert token
      decide
  | cons c more =>
      have hplain : c ≠ '=' := fun hc => hafter (congrArg some hc)
      simp only [comparators, List.mem_cons, List.not_mem_nil, or_false] at htoken
      rcases htoken with rfl | rfl | rfl | rfl | rfl | rfl | rfl | rfl
      all_goals simp [Lexeme.tokenAt?, Lexeme.startsWith, comparators, hplain.symm]

theorem visibleToken?_of_tokenAt? (h : Lexeme.tokenAt? comparators text = some token) :
    Lexeme.visibleToken? comparators .outside text = some token := by
  obtain ⟨htoken, hne, more, rfl⟩ := Lexeme.tokenAt?_eq_some h
  have hquote : (token ++ more).head? ≠ some '"' := by
    rw [List.head?_append_of_ne_nil token hne]
    intro hhead
    exact quote_not_mem_comparator token htoken (List.mem_of_mem_head? hhead)
  rw [Lexeme.visibleToken?, if_pos ⟨rfl, hquote⟩, h]

end Criteria.Operation
