import Criteria.Text.Lowercase
import Mathlib.Data.List.Count

/-!
Lower-casing a part of a text. Only the form of a capital sigma depends on what stands
around it: it is another one where the sigma ends a word. So the lower-case form of a part
stands in that of the whole when each sigma of the part ends a word there exactly when it
does in the part alone. Some parts leave open whether a sigma of theirs ends a word, and these
are the ones which have another form in some text.
-/

namespace Criteria.Text

namespace Lowercase

variable {before other part rest following : Text}

/-- Whether the first character which is not passed over is a cased letter, if there is
one. -/
def firstCased? (text : Text) : Option Bool :=
  (text.dropWhile isCaseIgnorable).head?.map isCased

theorem meetsCased_eq (text : Text) : meetsCased text = (firstCased? text).getD false := by
  unfold meetsCased firstCased?
  cases text.dropWhile isCaseIgnorable <;> rfl

theorem firstCased?_append (a b : Text) :
    firstCased? (a ++ b) = (firstCased? a).or (firstCased? b) := by
  unfold firstCased?
  rw [List.dropWhile_append]
  cases h : a.dropWhile isCaseIgnorable <;> simp

theorem meetsCased_append {a : Text} (h : meetsCased a = true) (b : Text) :
    meetsCased (a ++ b) = true := by
  rw [meetsCased_eq] at h ⊢
  rw [firstCased?_append]
  cases hfirst : firstCased? a with
  | none =>
      rw [hfirst] at h
      cases h
  | some cased =>
      rw [hfirst] at h
      exact h

/-- A capital sigma between the two texts ends a word. -/
def endsWord (before rest : Text) : Bool :=
  meetsCased before.reverse && !meetsCased rest

theorem endsWord_of_append (h : endsWord before (rest ++ following) = true) :
    endsWord before rest = true := by
  rw [endsWord, Bool.and_eq_true, Bool.not_eq_true'] at h ⊢
  refine ⟨h.1, ?_⟩
  by_contra hmeets
  rw [meetsCased_append (Bool.of_not_eq_false hmeets)] at h
  cases h.2

theorem endsWord_append (h : endsWord before rest = true) (outer : Text) :
    endsWord (outer ++ before) rest = true := by
  rw [endsWord, Bool.and_eq_true] at h ⊢
  rw [List.reverse_append]
  exact ⟨meetsCased_append h.1 _, h.2⟩

/-- The lower-case form of a capital sigma. -/
def sigma (final : Bool) : Char :=
  if final then 'ς' else 'σ'

/-- The lower-case form of a character between two texts. -/
def form (before : Text) (c : Char) (rest : Text) : Text :=
  if c = 'Σ' then [sigma (endsWord before rest)] else single c

theorem form_capital (before rest : Text) : form before 'Σ' rest = [sigma (endsWord before rest)] :=
  if_pos rfl

theorem form_of_ne {c : Char} (h : c ≠ 'Σ') (before rest : Text) : form before c rest = single c :=
  if_neg h

/-- The lower-case form of a text between two others. -/
def within (before : Text) : (text rest : Text) → Text
  | [], _ => []
  | c :: more, rest => form before c (more ++ rest) ++ within (before ++ [c]) more rest

theorem after_reverse (before text : Text) : after before.reverse text = within before text [] := by
  induction text generalizing before with
  | nil => rfl
  | cons c more ih =>
      have hmore := ih (before ++ [c])
      rw [List.reverse_append, List.reverse_singleton, List.singleton_append] at hmore
      rw [within, ← hmore, List.append_nil, after]
      by_cases hsigma : c = 'Σ'
      · rw [hsigma, form_capital, if_pos rfl, endsWord, sigma]
        split <;> rfl
      · rw [form_of_ne hsigma, if_neg hsigma]

theorem lowercase_eq_within (text : Text) : lowercase text = within [] text [] :=
  after_reverse [] text

theorem within_append (before a b rest : Text) :
    within before (a ++ b) rest = within before a (b ++ rest) ++ within (before ++ a) b rest := by
  induction a generalizing before with
  | nil => rw [List.append_nil, within, List.nil_append, List.nil_append]
  | cons c more ih =>
      rw [List.cons_append, within, within, ih, List.append_assoc, List.append_assoc,
        List.append_assoc, List.singleton_append]

theorem within_singleton_of_ne {c : Char} (h : c ≠ 'Σ') (before rest : Text) :
    within before [c] rest = single c := by
  rw [within, form_of_ne h, within, List.append_nil]

theorem lowercase_append (before part rest : Text) :
    lowercase (before ++ part ++ rest) =
      within [] before (part ++ rest) ++ within before part rest ++
        within (before ++ part) rest [] := by
  rw [lowercase_eq_within, within_append, within_append, List.append_nil, List.nil_append,
    List.nil_append]

/-- Each capital sigma of the part ends a word between the two texts exactly when it does in
the part alone. -/
def KeepsSigmas (before part rest : Text) : Prop :=
  ∀ x y, part = x ++ 'Σ' :: y → endsWord (before ++ x) (y ++ rest) = endsWord x y

/-- Two texts around a part give it the same lower-case form when they give it to each
sigma. -/
theorem within_congr (h : ∀ x y, part = x ++ 'Σ' :: y →
      endsWord (before ++ x) (y ++ rest) = endsWord (other ++ x) (y ++ following)) :
    within before part rest = within other part following := by
  induction part generalizing before other with
  | nil => rfl
  | cons c more ih =>
      have hmore : within (before ++ [c]) more rest = within (other ++ [c]) more following := by
        apply ih
        intro x y hsplit
        have hsame := h (c :: x) y (by rw [hsplit, List.cons_append])
        rwa [List.append_cons, List.append_cons other] at hsame
      rw [within, within, hmore]
      by_cases hsigma : c = 'Σ'
      · subst hsigma
        have hsame := h [] more rfl
        rw [List.append_nil, List.append_nil] at hsame
        rw [form_capital, form_capital, hsame]
      · rw [form_of_ne hsigma, form_of_ne hsigma]

theorem lowercase_isInfix (h : KeepsSigmas before part rest) :
    lowercase part <:+: lowercase (before ++ part ++ rest) := by
  have hsame : within before part rest = lowercase part := by
    rw [lowercase_eq_within]
    apply within_congr
    intro x y hsplit
    rw [List.nil_append, List.append_nil]
    exact h x y hsplit
  rw [lowercase_append, hsame]
  exact List.infix_append _ _ _

/-! Whether a sigma keeps its form wherever the part stands -/

/-- Whether a capital sigma between the two texts ends a word does not depend on what is
around them: the letter which decides it is in them on one side, or on both. -/
def Settled (before rest : Text) : Prop :=
  firstCased? before.reverse = some false ∨ firstCased? rest = some true ∨
    (firstCased? before.reverse).isSome ∧ (firstCased? rest).isSome

theorem Settled.endsWord_eq (h : Settled before rest) (outer following : Text) :
    endsWord (outer ++ before) (rest ++ following) = endsWord before rest := by
  simp only [endsWord, meetsCased_eq, List.reverse_append, firstCased?_append]
  rcases h with hbefore | hrest | ⟨hbefore, hrest⟩
  · rw [hbefore]
    rfl
  · rw [hrest]
    cases firstCased? before.reverse with
    | none => simp
    | some cased => rfl
  · obtain ⟨first, hfirst⟩ := Option.isSome_iff_exists.mp hbefore
    obtain ⟨second, hsecond⟩ := Option.isSome_iff_exists.mp hrest
    rw [hfirst, hsecond]
    rfl

/-- A sigma which is not settled ends a word of the part, which a letter behind the part
prolongs, or it ends none, but would after a letter before the part. -/
theorem endsWord_of_not_settled (h : ¬Settled before rest) :
    endsWord before rest = true ∧ endsWord before (rest ++ ['a']) = false ∨
      endsWord before rest = false ∧ endsWord (['a'] ++ before) rest = true := by
  have hletter : firstCased? ['a'] = some true := by decide +kernel
  simp only [endsWord, meetsCased_eq, List.reverse_append, firstCased?_append,
    List.reverse_singleton, hletter]
  unfold Settled at h
  rcases hbefore : firstCased? before.reverse with _ | _ | _ <;>
    rcases hrest : firstCased? rest with _ | _ | _ <;>
    simp_all

/-- Every capital sigma of the part is settled by the part itself. -/
def SettlesSigmas (part : Text) : Prop :=
  ∀ x y, part = x ++ 'Σ' :: y → Settled x y

theorem settlesSigmas_of_not_mem (h : 'Σ' ∉ part) : SettlesSigmas part := by
  rintro x y rfl
  simp at h

theorem SettlesSigmas.keepsSigmas (h : SettlesSigmas part) (before rest : Text) :
    KeepsSigmas before part rest :=
  fun x y hsplit => (h x y hsplit).endsWord_eq before rest

/-! Forms of sigmas are counted to tell two lower-case forms of a part apart -/

theorem sigma_ne (final : Bool) : sigma (!final) ≠ sigma final := by
  cases final <;> decide

/-- When each sigma that has a form in the first place has it in the second too, this form
is no more frequent in the first place. -/
theorem count_within_le (final : Bool) (h : ∀ x y, part = x ++ 'Σ' :: y →
      endsWord (before ++ x) (y ++ rest) = final →
        endsWord (other ++ x) (y ++ following) = final) :
    (within before part rest).count (sigma final) ≤
      (within other part following).count (sigma final) := by
  induction part generalizing before other with
  | nil => exact Nat.le_refl _
  | cons c more ih =>
      have hmore : (within (before ++ [c]) more rest).count (sigma final) ≤
          (within (other ++ [c]) more following).count (sigma final) := by
        apply ih
        intro x y hsplit
        have hsame := h (c :: x) y (by rw [hsplit, List.cons_append])
        rwa [List.append_cons, List.append_cons other] at hsame
      have hfirst : (form before c (more ++ rest)).count (sigma final) ≤
          (form other c (more ++ following)).count (sigma final) := by
        by_cases hsigma : c = 'Σ'
        · subst hsigma
          have hsame := h [] more rfl
          rw [List.append_nil, List.append_nil] at hsame
          rw [form_capital, form_capital]
          by_cases hfinal : endsWord before (more ++ rest) = final
          · exact Nat.le_of_eq (by rw [hfinal, hsame hfinal])
          · rw [Bool.eq_not_of_ne hfinal, List.count_singleton, beq_false_of_ne (sigma_ne final)]
            exact Nat.zero_le _
        · exact Nat.le_of_eq (by rw [form_of_ne hsigma, form_of_ne hsigma])
      rw [within, within, List.count_append, List.count_append]
      exact Nat.add_le_add hfirst hmore

/-- The form is less frequent in the first place when one of the sigmas has it in the second
place only. -/
theorem count_within_lt (final : Bool) {left right : Text} (h : ∀ x y,
      left ++ 'Σ' :: right = x ++ 'Σ' :: y → endsWord (before ++ x) (y ++ rest) = final →
        endsWord (other ++ x) (y ++ following) = final)
    (hfirst : endsWord (before ++ left) (right ++ rest) ≠ final)
    (hsecond : endsWord (other ++ left) (right ++ following) = final) :
    (within before (left ++ 'Σ' :: right) rest).count (sigma final) <
      (within other (left ++ 'Σ' :: right) following).count (sigma final) := by
  have hleft : (within before left ('Σ' :: right ++ rest)).count (sigma final) ≤
      (within other left ('Σ' :: right ++ following)).count (sigma final) := by
    apply count_within_le
    intro x y hsplit
    have hsame := h x (y ++ 'Σ' :: right) (by rw [hsplit, List.append_assoc, List.cons_append])
    rwa [List.append_assoc, List.append_assoc] at hsame
  have hright : (within (before ++ left ++ ['Σ']) right rest).count (sigma final) ≤
      (within (other ++ left ++ ['Σ']) right following).count (sigma final) := by
    apply count_within_le
    intro x y hsplit
    have hsame := h (left ++ 'Σ' :: x) y (by rw [hsplit, List.append_assoc, List.cons_append])
    simpa using hsame
  have hother : [sigma !final].count (sigma final) = 0 := by
    rw [List.count_singleton, beq_false_of_ne (sigma_ne final)]
    rfl
  have hsame : [sigma final].count (sigma final) = 1 := List.count_singleton_self
  rw [within_append, within_append, within, within, form_capital, form_capital, hsecond,
    Bool.eq_not_of_ne hfirst]
  simp only [List.count_append, hother, hsame]
  omega

/-- A part does not occur in lower case where all the forms which its sigmas have there are
forms which they have alone too, and one is not. -/
theorem not_isInfix_lowercase (final : Bool) {outer left right : Text}
    (hkeeps : ∀ x y, left ++ 'Σ' :: right = x ++ 'Σ' :: y →
      endsWord (outer ++ x) (y ++ following) = final → endsWord x y = final)
    (hthere : endsWord (outer ++ left) (right ++ following) ≠ final)
    (halone : endsWord left right = final)
    (houter : (within [] outer (left ++ 'Σ' :: right ++ following)).count (sigma final) = 0)
    (hfollowing : (within (outer ++ (left ++ 'Σ' :: right)) following []).count (sigma final) = 0) :
    ¬lowercase (left ++ 'Σ' :: right) <:+:
      lowercase (outer ++ (left ++ 'Σ' :: right) ++ following) := by
  intro hinfix
  have hlt : (within outer (left ++ 'Σ' :: right) following).count (sigma final) <
      (within [] (left ++ 'Σ' :: right) []).count (sigma final) := by
    apply count_within_lt final _ hthere
    · rwa [List.nil_append, List.append_nil]
    · intro x y hsplit hends
      rw [List.nil_append, List.append_nil]
      exact hkeeps x y hsplit hends
  have hle := hinfix.sublist.count_le (sigma final)
  rw [lowercase_append, List.count_append, List.count_append, houter, hfollowing,
    lowercase_eq_within] at hle
  omega

/-- A part which leaves a sigma open has another form beside a letter. -/
theorem exists_not_isInfix_lowercase (h : ¬SettlesSigmas part) :
    ∃ text, part <:+: text ∧ ¬lowercase part <:+: lowercase text := by
  have hletter (final : Bool) (before rest : Text) :
      (within before ['a'] rest).count (sigma final) = 0 := by
    have hsingle : single 'a' = ['a'] := by decide +kernel
    rw [within_singleton_of_ne (by decide), hsingle]
    cases final <;> decide
  simp only [SettlesSigmas, not_forall] at h
  obtain ⟨left, right, rfl, hopen⟩ := h
  rcases endsWord_of_not_settled hopen with ⟨hends, hprolonged⟩ | ⟨hends, hpreceded⟩
  · refine ⟨[] ++ (left ++ 'Σ' :: right) ++ ['a'], List.infix_append _ _ _, ?_⟩
    apply not_isInfix_lowercase true _ _ hends rfl (hletter true _ _)
    · intro x y _ hx
      exact endsWord_of_append hx
    · rw [List.nil_append, hprolonged]
      decide
  · refine ⟨['a'] ++ (left ++ 'Σ' :: right) ++ [], List.infix_append _ _ _, ?_⟩
    apply not_isInfix_lowercase false _ _ hends (hletter false _ _) rfl
    · intro x y _ hx
      rw [List.append_nil] at hx
      rw [Bool.eq_false_iff] at hx ⊢
      exact fun hends => hx (endsWord_append hends ['a'])
    · rw [List.append_nil, hpreceded]
      decide

/-- The parts whose lower-case form stands in that of every text they stand in are those
which settle their sigmas. -/
theorem settlesSigmas_iff :
    SettlesSigmas part ↔ ∀ text, part <:+: text → lowercase part <:+: lowercase text := by
  constructor
  · rintro h _ ⟨before, rest, rfl⟩
    exact lowercase_isInfix (h.keepsSigmas before rest)
  · intro h
    by_contra hopen
    obtain ⟨text, hpart, hnot⟩ := exists_not_isInfix_lowercase hopen
    exact hnot (h text hpart)

end Lowercase

end Criteria.Text
