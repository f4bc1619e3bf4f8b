import Criteria.Text
import Mathlib.Data.List.DropRight

/-!
Blanks around a text. Trimming takes blanks off both ends and nothing else, and a
text is its own trimmed form exactly when it has no blank at either end.
-/

namespace Criteria.Text

/-- A text of blanks only. -/
def Blank (text : Text) : Prop :=
  ∀ c ∈ text, isBlank c = true

instance (text : Text) : Decidable (Blank text) :=
  List.decidableBAll (isBlank · = true) text

@[simp] theorem blank_nil : Blank [] := by
  simp [Blank]

theorem blank_singleton {c : Char} (h : isBlank c = true) : Blank [c] := by
  simp [Blank, h]

theorem blank_space : Blank [' '] :=
  blank_singleton (by decide)

@[simp] theorem blank_append_iff {a b : Text} : Blank (a ++ b) ↔ Blank a ∧ Blank b := by
  simp only [Blank, List.mem_append, or_imp, forall_and]

/-- A text which does not start with a blank; it may be empty. -/
def StartsFull (text : Text) : Prop :=
  ∀ c, text.head? = some c → isBlank c = false

/-- A text which does not end with a blank; it may be empty. -/
def EndsFull (text : Text) : Prop :=
  ∀ c, text.getLast? = some c → isBlank c = false

instance (text : Text) : Decidable (StartsFull text) :=
  Option.decidableForallMem text.head?

instance (text : Text) : Decidable (EndsFull text) :=
  Option.decidableForallMem text.getLast?

theorem StartsFull.append {text : Text} (h : StartsFull text) (hne : text ≠ []) (more : Text) :
    StartsFull (text ++ more) := by
  cases text with
  | nil => exact absurd rfl hne
  | cons c rest => exact h

theorem StartsFull.of_append {text more : Text} (h : StartsFull (text ++ more)) :
    StartsFull text := by
  intro c hc
  apply h c
  rw [List.head?_append, hc]
  rfl

theorem EndsFull.append {text : Text} (h : EndsFull text) (hne : text ≠ []) (before : Text) :
    EndsFull (before ++ text) := by
  intro c hc
  rw [List.getLast?_append_of_ne_nil before hne] at hc
  exact h c hc

theorem skipBlanks_append {lead : Text} (h : Blank lead) (text : Text) :
    skipBlanks (lead ++ text) = skipBlanks text :=
  List.dropWhile_append_of_pos h

theorem skipBlanks_of_startsFull {text : Text} (h : StartsFull text) : skipBlanks text = text := by
  cases text with
  | nil => rfl
  | cons c rest => exact List.dropWhile_cons_of_neg (by simp [h c rfl])

theorem startsFull_skipBlanks (text : Text) : StartsFull (skipBlanks text) := by
  intro c hc
  have hnot := List.head?_dropWhile_not isBlank text
  rw [show List.dropWhile isBlank text = skipBlanks text from rfl, hc] at hnot
  simpa using hnot

theorem exists_append_skipBlanks (text : Text) :
    ∃ lead, Blank lead ∧ text = lead ++ skipBlanks text :=
  ⟨text.takeWhile isBlank, fun _ hc => List.mem_takeWhile_imp hc,
    List.takeWhile_append_dropWhile.symm⟩

theorem skipBlanks_eq_nil_iff {text : Text} : skipBlanks text = [] ↔ Blank text :=
  List.dropWhile_eq_nil_iff

theorem head?_skipBlanks_eq_some_iff {text : Text} {c : Char} (hc : isBlank c = false) :
    (skipBlanks text).head? = some c ↔ ∃ blanks more, Blank blanks ∧ text = blanks ++ c :: more := by
  constructor
  · intro h
    obtain ⟨more, hmore⟩ := List.head?_eq_some_iff.mp h
    obtain ⟨blanks, hblanks, hwhole⟩ := exists_append_skipBlanks text
    exact ⟨blanks, more, hblanks, hmore ▸ hwhole⟩
  · rintro ⟨blanks, more, hblanks, rfl⟩
    rw [skipBlanks_append hblanks, skipBlanks, List.dropWhile_cons_of_neg (by simp [hc])]
    rfl

theorem trimEnd_eq_rdropWhile (text : Text) : trimEnd text = text.rdropWhile isBlank := by
  induction text with
  | nil => rfl
  | cons c rest ih =>
      have hsnoc : (c :: rest).rdropWhile isBlank =
          if rest.rdropWhile isBlank = [] then List.rdropWhile isBlank [c]
          else c :: rest.rdropWhile isBlank := by
        simp only [List.rdropWhile, List.reverse_cons, List.dropWhile_append, List.isEmpty_iff,
          List.reverse_eq_nil_iff]
        split <;> simp
      rw [trimEnd, hsnoc, ih]
      split
      · next hnil => rw [if_pos hnil, List.rdropWhile_singleton]
      · next hkept => rw [if_neg hkept]

theorem trimEnd_append {trail : Text} (h : Blank trail) (text : Text) :
    trimEnd (text ++ trail) = trimEnd text := by
  rw [trimEnd_eq_rdropWhile, trimEnd_eq_rdropWhile]
  induction trail using List.reverseRecOn with
  | nil => rw [List.append_nil]
  | append_singleton trail c ih =>
      obtain ⟨htrail, hc⟩ := blank_append_iff.mp h
      rw [← List.append_assoc, List.rdropWhile_concat_pos _ _ _ (hc c (by simp)), ih htrail]

theorem trimEnd_of_endsFull {text : Text} (h : EndsFull text) : trimEnd text = text := by
  rw [trimEnd_eq_rdropWhile, List.rdropWhile_eq_self_iff]
  intro hne
  simp [h _ (List.getLast?_eq_some_getLast hne)]

theorem endsFull_trimEnd (text : Text) : EndsFull (trimEnd text) := by
  intro c hc
  rw [trimEnd_eq_rdropWhile] at hc
  have hne : text.rdropWhile isBlank ≠ [] := by
    intro hnil
    simp [hnil] at hc
  have hnot := List.rdropWhile_last_not isBlank text hne
  rw [List.getLast?_eq_some_getLast hne, Option.some.injEq] at hc
  simpa [hc] using hnot

theorem exists_trimEnd_append (text : Text) :
    ∃ trail, Blank trail ∧ text = trimEnd text ++ trail := by
  refine ⟨text.rtakeWhile isBlank, ?_, ?_⟩
  · intro c hc
    exact List.mem_rtakeWhile_imp hc
  · rw [trimEnd_eq_rdropWhile, List.rdropWhile_append_rtakeWhile]

/-- A text which starts full keeps its start: only the blanks at its end go. -/
theorem trim_of_startsFull {text : Text} (h : StartsFull text) : trim text = trimEnd text := by
  rw [trim, skipBlanks_of_startsFull h]

theorem trim_of_full {text : Text} (hstart : StartsFull text) (hend : EndsFull text) :
    trim text = text := by
  rw [trim_of_startsFull hstart, trimEnd_of_endsFull hend]

theorem trim_append {text trail : Text} (htrail : Blank trail) (hstart : StartsFull text)
    (hne : text ≠ []) (hend : EndsFull text) : trim (text ++ trail) = text := by
  rw [trim_of_startsFull (hstart.append hne trail), trimEnd_append htrail,
    trimEnd_of_endsFull hend]

theorem trim_blank_append {lead : Text} (h : Blank lead) (text : Text) :
    trim (lead ++ text) = trim text := by
  rw [trim, skipBlanks_append h, trim]

theorem trim_append_blank {trail : Text} (h : Blank trail) (text : Text) :
    trim (text ++ trail) = trim text := by
  obtain ⟨lead, hlead, hsplit⟩ := exists_append_skipBlanks text
  have hstart := startsFull_skipBlanks text
  rw [hsplit, List.append_assoc, trim_blank_append hlead, trim_blank_append hlead]
  cases hrest : skipBlanks text with
  | nil => rw [List.nil_append, ← List.append_nil trail, trim_blank_append h]
  | cons c rest =>
      rw [hrest] at hstart
      rw [trim_of_startsFull (hstart.append (List.cons_ne_nil c rest) trail), trimEnd_append h,
        trim_of_startsFull hstart]

theorem exists_append_trim_append (text : Text) :
    ∃ lead trail, Blank lead ∧ Blank trail ∧ text = lead ++ trim text ++ trail := by
  obtain ⟨lead, hlead, hsplit⟩ := exists_append_skipBlanks text
  obtain ⟨trail, htrail, hrest⟩ := exists_trimEnd_append (skipBlanks text)
  refine ⟨lead, trail, hlead, htrail, ?_⟩
  rw [List.append_assoc, trim, ← hrest]
  exact hsplit

theorem startsFull_trim (text : Text) : StartsFull (trim text) := by
  obtain ⟨trail, -, hsplit⟩ := exists_trimEnd_append (skipBlanks text)
  have hstart := startsFull_skipBlanks text
  rw [hsplit] at hstart
  exact hstart.of_append

theorem endsFull_trim (text : Text) : EndsFull (trim text) :=
  endsFull_trimEnd _

@[simp] theorem trim_trim (text : Text) : trim (trim text) = trim text :=
  trim_of_full (startsFull_trim text) (endsFull_trim text)

theorem exists_trim_append {text : Text} (h : StartsFull text) :
    ∃ trail, Blank trail ∧ text = trim text ++ trail := by
  rw [trim_of_startsFull h]
  exact exists_trimEnd_append text

theorem trim_ne_nil {text : Text} (h : StartsFull text) (hne : text ≠ []) : trim text ≠ [] := by
  obtain ⟨trail, htrail, hsplit⟩ := exists_trim_append h
  intro hnil
  rw [hnil, List.nil_append] at hsplit
  obtain ⟨c, rest, rfl⟩ := List.exists_cons_of_ne_nil hne
  have hblank := htrail c (hsplit ▸ List.mem_cons_self)
  rw [h c rfl] at hblank
  cases hblank

end Criteria.Text
