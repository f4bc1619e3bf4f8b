import Criteria.Proofs.Scanning.Cursor
import Criteria.Proofs.Scanning.Quoting

/-!
Where a text is split at a token. The place is the first one outside literals at which any of
the candidates starts, the token is the first candidate of those which start there, and nothing
is lost. If no candidate comes before a longer one which it starts, the token is the longest.
-/

namespace Criteria

namespace Lexeme

/-- The token stands before all other candidates with which the text starts. -/
def FirstOf (candidates : List Text) (token text : Text) : Prop :=
  ∃ earlier later, candidates = earlier ++ token :: later ∧ token <+: text ∧
    ∀ other ∈ earlier, ¬other <+: text

/-- No candidate starts at a place of the text outside literals, `following` coming after the
text. -/
def Unseen (candidates : List Text) (text following : Text) : Prop :=
  ∀ front back, text = front ++ back → back ≠ [] → Text.EndsOutside front →
    ∀ token ∈ candidates, ¬token <+: back ++ following

variable {candidates : List Text} {quoting : Quoting} {token text before following left : Text}

/-- Of two candidates with which a text starts, one starts the other. -/
theorem FirstOf.longest (hordered : candidates.Pairwise fun a b => a <+: b → a = b)
    (h : FirstOf candidates token text) :
    ∀ other ∈ candidates, other <+: text → other.length ≤ token.length := by
  obtain ⟨earlier, later, rfl, hstart, hearlier⟩ := h
  intro other hmem hother
  rcases List.mem_append.mp hmem with hbefore | hbehind
  · exact absurd hother (hearlier other hbefore)
  · rcases List.mem_cons.mp hbehind with rfl | hlater
    · exact Nat.le_refl _
    · rcases List.prefix_or_prefix_of_prefix hother hstart with hle | hge
      · exact hle.length_le
      · have hsame := (List.pairwise_cons.mp (List.pairwise_append.mp hordered).2.1).1 other hlater
        rw [hsame hge]

section

variable (htokens : ∀ token ∈ candidates, token ≠ [] ∧ token.head? ≠ some '"')
include htokens

theorem startsWith_iff_of_mem (hmem : token ∈ candidates) :
    startsWith token text = true ↔ token <+: text := by
  rw [startsWith_eq_true_iff]
  exact and_iff_right (htokens token hmem).1

theorem not_prefix_quote (hmem : token ∈ candidates) (hquote : text.head? = some '"') :
    ¬token <+: text := by
  rintro ⟨more, rfl⟩
  obtain ⟨hne, hhead⟩ := htokens token hmem
  rw [List.head?_append_of_ne_nil token hne] at hquote
  exact hhead hquote

theorem tokenAt?_eq_some_iff :
    tokenAt? candidates text = some token ↔ FirstOf candidates token text := by
  rw [tokenAt?, List.find?_eq_some_iff_append]
  constructor
  · rintro ⟨hstart, earlier, later, rfl, hearlier⟩
    refine ⟨earlier, later, rfl, (startsWith_eq_true_iff.mp hstart).2, ?_⟩
    intro other hother hprefix
    have hnot := hearlier other hother
    rw [(startsWith_iff_of_mem htokens (List.mem_append_left _ hother)).mpr hprefix] at hnot
    cases hnot
  · rintro ⟨earlier, later, rfl, hstart, hearlier⟩
    refine ⟨(startsWith_iff_of_mem htokens (by simp)).mpr hstart, earlier, later, rfl, ?_⟩
    intro other hother
    rw [Bool.not_eq_true', ← Bool.not_eq_true,
      startsWith_iff_of_mem htokens (List.mem_append_left _ hother)]
    exact hearlier other hother

theorem visibleToken?_eq_some_iff :
    visibleToken? candidates quoting text = some token ↔
      quoting = .outside ∧ FirstOf candidates token text := by
  rw [← tokenAt?_eq_some_iff htokens, visibleToken?]
  split
  · next hplace => simp [hplace.1]
  · next hplace =>
    simp only [reduceCtorEq, false_iff]
    rintro ⟨houtside, hfirst⟩
    obtain ⟨hmem, -, hstart⟩ := tokenAt?_eq_some hfirst
    have hquote : text.head? = some '"' := by
      by_contra hnot
      exact hplace ⟨houtside, hnot⟩
    exact not_prefix_quote htokens hmem hquote hstart

theorem visibleToken?_eq_none_iff_forall :
    visibleToken? candidates quoting text = none ↔
      (quoting = .outside → ∀ token ∈ candidates, ¬token <+: text) := by
  rw [visibleToken?_eq_none_iff]
  apply imp_congr_right
  intro _
  constructor
  · intro hnone token hmem hstart
    have hquote : text.head? ≠ some '"' := fun hquote =>
      not_prefix_quote htokens hmem hquote hstart
    have hnot := hnone hquote token hmem
    rw [(startsWith_iff_of_mem htokens hmem).mpr hstart] at hnot
    cases hnot
  · intro hnone _ token hmem
    rw [← Bool.not_eq_true, startsWith_iff_of_mem htokens hmem]
    exact hnone token hmem

theorem clear_iff_forall :
    Clear candidates quoting text following ↔
      ∀ front back, text = front ++ back → back ≠ [] → quoting.run front = .outside →
        ∀ token ∈ candidates, ¬token <+: back ++ following := by
  induction text generalizing quoting with
  | nil => simp
  | cons c rest ih =>
      rw [Clear, visibleToken?_eq_none_iff_forall htokens, ih]
      constructor
      · rintro ⟨hhere, hbehind⟩ front back hwhole hne hrun
        cases front with
        | nil =>
            rw [List.nil_append] at hwhole
            subst hwhole
            exact hhere hrun
        | cons d front =>
            obtain ⟨rfl, rfl⟩ := List.cons_eq_cons.mp hwhole
            exact hbehind front back rfl hne hrun
      · intro hall
        constructor
        · intro houtside
          exact hall [] (c :: rest) rfl (List.cons_ne_nil c rest) houtside
        · rintro front back rfl hne hrun
          exact hall (c :: front) back rfl hne hrun

theorem clear_iff_unseen :
    Clear candidates .outside text following ↔ Unseen candidates text following := by
  rw [clear_iff_forall htokens]
  simp only [Unseen, Text.endsOutside_iff]

theorem splitAtToken_eq_some_iff :
    splitAtToken candidates text = (before, some token, left) ↔
      text = before ++ (token ++ left) ∧ Text.EndsOutside before ∧
        FirstOf candidates token (token ++ left) ∧ Unseen candidates before (token ++ left) := by
  rw [← clear_iff_unseen htokens, Text.endsOutside_iff]
  constructor
  · intro h
    obtain ⟨hwhole, hclear, hvisible⟩ := splitAtToken_eq_some h
    obtain ⟨houtside, hfirst⟩ := (visibleToken?_eq_some_iff htokens).mp hvisible
    exact ⟨hwhole, houtside, hfirst, hclear⟩
  · rintro ⟨rfl, houtside, hfirst, hclear⟩
    exact splitAtToken_of_token hclear
      ((visibleToken?_eq_some_iff htokens).mpr ⟨houtside, hfirst⟩)

theorem splitAtToken_eq_none_iff :
    splitAtToken candidates text = (before, none, left) ↔
      before = text ∧ left = [] ∧ Unseen candidates text [] := by
  rw [← clear_iff_unseen htokens]
  constructor
  · exact splitAtToken_eq_none
  · rintro ⟨rfl, rfl, hclear⟩
    exact splitAtToken_of_clear hclear

end

end Lexeme

namespace Operation

theorem comparator_ne_nil_and_head :
    ∀ token ∈ comparators, token ≠ [] ∧ token.head? ≠ some '"' := by
  decide

/-- Comparators which start others stand behind them. -/
theorem comparators_ordered : comparators.Pairwise fun a b => a <+: b → a = b := by
  decide

end Operation

namespace Cursor

variable {cursor after : Cursor} {tokens : List Text} {token : Option Text} {before : Text}

theorem takeUntil_eq (h : cursor.takeUntil tokens = (before, token, after)) :
    Lexeme.splitAtToken tokens cursor.rest = (before, token, after.rest) ∧
      after = cursor.moveTo after.rest := by
  unfold takeUntil at h
  obtain ⟨rfl, hsame⟩ := Prod.mk.inj h
  obtain ⟨rfl, rfl⟩ := Prod.mk.inj hsame
  exact ⟨rfl, rfl⟩

/-- A cursor takes the text up to the first place outside literals where a candidate starts,
and then the first of the candidates which start there. Without such a place it takes all that
is left. Of the comparators it takes the longest which starts at the place. -/
theorem takeUntil_first (cursor : Cursor) {tokens : List Text}
    (htokens : ∀ token ∈ tokens, token ≠ [] ∧ token.head? ≠ some '"') :
    (∀ before token after, cursor.takeUntil tokens = (before, some token, after) →
      cursor.Takes (before ++ token) after ∧ Text.EndsOutside before ∧
        Lexeme.FirstOf tokens token (token ++ after.rest) ∧
        Lexeme.Unseen tokens before (token ++ after.rest)) ∧
    (∀ before after, cursor.takeUntil tokens = (before, none, after) →
      before = cursor.rest ∧ cursor.Takes before after ∧ after.rest = [] ∧
        Lexeme.Unseen tokens cursor.rest []) ∧
    (tokens = Operation.comparators →
      ∀ before token after, cursor.takeUntil tokens = (before, some token, after) →
        ∀ other ∈ tokens, other <+: token ++ after.rest → other.length ≤ token.length) := by
  have hfound {before token : Text} {after : Cursor}
      (h : cursor.takeUntil tokens = (before, some token, after)) :
      cursor.Takes (before ++ token) after ∧ Text.EndsOutside before ∧
        Lexeme.FirstOf tokens token (token ++ after.rest) ∧
        Lexeme.Unseen tokens before (token ++ after.rest) := by
    obtain ⟨hsplit, hafter⟩ := takeUntil_eq h
    obtain ⟨hwhole, hplace⟩ := (Lexeme.splitAtToken_eq_some_iff htokens).mp hsplit
    rw [← List.append_assoc] at hwhole
    exact ⟨hafter ▸ takes_moveTo hwhole, hplace⟩
  refine ⟨fun before token after => hfound, ?_, ?_⟩
  · intro before after h
    obtain ⟨hsplit, hafter⟩ := takeUntil_eq h
    obtain ⟨hwhole, hend, hunseen⟩ := (Lexeme.splitAtToken_eq_none_iff htokens).mp hsplit
    have htakes : cursor.Takes before (cursor.moveTo []) :=
      takes_moveTo (by rw [hwhole, List.append_nil])
    rw [hend] at hafter
    exact ⟨hwhole, hafter ▸ htakes, hend, hunseen⟩
  · rintro rfl before token after h
    obtain ⟨-, -, hfirst, -⟩ := hfound h
    exact hfirst.longest Operation.comparators_ordered

/-- A comparator in a literal is not seen, an exclamation mark alone is none, and `!<` stands before
`=`. A literal that is left open hides all that follow it. -/
theorem takeUntil_first_comparator :
    let hidden := start "é[\"a\\\" == <\"] ! x !<= 1".toList 0
    let unclosed := start "é \"== 1 <".toList 0
    hidden.Takes "é[\"a\\\" == <\"] ! x !<".toList (hidden.takeUntil Operation.comparators).2.2 ∧
      Text.EndsOutside "é[\"a\\\" == <\"] ! x ".toList ∧
      Lexeme.Unseen Operation.comparators "é[\"a\\\" == <\"] ! x ".toList "!<= 1".toList ∧
      (∀ other ∈ Operation.comparators, other <+: "!<= 1".toList → other.length ≤ 2) ∧
      Lexeme.Unseen Operation.comparators unclosed.rest [] := by
  intro hidden unclosed
  obtain ⟨hfound, -, hlongest⟩ := takeUntil_first hidden Operation.comparator_ne_nil_and_head
  obtain ⟨-, hmissing, -⟩ := takeUntil_first unclosed Operation.comparator_ne_nil_and_head
  have hsplit : hidden.takeUntil Operation.comparators =
      ("é[\"a\\\" == <\"] ! x ".toList, some "!<".toList, hidden.moveTo "= 1".toList) := by
    decide +kernel
  have hwhole : unclosed.takeUntil Operation.comparators =
      (unclosed.rest, none, unclosed.moveTo []) := by
    decide +kernel
  obtain ⟨htakes, houtside, -, hunseen⟩ := hfound _ _ _ hsplit
  obtain ⟨-, -, -, hnowhere⟩ := hmissing _ _ hwhole
  rw [hsplit]
  exact ⟨htakes, houtside, hunseen, hlongest rfl _ _ _ hsplit, hnowhere⟩

end Cursor

end Criteria
