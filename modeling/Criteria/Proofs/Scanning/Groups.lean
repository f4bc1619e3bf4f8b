import Criteria.Proofs.Scanning.Cursor
import Criteria.Proofs.Scanning.Quoting

/-!
Where a group ends. Counted without literals, no initial part of its interior closes more
groups than it opens, and the whole interior closes all that it opens. There is at most one
such interior before a closing parenthesis, and the reader finds it whenever there is one.
-/

namespace Criteria

/-- Every closing parenthesis has its partner before it, and every opening one behind it. -/
structure Text.Paired (seen : Text) : Prop where
  opened : ∀ front, front <+: seen → front.count ')' ≤ front.count '('
  closed : seen.count '(' = seen.count ')'

/-- The text can stand between the parentheses of a group: its literals are closed, and so are
the groups which it opens outside them. -/
def Text.Interior (text : Text) : Prop :=
  ∃ seen, Text.Shows text seen ∧ Text.Paired seen

/-- A literal whose opening quote stands before the text does not end in it. -/
def Quoted.Unclosed (text : Text) : Prop :=
  ∀ body left, text = body ++ '"' :: left → ∀ value, ¬Denotes body value

theorem Quoted.unclosed_iff {text : Text} : Unclosed text ↔ decodeBody? text = none := by
  rw [Option.eq_none_iff_forall_ne_some]
  constructor
  · rintro h ⟨value, left⟩ hdecode
    obtain ⟨body, hwhole, hbody⟩ := decodeBody?_eq_some_iff.mp hdecode
    exact h body left hwhole value hbody
  · intro h body left hwhole value hbody
    exact h (value, left) (decodeBody?_eq_some_iff.mpr ⟨body, hwhole, hbody⟩)

instance (text : Text) : Decidable (Quoted.Unclosed text) :=
  decidable_of_iff _ Quoted.unclosed_iff.symm

namespace Lexeme

variable {depth inner : Nat} {text front seen body : Text} {c : Char}

theorem forall_prefix_cons_iff {P : Text → Prop} :
    (∀ front, front <+: c :: seen → P front) ↔ P [] ∧ ∀ front, front <+: seen → P (c :: front) := by
  constructor
  · intro h
    exact ⟨h [] List.nil_prefix, fun front hfront => h _ ((List.prefix_cons_inj c).mpr hfront)⟩
  · rintro ⟨hnil, hcons⟩ front hfront
    rcases List.prefix_cons_iff.mp hfront with rfl | ⟨rest, rfl, hrest⟩
    · exact hnil
    · exact hcons rest hrest

theorem step?_close (depth : Nat) : step? (depth + 1) .outside ')' = some depth := by
  simp [step?]

/-- The depth behind a text is what the parentheses which it shows add up to, unless an initial
part of them closes more groups than are open. -/
theorem nesting_of_shows (h : Text.Shows text seen) :
    nesting depth .outside text = some inner ↔
      (∀ front, front <+: seen → front.count ')' ≤ depth + front.count '(') ∧
        depth + seen.count '(' = inner + seen.count ')' := by
  induction h generalizing depth with
  | nil => simp [nesting]
  | @plain c text seen hquote _ ih =>
      have hnext : Quoting.outside.next c = .outside := if_neg hquote
      rw [nesting, hnext, forall_prefix_cons_iff]
      by_cases hopen : c = '('
      · subst hopen
        rw [step?_open, Option.bind_some, ih]
        simp [Nat.add_right_comm, Nat.add_assoc]
      · by_cases hclose : c = ')'
        · subst hclose
          cases depth with
          | zero =>
              -- The first character closes a group that is not open.
              rw [step?_eq_none_iff.mpr ⟨rfl, rfl, rfl⟩]
              simp only [Option.bind_none, reduceCtorEq, false_iff]
              rintro ⟨⟨-, hopened⟩, -⟩
              simpa using hopened [] List.nil_prefix
          | succ outer =>
              rw [step?_close, Option.bind_some, ih]
              simp [Nat.add_right_comm, ← Nat.add_assoc]
        · rw [step?_plain depth (by simp [hopen, hclose]), Option.bind_some, ih]
          simp [hopen, hclose]
  | literal hbody _ ih =>
      have hliteral := hbody.literal
      rw [List.append_cons, ← List.cons_append, nesting_append,
        nesting_of_avoids (hliteral.avoids (by simp)), hliteral.run]
      exact ih

theorem balanced_iff : Balanced text ↔ Text.Interior text := by
  constructor
  · rintro ⟨hdepth, hclosed⟩
    obtain ⟨seen, hseen⟩ := Text.endsOutside_iff.mpr hclosed
    obtain ⟨hopened, hequal⟩ := (nesting_of_shows hseen).mp hdepth
    exact ⟨seen, hseen, by simpa using hopened, by simpa using hequal⟩
  · rintro ⟨seen, hseen, hpaired⟩
    refine ⟨(nesting_of_shows hseen).mpr ⟨?_, ?_⟩, hseen.run⟩
    · simpa using hpaired.opened
    · simpa using hpaired.closed

/-- A literal that is left open hides all that follows it, so no group ends behind it. -/
theorem group?_of_unclosed (hfront : Text.Shows front seen)
    (hopened : ∀ start, start <+: seen → start.count ')' ≤ start.count '(')
    (hbody : Quoted.Unclosed body) : group? (front ++ '"' :: body) = none := by
  have hall := hopened seen (List.prefix_refl seen)
  have hdepth : nesting 0 .outside front = some (seen.count '(' - seen.count ')') :=
    (nesting_of_shows hfront).mpr ⟨by simpa using hopened, by omega⟩
  rw [group?, splitBeforeClose?_of_nesting hdepth, hfront.run, Option.map_eq_none_iff,
    Option.eq_none_iff_forall_ne_some]
  rintro ⟨before, left⟩ hsplit
  obtain ⟨hwhole, hclose, -, hrun⟩ := splitBeforeClose?_eq_some_iff.mp hsplit
  cases before with
  | nil =>
      rw [← List.nil_append left, ← hwhole] at hclose
      cases hclose
  | cons c more =>
      obtain ⟨rfl, rfl⟩ := List.cons_eq_cons.mp hwhole
      obtain ⟨literal, value, rest, rfl, hliteral, -⟩ := Quoted.exists_of_run_inside hrun
      exact hbody literal (rest ++ left) (by simp) value hliteral

end Lexeme

instance (text : Text) : Decidable text.Interior :=
  decidable_of_iff _ Lexeme.balanced_iff

namespace Cursor

variable {cursor : Cursor}

theorem takeGroup_of_group? (h : Lexeme.group? cursor.rest = none) :
    cursor.takeGroup = (none, cursor.moveTo []) := by
  rw [takeGroup, h]

theorem takeGroup_eq_none_iff :
    (∃ ending, cursor.takeGroup = (none, ending) ∧ cursor.Takes cursor.rest ending) ↔
      Lexeme.group? cursor.rest = none := by
  constructor
  · rintro ⟨ending, htake, -⟩
    unfold takeGroup at htake
    split at htake
    · cases htake
    · next hnone => exact hnone
  · intro hnone
    exact ⟨_, takeGroup_of_group? hnone, takes_moveTo (List.append_nil _).symm⟩

/-- The interior of a group is found exactly when what lies after the cursor is an interior, a
closing parenthesis and more, and the cursor is then before that parenthesis. There is only one
such interior. When there is none the cursor is at the end, as it is when a literal is left open
before the group is closed. -/
theorem takeGroup_matching (cursor : Cursor) :
    (∀ interior more, cursor.rest = interior ++ ')' :: more ∧ Text.Interior interior ↔
      ∃ closing, cursor.takeGroup = (some interior, closing) ∧ cursor.Takes interior closing ∧
        closing.rest = ')' :: more) ∧
    (∀ interior more other rest, cursor.rest = interior ++ ')' :: more → Text.Interior interior →
      cursor.rest = other ++ ')' :: rest → Text.Interior other → interior = other) ∧
    ((∀ interior more, cursor.rest = interior ++ ')' :: more → ¬Text.Interior interior) ↔
      ∃ ending, cursor.takeGroup = (none, ending) ∧ cursor.Takes cursor.rest ending) ∧
    ∀ front seen body, cursor.rest = front ++ '"' :: body → Text.Shows front seen →
      (∀ start, start <+: seen → start.count ')' ≤ start.count '(') → Quoted.Unclosed body →
      ∃ ending, cursor.takeGroup = (none, ending) ∧ cursor.Takes cursor.rest ending := by
  have hfound {interior more : Text} (hrest : cursor.rest = interior ++ ')' :: more)
      (hinterior : Text.Interior interior) :
      cursor.takeGroup = (some interior, cursor.moveTo (')' :: more)) :=
    takeGroup_eq hrest (Lexeme.balanced_iff.mpr hinterior)
  refine ⟨fun interior more => ?_, ?_, ?_, ?_⟩
  · constructor
    · rintro ⟨hrest, hinterior⟩
      exact ⟨_, hfound hrest hinterior, takes_moveTo hrest, rfl⟩
    · rintro ⟨closing, htake, htakes, hclosing⟩
      rw [htakes.rest_eq, hclosing]
      exact ⟨rfl, Lexeme.balanced_iff.mp (takes_of_takeGroup htake).2⟩
  · intro interior more other rest hrest hinterior hsame hother
    have hboth := (hfound hrest hinterior).symm.trans (hfound hsame hother)
    exact Option.some.inj (Prod.mk.inj hboth).1
  · rw [takeGroup_eq_none_iff, Option.eq_none_iff_forall_ne_some]
    constructor
    · rintro hnone ⟨interior, left⟩ hgroup
      obtain ⟨hrest, hclose, hbalanced⟩ := Lexeme.group?_eq_some_iff.mp hgroup
      obtain ⟨more, rfl⟩ := List.head?_eq_some_iff.mp hclose
      exact hnone interior more hrest (Lexeme.balanced_iff.mp hbalanced)
    · intro hnone interior more hrest hinterior
      exact hnone _ (Lexeme.group?_eq_some_iff.mpr
        ⟨hrest, rfl, Lexeme.balanced_iff.mpr hinterior⟩)
  · intro front seen body hrest hfront hopened hbody
    rw [takeGroup_eq_none_iff, hrest]
    exact Lexeme.group?_of_unclosed hfront hopened hbody

/-- Parentheses in a literal do not count, and behind a literal that is left open there are none. -/
theorem takeGroup_matching_literal :
    let interior := "(a == \")\\\")\") || b".toList
    let nested := start (interior ++ ") && c".toList) 0
    let unclosed := start "a == (b) || \")\" && \"c\\\")".toList 0
    (∃ closing, nested.takeGroup = (some interior, closing) ∧ nested.Takes interior closing ∧
      closing.rest = ") && c".toList) ∧
    (∀ other rest, nested.rest = other ++ ')' :: rest → Text.Interior other → interior = other) ∧
    ∃ ending, unclosed.takeGroup = (none, ending) ∧ unclosed.Takes unclosed.rest ending := by
  intro interior nested unclosed
  have hinterior : Text.Interior interior := by decide +kernel
  have hfront : Text.Interior "a == (b) || \")\" && ".toList := by decide +kernel
  have hbody : Quoted.Unclosed "c\\\")".toList := by decide
  obtain ⟨seen, hseen, hpaired⟩ := hfront
  obtain ⟨hfound, honly, -, -⟩ := takeGroup_matching nested
  obtain ⟨-, -, -, hunclosed⟩ := takeGroup_matching unclosed
  exact ⟨(hfound _ _).mp ⟨rfl, hinterior⟩,
    fun other rest hrest => honly _ _ other rest rfl hinterior hrest,
    hunclosed _ seen _ rfl hseen hpaired.opened hbody⟩

end Cursor

end Criteria
