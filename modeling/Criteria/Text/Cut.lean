import Criteria.Text

/-!
Cutting a text at a byte of its encoding. A byte within a character, or behind the end, is no
place to cut at, and then there is no part of the text to give.
-/

namespace Criteria

/-- A byte at which a text cannot be cut. -/
structure Misplaced where
  index : Nat
deriving DecidableEq, Repr

namespace Text

/-- The parts of a text before and after a byte. -/
def cut? : Text → Nat → Option (Text × Text)
  | text, 0 => some ([], text)
  | [], _ + 1 => none
  | c :: rest, index + 1 =>
      if c.utf8Size ≤ index + 1 then
        (cut? rest (index + 1 - c.utf8Size)).map fun (before, after) => (c :: before, after)
      else none

def before (text : Text) (index : Nat) : Except Misplaced Text :=
  match text.cut? index with
  | some (before, _) => .ok before
  | none => .error ⟨index⟩

def after (text : Text) (index : Nat) : Except Misplaced Text :=
  match text.cut? index with
  | some (_, after) => .ok after
  | none => .error ⟨index⟩

/-- The text from one byte to another, which must not come first. -/
def between (text : Text) (first last : Nat) : Except Misplaced Text := do
  (← text.before last).after first

theorem byteLength_eq_zero_iff {text : Text} : text.byteLength = 0 ↔ text = [] := by
  cases text with
  | nil => simp
  | cons c rest =>
      have hpos := c.utf8Size_pos
      rw [byteLength_cons]
      simp only [reduceCtorEq, iff_false]
      omega

theorem cut?_eq_some_iff {text before after : Text} {index : Nat} :
    text.cut? index = some (before, after) ↔
      text = before ++ after ∧ before.byteLength = index := by
  fun_induction cut? text index generalizing before with
  | case1 text =>
      constructor
      · rintro h
        obtain ⟨rfl, rfl⟩ := Prod.mk.inj (Option.some.inj h)
        exact ⟨rfl, rfl⟩
      · rintro ⟨rfl, hlength⟩
        obtain rfl := byteLength_eq_zero_iff.mp hlength
        rfl
  | case2 index =>
      constructor
      · intro h
        cases h
      · rintro ⟨hnil, hlength⟩
        obtain ⟨rfl, -⟩ := List.append_eq_nil_iff.mp hnil.symm
        cases hlength
  | case3 c rest index hfits ih =>
      rw [Option.map_eq_some_iff]
      constructor
      · rintro ⟨⟨front, left⟩, hcut, hsame⟩
        obtain ⟨rfl, rfl⟩ := Prod.mk.inj hsame
        obtain ⟨rfl, hlength⟩ := ih.mp hcut
        refine ⟨rfl, ?_⟩
        rw [byteLength_cons]
        omega
      · rintro ⟨hwhole, hlength⟩
        cases before with
        | nil => cases hlength
        | cons d front =>
            obtain ⟨rfl, rfl⟩ := List.cons.inj hwhole
            rw [byteLength_cons] at hlength
            exact ⟨(front, after), ih.mpr ⟨rfl, by omega⟩, rfl⟩
  | case4 c rest index hshort =>
      constructor
      · intro h
        cases h
      · rintro ⟨hwhole, hlength⟩
        cases before with
        | nil => cases hlength
        | cons d front =>
            obtain ⟨rfl, -⟩ := List.cons.inj hwhole
            rw [byteLength_cons] at hlength
            omega

variable {a b text left : Text}

theorem cut?_append (a b : Text) : (a ++ b).cut? a.byteLength = some (a, b) :=
  cut?_eq_some_iff.mpr ⟨rfl, rfl⟩

theorem before_append (a b : Text) : (a ++ b).before a.byteLength = .ok a := by
  rw [before, cut?_append]

theorem after_append (a b : Text) : (a ++ b).after a.byteLength = .ok b := by
  rw [after, cut?_append]

theorem after_eq_ok_iff {index : Nat} :
    text.after index = .ok left ↔ ∃ front, text = front ++ left ∧ front.byteLength = index := by
  constructor
  · intro h
    unfold after at h
    split at h
    · next front left' hcut =>
      cases h
      exact ⟨front, cut?_eq_some_iff.mp hcut⟩
    · cases h
  · rintro ⟨front, rfl, rfl⟩
    exact after_append front left

theorem between_append (a b c : Text) :
    (a ++ (b ++ c)).between a.byteLength (a ++ b).byteLength = .ok b := by
  rw [← List.append_assoc, between, before_append]
  exact after_append a b

end Text

end Criteria
