import Criteria.Proofs.Scalar.Symmetry
import Criteria.Proofs.Text.Lowercase
import Mathlib.Data.List.Basic

/-!
Containment without regard to case. What a value contains with regard to case it contains
without, with one exception: a text can lose a part which has a capital sigma at one of its
ends, because it depends on the letters around the part whether the sigma ends a word.
-/

namespace Criteria

namespace Number

theorem of_mem_positional {digits : Nat} {exponent : Int} {c : Char}
    (h : c ∈ positional digits exponent) : c.isDigit = true ∨ c = '.' := by
  let written := Text.ofNat digits ++ List.replicate exponent.toNat '0'
  let padded := List.replicate ((-exponent).toNat + 1 - written.length) '0' ++ written
  have hpadded (c : Char) (h : c ∈ padded) : c.isDigit = true := by
    simp only [padded, written, List.mem_append, List.mem_replicate] at h
    rcases h with ⟨-, rfl⟩ | hdigit | ⟨-, rfl⟩
    · rfl
    · exact Nat.isDigit_of_mem_toDigits (by decide) (by decide) hdigit
    · rfl
  have hwhole {n : Nat} (h : c ∈ padded.take n) : c.isDigit = true :=
    hpadded c (List.mem_of_mem_take h)
  have hfraction {n : Nat} (h : c ∈ ((padded.drop n).reverse.dropWhile (· == '0')).reverse) :
      c.isDigit = true := by
    have hmem := (List.dropWhile_sublist _).mem (List.mem_reverse.mp h)
    exact hpadded c (List.mem_of_mem_drop (List.mem_reverse.mp hmem))
  simp only [positional] at h
  split at h
  · exact .inl (hwhole h)
  · rcases List.mem_append.mp h with hmem | hmem
    · exact .inl (hwhole hmem)
    · rcases List.mem_cons.mp hmem with rfl | hmem
      · exact .inr rfl
      · exact .inl (hfraction hmem)

theorem sigma_not_mem_text (n : Number) : 'Σ' ∉ n.text := by
  have hmagnitude (units : Nat) : 'Σ' ∉ magnitudeText units := by
    intro h
    rcases hshortest : shortest units with ⟨digits, exponent⟩
    rw [magnitudeText, hshortest] at h
    split at h
    · exact absurd h (by decide)
    · rcases of_mem_positional h with hdigit | hpoint
      · exact absurd hdigit (by decide +kernel)
      · exact absurd hpoint (by decide)
  cases n with
  | nan => decide
  | infinite negative => cases negative <;> decide
  | finite negative units =>
      cases negative with
      | false => exact hmagnitude units
      | true => exact List.not_mem_cons_of_ne_of_not_mem (by decide) (hmagnitude units)

end Number

namespace Scalar

open Text.Lowercase

variable {collation : Collation}

/-- A text contains another one when that stands in it, as they are compared. -/
theorem contains_text_iff (text part : Text) :
    (Scalar.text text).contains collation (.text part) = true ↔
      collation.key part <:+: collation.key text := by
  rw [contains, Bool.or_eq_true, Collation.includes, Text.includes_iff,
    equals_eq_compare (.inl rfl), beq_iff_eq, compare, Option.some.injEq,
    collation.compare_eq_eq_iff, or_iff_right_iff_imp]
  intro hsame
  simp only [hsame, List.infix_refl]

/-- A part without a capital sigma stays a part in lower case. -/
theorem includes_of_ordinal {text part : Text} (hsigma : 'Σ' ∉ part)
    (h : Collation.ordinal.includes text part = true) :
    Collation.ordinalIgnoreCase.includes text part = true := by
  rw [Collation.includes, Text.includes_iff] at h ⊢
  exact settlesSigmas_iff.mp (settlesSigmas_of_not_mem hsigma) text h

theorem contains_of_ordinal {left right : Scalar} (h : left.contains .ordinal right = true)
    (hsigmas : ∀ text part, left = .text text → right = .text part →
      ∃ before rest, text = before ++ part ++ rest ∧ KeepsSigmas before part rest) :
    left.contains .ordinalIgnoreCase right = true := by
  unfold contains at h ⊢
  by_cases hequal : left.equals .ordinal right = true
  · rw [equals_of_ordinal _ hequal, Bool.true_or]
  · rw [Bool.eq_false_iff.mpr hequal, Bool.false_or] at h
    rw [Bool.or_eq_true]
    right
    cases left with
    | text text =>
        cases right with
        | text part =>
            obtain ⟨before, rest, rfl, hkeeps⟩ := hsigmas text part rfl rfl
            exact (Text.includes_iff _ _).mpr (lowercase_isInfix hkeeps)
        | number n => exact includes_of_ordinal n.sigma_not_mem_text h
        | bool b =>
            refine includes_of_ordinal ?_ h
            cases b <;> decide
        | _ => cases h
    | list items =>
        obtain ⟨item, hmem, hitem⟩ := List.any_eq_true.mp h
        exact List.any_eq_true.mpr ⟨item, hmem, equals_of_ordinal _ hitem⟩
    | _ => cases h

/-- Ignoring case a value contains what it contains otherwise, if this is no text in a text.
A text in a text is still contained when at some place of it every capital sigma of the part
ends a word exactly when it does in the part alone. The parts which no text loses are those
whose own characters settle which of their sigmas end a word. -/
theorem contains_ignoringCase :
    (∀ left right : Scalar, left.contains .ordinal right = true →
      (∀ text part, left = .text text → right = .text part →
        ∃ before rest, text = before ++ part ++ rest ∧ KeepsSigmas before part rest) →
      left.contains .ordinalIgnoreCase right = true) ∧
    ∀ part, (∀ text, (Scalar.text text).contains .ordinal (.text part) = true →
        (Scalar.text text).contains .ordinalIgnoreCase (.text part) = true) ↔
      SettlesSigmas part := by
  refine ⟨fun _ _ => contains_of_ordinal, fun part => ?_⟩
  simp only [contains_text_iff]
  exact settlesSigmas_iff.symm

/-- A capital sigma with an apostrophe behind it, which is passed over. It ends a word at the
second place of the part only. -/
theorem contains_ignoringCase_apostrophe :
    let left : Scalar := .text "ΑΣ'Α ΑΣ'".toList
    let right : Scalar := .text "ΑΣ'".toList
    left.contains .ordinal right = true ∧ left.contains .ordinalIgnoreCase right = true := by
  intro left right
  have hcontains : left.contains .ordinal right = true := by decide +kernel
  refine ⟨hcontains, contains_ignoringCase.1 left right hcontains fun text part hleft hright => ?_⟩
  obtain rfl := Scalar.text.inj hleft
  obtain rfl := Scalar.text.inj hright
  refine ⟨"ΑΣ'Α ".toList, [], by decide, fun x y hsplit => ?_⟩
  obtain ⟨rfl, -, rfl⟩ : ['Α'] = x ∧ 'Σ' = 'Σ' ∧ ['\''] = y :=
    (List.append_cons_inj_of_notMem (by decide) (by decide)).mp hsplit
  decide +kernel

/-- A text ends with a sigma, which ends no word where a letter follows it. -/
theorem not_contains_ignoringCase_sigma :
    let left : Scalar := .text "ΑΣΑ".toList
    let right : Scalar := .text "ΑΣ".toList
    left.contains .ordinal right = true ∧ left.contains .ordinalIgnoreCase right = false := by
  decide +kernel

end Scalar

end Criteria
