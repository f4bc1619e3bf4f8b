import Criteria.Cursor.Move
import Criteria.Proofs.Number.Whole
import Criteria.Proofs.Operand.Recognition
import Criteria.Proofs.Scanning.Cursor

/-!
The grammar of numbers in scripts: an optional minus, digits, and optionally a point with digits
behind it. The reader of numbers takes the longest start of a text which is of this form, with one
exception. A point that no digit follows does not belong to the number, but is taken with it.
-/

namespace Criteria

/-- The longest text of a kind with which a text starts. -/
structure Text.Longest (kind : Text → Prop) (front text : Text) : Prop where
  of_kind : kind front
  starts : front <+: text
  longest : ∀ other, kind other → other <+: text → other.length ≤ front.length

theorem Text.Longest.unique {kind : Text → Prop} {first second text : Text}
    (hfirst : Longest kind first text) (hsecond : Longest kind second text) : first = second := by
  have hle : first <+: second := List.prefix_of_prefix_length_le hfirst.starts hsecond.starts
    (hsecond.longest first hfirst.of_kind hfirst.starts)
  exact hle.eq_of_length_le (hfirst.longest second hsecond.of_kind hsecond.starts)

namespace Number

/-- A row of digits, at least one. -/
structure Digits (text : Text) : Prop where
  ne_nil : text ≠ []
  isDigit : ∀ c ∈ text, c.isDigit = true

/-- A number without its sign. -/
inductive Magnitude : Text → Prop
  | whole {digits : Text} (hdigits : Digits digits) : Magnitude digits
  | fraction {digits fraction : Text} (hdigits : Digits digits) (hfraction : Digits fraction) :
      Magnitude (digits ++ '.' :: fraction)

inductive Decimal : Text → Prop
  | plain {text : Text} (h : Magnitude text) : Decimal text
  | negative {text : Text} (h : Magnitude text) : Decimal ('-' :: text)

/-- The numeral has no point, and the text goes on with one. -/
structure Dangles (numeral text : Text) : Prop where
  no_point : '.' ∉ numeral
  point : numeral ++ ['.'] <+: text

/-- What is left of a text when a number is read off its start. -/
inductive Reads (kind : Text → Prop) (text : Text) : Option Text → Prop
  | nothing (h : ∀ front, kind front → ¬front <+: text) : Reads kind text none
  | numeral {numeral left : Text} (hnumeral : Text.Longest kind numeral text)
      (hpoint : ¬Dangles numeral text) (hwhole : text = numeral ++ left) :
      Reads kind text (some left)
  | dangling {numeral left : Text} (hnumeral : Text.Longest kind numeral text)
      (hpoint : Dangles numeral text) (hwhole : text = numeral ++ '.' :: left) :
      Reads kind text (some left)

variable {text digits fraction numeral left more other : Text} {value : Number}

theorem digits_iff_all : Digits text ↔ text ≠ [] ∧ text.all Char.isDigit = true := by
  rw [List.all_eq_true]
  exact ⟨fun h => ⟨h.ne_nil, h.isDigit⟩, fun h => ⟨h.1, h.2⟩⟩

instance : Decidable (Digits text) :=
  decidable_of_iff _ digits_iff_all.symm

theorem Digits.takeWhile_append (h : Digits digits) (more : Text) :
    (digits ++ more).takeWhile Char.isDigit = digits ++ more.takeWhile Char.isDigit :=
  List.takeWhile_append_of_pos h.isDigit

theorem digits_takeWhile (h : text.takeWhile Char.isDigit ≠ []) :
    Digits (text.takeWhile Char.isDigit) :=
  ⟨h, fun _ hc => List.mem_takeWhile_imp hc⟩

/-- Digits at the start of a text belong to the row of digits with which it starts. -/
theorem Digits.prefix_takeWhile (h : Digits digits) (hstarts : digits <+: text) :
    digits <+: text.takeWhile Char.isDigit := by
  obtain ⟨more, rfl⟩ := hstarts
  rw [h.takeWhile_append]
  exact List.prefix_append ..

theorem Digits.point_not_mem (h : Digits digits) : '.' ∉ digits := by
  intro hmem
  exact absurd (h.isDigit _ hmem) (by decide)

/-- Digits up to a point are the whole row. -/
theorem Digits.eq_takeWhile_of_point (h : Digits digits)
    (hstarts : digits ++ '.' :: fraction <+: text) :
    digits = text.takeWhile Char.isDigit ∧ '.' :: fraction <+: text.dropWhile Char.isDigit := by
  obtain ⟨more, rfl⟩ := hstarts
  rw [List.append_assoc, h.takeWhile_append, List.dropWhile_append_of_pos h.isDigit,
    List.cons_append, List.takeWhile_cons_of_neg (by decide),
    List.dropWhile_cons_of_neg (by decide), List.append_nil]
  exact ⟨rfl, List.prefix_append ('.' :: fraction) more⟩

theorem Digits.exists_cons (h : Digits digits) :
    ∃ c rest, digits = c :: rest ∧ c.isDigit = true := by
  obtain ⟨c, rest, rfl⟩ := List.exists_cons_of_ne_nil h.ne_nil
  exact ⟨c, rest, rfl, h.isDigit c List.mem_cons_self⟩

theorem Digits.exists_concat (h : Digits digits) :
    ∃ front c, digits = front ++ [c] ∧ c.isDigit = true :=
  ⟨digits.dropLast, digits.getLast h.ne_nil, (List.dropLast_concat_getLast h.ne_nil).symm,
    h.isDigit _ (List.getLast_mem h.ne_nil)⟩

theorem Magnitude.exists_cons (h : Magnitude text) :
    ∃ c rest, text = c :: rest ∧ c.isDigit = true := by
  cases h with
  | whole h => exact h.exists_cons
  | fraction h _ =>
      obtain ⟨c, rest, rfl, hdigit⟩ := h.exists_cons
      exact ⟨c, _, List.cons_append, hdigit⟩

theorem Magnitude.exists_concat (h : Magnitude text) :
    ∃ front c, text = front ++ [c] ∧ c.isDigit = true := by
  cases h with
  | whole h => exact h.exists_concat
  | @fraction digits fraction _ h =>
      obtain ⟨front, c, rfl, hdigit⟩ := h.exists_concat
      exact ⟨digits ++ '.' :: front, c, by simp, hdigit⟩

/-- A row of digits is the longest number with which the text starts, if no point with a digit
behind it follows. -/
theorem longest_whole (text : Text) (hdigits : text.takeWhile Char.isDigit ≠ [])
    (hfraction : ∀ more, text.dropWhile Char.isDigit = '.' :: more →
      more.takeWhile Char.isDigit = []) :
    Text.Longest Magnitude (text.takeWhile Char.isDigit) text := by
  refine ⟨.whole (digits_takeWhile hdigits), List.takeWhile_prefix _, ?_⟩
  intro other hother hstarts
  cases hother with
  | whole h => exact (h.prefix_takeWhile hstarts).length_le
  | fraction h hbehind =>
      obtain ⟨-, more, hrest⟩ := h.eq_takeWhile_of_point hstarts
      rw [List.cons_append] at hrest
      have hnone := hfraction _ hrest.symm
      rw [hbehind.takeWhile_append] at hnone
      exact absurd (List.append_eq_nil_iff.mp hnone).1 hbehind.ne_nil

theorem longest_fraction (text : Text) (hdigits : text.takeWhile Char.isDigit ≠ [])
    (hpoint : text.dropWhile Char.isDigit = '.' :: more)
    (hfraction : more.takeWhile Char.isDigit ≠ []) :
    Text.Longest Magnitude (text.takeWhile Char.isDigit ++ '.' :: more.takeWhile Char.isDigit)
      text := by
  refine ⟨.fraction (digits_takeWhile hdigits) (digits_takeWhile hfraction), ?_, ?_⟩
  · refine ⟨more.dropWhile Char.isDigit, ?_⟩
    rw [List.append_assoc, List.cons_append, List.takeWhile_append_dropWhile, ← hpoint,
      List.takeWhile_append_dropWhile]
  · intro other hother hstarts
    cases hother with
    | whole h =>
        have hle := (h.prefix_takeWhile hstarts).length_le
        rw [List.length_append]
        omega
    | fraction h hbehind =>
        obtain ⟨rfl, hrest⟩ := h.eq_takeWhile_of_point hstarts
        rw [hpoint, List.prefix_cons_inj] at hrest
        have hle := (hbehind.prefix_takeWhile hrest).length_le
        simp only [List.length_append, List.length_cons]
        omega

/-- Without a sign, the digits and what the point brings with it are taken. -/
theorem reads_magnitude (hdigits : text.takeWhile Char.isDigit ≠ []) :
    Reads Magnitude text (some (splitFraction (text.dropWhile Char.isDigit)).2) := by
  have hwhole : text = text.takeWhile Char.isDigit ++ text.dropWhile Char.isDigit :=
    List.takeWhile_append_dropWhile.symm
  unfold splitFraction
  split
  · next more hpoint =>
    by_cases hfraction : more.takeWhile Char.isDigit = []
    · have hmore : more.dropWhile Char.isDigit = more := by
        have hsplit : more.takeWhile Char.isDigit ++ more.dropWhile Char.isDigit = more :=
          List.takeWhile_append_dropWhile
        rwa [hfraction, List.nil_append] at hsplit
      have hlongest := longest_whole text hdigits fun more' hsame => by
        rw [hpoint] at hsame
        obtain rfl := (List.cons.inj hsame).2
        exact hfraction
      rw [hpoint] at hwhole
      refine .dangling hlongest ⟨(digits_takeWhile hdigits).point_not_mem, more, ?_⟩ ?_
      · simpa using hwhole.symm
      · simpa only [hmore] using hwhole
    · have hlongest := longest_fraction text hdigits hpoint hfraction
      refine .numeral hlongest (fun h => h.no_point (by simp)) ?_
      rw [List.append_assoc, List.cons_append, List.takeWhile_append_dropWhile, ← hpoint]
      exact hwhole
  · next hpoint =>
    have hlongest := longest_whole text hdigits fun more hsame => absurd hsame (hpoint more)
    refine .numeral hlongest (fun h => ?_) hwhole
    obtain ⟨-, more, hmore⟩ := (digits_takeWhile hdigits).eq_takeWhile_of_point h.point
    exact hpoint more hmore.symm

/-- What can stand before the digits of a number at the start of a text which `text` is the
rest of. -/
def Signs (sign text : Text) : Prop :=
  sign = ['-'] ∨ sign = [] ∧ text.head? ≠ some '-'

/-- With the sign taken off, the numbers at the start of the text have no sign. -/
theorem Signs.decimal_iff {sign front : Text} (h : Signs sign text) :
    Decimal front ∧ front <+: sign ++ text ↔
      ∃ numeral, front = sign ++ numeral ∧ Magnitude numeral ∧ numeral <+: text := by
  constructor
  · rintro ⟨hfront, hstarts⟩
    rcases h with rfl | ⟨rfl, hhead⟩
    · cases hfront with
      | plain hnumeral =>
          obtain ⟨c, rest, rfl, hdigit⟩ := hnumeral.exists_cons
          obtain ⟨rfl, -⟩ := List.cons_prefix_cons.mp hstarts
          cases hdigit
      | negative hnumeral =>
          exact ⟨_, rfl, hnumeral, (List.prefix_cons_inj '-').mp hstarts⟩
    · cases hfront with
      | plain hnumeral => exact ⟨front, rfl, hnumeral, hstarts⟩
      | negative hnumeral =>
          obtain ⟨more, rfl⟩ := hstarts
          exact absurd rfl hhead
  · rintro ⟨numeral, rfl, hnumeral, hstarts⟩
    refine ⟨?_, (List.prefix_append_right_inj sign).mpr hstarts⟩
    rcases h with rfl | ⟨rfl, -⟩
    · exact .negative hnumeral
    · exact .plain hnumeral

theorem Signs.longest {sign : Text} (h : Signs sign text)
    (hnumeral : Text.Longest Magnitude numeral text) :
    Text.Longest Decimal (sign ++ numeral) (sign ++ text) := by
  obtain ⟨hkind, hstarts⟩ :=
    h.decimal_iff.mpr ⟨numeral, rfl, hnumeral.of_kind, hnumeral.starts⟩
  refine ⟨hkind, hstarts, fun other hother hprefix => ?_⟩
  obtain ⟨rest, rfl, hrest, hle⟩ := h.decimal_iff.mp ⟨hother, hprefix⟩
  rw [List.length_append, List.length_append]
  exact Nat.add_le_add_left (hnumeral.longest rest hrest hle) _

theorem Signs.dangles_iff {sign : Text} (h : Signs sign text) :
    Dangles (sign ++ numeral) (sign ++ text) ↔ Dangles numeral text := by
  have hpoint : '.' ∉ sign := by
    rcases h with rfl | ⟨rfl, -⟩
    · decide
    · exact List.not_mem_nil
  constructor
  · rintro ⟨hnone, hstarts⟩
    rw [List.append_assoc, List.prefix_append_right_inj] at hstarts
    exact ⟨fun hmem => hnone (List.mem_append_right _ hmem), hstarts⟩
  · rintro ⟨hnone, hstarts⟩
    refine ⟨fun hmem => (List.mem_append.mp hmem).elim hpoint hnone, ?_⟩
    rwa [List.append_assoc, List.prefix_append_right_inj]

theorem Signs.reads {sign : Text} {found : Option Text} (h : Signs sign text)
    (hreads : Reads Magnitude text found) : Reads Decimal (sign ++ text) found := by
  cases hreads with
  | nothing hnone =>
      refine .nothing fun front hfront hstarts => ?_
      obtain ⟨numeral, -, hnumeral, hprefix⟩ := h.decimal_iff.mp ⟨hfront, hstarts⟩
      exact hnone numeral hnumeral hprefix
  | numeral hnumeral hpoint hwhole =>
      refine .numeral (h.longest hnumeral) (mt h.dangles_iff.mp hpoint) ?_
      rw [List.append_assoc, ← hwhole]
  | dangling hnumeral hpoint hwhole =>
      refine .dangling (h.longest hnumeral) (h.dangles_iff.mpr hpoint) ?_
      rw [List.append_assoc, ← hwhole]

theorem Decimal.exists_concat (h : Decimal text) :
    ∃ front c, text = front ++ [c] ∧ c.isDigit = true := by
  cases h with
  | plain h => exact h.exists_concat
  | negative h =>
      obtain ⟨front, c, rfl, hdigit⟩ := h.exists_concat
      exact ⟨'-' :: front, c, rfl, hdigit⟩

theorem not_decimal_point (numeral : Text) : ¬Decimal (numeral ++ ['.']) := by
  intro h
  obtain ⟨front, c, hwhole, hdigit⟩ := h.exists_concat
  obtain ⟨-, hsame⟩ := List.append_inj' hwhole rfl
  obtain rfl := (List.cons.inj hsame).1
  cases hdigit

/-- A point behind a number is not part of it. -/
theorem Decimal.longest_point (h : Decimal numeral) :
    Text.Longest Decimal numeral (numeral ++ ['.']) := by
  refine ⟨h, List.prefix_append .., fun other hother hstarts => ?_⟩
  rcases List.prefix_concat_iff.mp hstarts with rfl | hprefix
  · exact absurd hother (not_decimal_point numeral)
  · exact hprefix.length_le

theorem Decimal.longest_self (h : Decimal text) : Text.Longest Decimal text text :=
  ⟨h, List.prefix_refl text, fun _ _ hstarts => hstarts.length_le⟩

theorem Dangles.not_self : ¬Dangles text text := by
  intro h
  have hle := h.point.length_le
  rw [List.length_append, List.length_singleton] at hle
  omega

variable {kind : Text → Prop} {found : Option Text}

theorem Reads.eq_none_iff (h : Reads kind text found) :
    found = none ↔ ∀ front, kind front → ¬front <+: text := by
  cases h with
  | nothing hnone => simpa using hnone
  | numeral hnumeral _ _ => simpa using ⟨_, hnumeral.of_kind, hnumeral.starts⟩
  | dangling hnumeral _ _ => simpa using ⟨_, hnumeral.of_kind, hnumeral.starts⟩

theorem Reads.exists_longest {front : Text} (h : Reads kind text found) (hfront : kind front)
    (hstarts : front <+: text) : ∃ numeral, Text.Longest kind numeral text := by
  cases h with
  | nothing hnone => exact absurd hstarts (hnone front hfront)
  | numeral hnumeral _ _ => exact ⟨_, hnumeral⟩
  | dangling hnumeral _ _ => exact ⟨_, hnumeral⟩

theorem Reads.of_longest (h : Reads kind text found) (hlongest : Text.Longest kind numeral text) :
    ∃ left, found = some left ∧ (¬Dangles numeral text → text = numeral ++ left) ∧
      (Dangles numeral text → text = numeral ++ '.' :: left) := by
  cases h with
  | nothing hnone => exact absurd hlongest.starts (hnone numeral hlongest.of_kind)
  | numeral hnumeral hpoint hwhole =>
      obtain rfl := hnumeral.unique hlongest
      exact ⟨_, rfl, fun _ => hwhole, fun hdangles => absurd hdangles hpoint⟩
  | dangling hnumeral hpoint hwhole =>
      obtain rfl := hnumeral.unique hlongest
      exact ⟨_, rfl, fun hnot => absurd hpoint hnot, fun _ => hwhole⟩

/-- Something is read off in any case. -/
theorem Reads.exists_append (h : Reads Decimal text (some left)) :
    ∃ taken, taken ≠ [] ∧ text = taken ++ left := by
  cases h with
  | @numeral numeral _ hnumeral _ hwhole =>
      obtain ⟨front, c, rfl, -⟩ := hnumeral.of_kind.exists_concat
      exact ⟨front ++ [c], by simp, hwhole⟩
  | @dangling numeral _ _ _ hwhole => exact ⟨numeral ++ ['.'], by simp, by simpa using hwhole⟩

theorem Reads.eq_nil_iff (h : Reads Decimal text found) :
    found = some [] ↔
      Decimal text ∨ ∃ whole, text = whole ++ ['.'] ∧ Decimal whole ∧ '.' ∉ whole := by
  constructor
  · rintro rfl
    cases h with
    | numeral hnumeral _ hwhole =>
        rw [List.append_nil] at hwhole
        exact .inl (hwhole ▸ hnumeral.of_kind)
    | dangling hnumeral hpoint hwhole =>
        exact .inr ⟨_, hwhole, hnumeral.of_kind, hpoint.no_point⟩
  · rintro (hdecimal | ⟨whole, rfl, hdecimal, hnone⟩)
    · obtain ⟨left, rfl, hnumeral, -⟩ := h.of_longest hdecimal.longest_self
      rw [List.append_right_eq_self.mp (hnumeral Dangles.not_self).symm]
    · obtain ⟨left, rfl, -, hdangling⟩ := h.of_longest hdecimal.longest_point
      have hwhole := hdangling ⟨hnone, List.prefix_refl _⟩
      rw [List.append_cancel_left_eq] at hwhole
      rw [← (List.cons.inj hwhole).2]

theorem reads_magnitude_none (hdigits : text.takeWhile Char.isDigit = []) :
    Reads Magnitude text none := by
  refine .nothing fun front hfront hstarts => ?_
  obtain ⟨c, rest, rfl, hdigit⟩ := hfront.exists_cons
  obtain ⟨more, rfl⟩ := hstarts
  rw [List.cons_append, List.takeWhile_cons_of_pos hdigit] at hdigits
  cases hdigits

section

variable {c : Char} {rest : Text} {negative : Bool} (hdigit : c.isDigit = true)

include hdigit

theorem toLower_of_isDigit : c.toLower = c := by
  simp only [Char.isDigit, Bool.and_eq_true, decide_eq_true_eq] at hdigit
  have hle : c.val ≤ 57 := hdigit.2
  unfold Char.toLower
  split
  · next hupper =>
    have hge : 65 ≤ c.val := hupper.1
    rw [UInt32.le_iff_toNat_le] at hle hge
    exact absurd (hge.trans hle) (by decide)
  · rfl

theorem ne_of_isDigit {d : Char} (hd : d.isDigit = false) : c ≠ d := by
  rintro rfl
  rw [hdigit] at hd
  cases hd

theorem splitSign_append :
    splitSign ((if negative then ['-'] else []) ++ c :: rest) = (negative, c :: rest) := by
  cases negative with
  | true => rfl
  | false =>
      change splitSign (c :: rest) = _
      unfold splitSign
      split
      · next hplus => exact absurd (List.cons.inj hplus).1 (ne_of_isDigit hdigit rfl)
      · exact splitMinus_of_head?_ne fun hhead =>
          ne_of_isDigit hdigit rfl (Option.some.inj hhead)

/-- A numeral with digits names no number. -/
theorem readName?_eq_none : readName? negative (c :: rest) = none := by
  have hother {d : Char} (hd : d.isDigit = false) (more : Text) :
      (c :: rest).map Char.toLower ≠ d :: more := by
    rw [List.map_cons, toLower_of_isDigit hdigit]
    exact fun hsame => ne_of_isDigit hdigit hd (List.cons.inj hsame).1
  have hinfinite (more : Text) := hother (d := 'i') rfl more
  have hnan (more : Text) := hother (d := 'n') rfl more
  simp only [readName?, hinfinite, hnan]
  rfl

end

section

variable {negative : Bool} {part : Text} (hwhole : Digits digits)
  (hfraction : ∀ c ∈ fraction, c.isDigit = true)
  (hpart : part = [] ∧ fraction = [] ∨ part = '.' :: fraction)

include hwhole hfraction hpart

theorem readUnsigned?_decimal : readUnsigned? negative (digits ++ part) =
    some (.ofDecimal negative (digits ++ fraction) (-(fraction.length : Int))) := by
  have hends : part.takeWhile Char.isDigit = [] ∧ part.dropWhile Char.isDigit = part := by
    rcases hpart with ⟨rfl, -⟩ | rfl
    · exact ⟨rfl, rfl⟩
    · exact ⟨rfl, rfl⟩
  have hsplit : splitFraction part = (fraction, []) := by
    rcases hpart with ⟨rfl, rfl⟩ | rfl
    · rfl
    · rw [splitFraction, List.takeWhile_eq_self_iff.mpr hfraction,
        List.dropWhile_eq_nil_iff.mpr hfraction]
  obtain ⟨c, rest, rfl, -⟩ := hwhole.exists_cons
  simp only [readUnsigned?, hwhole.takeWhile_append, List.dropWhile_append_of_pos hwhole.isDigit,
    hends, hsplit, List.append_nil]
  simp [readExponent?]

/-- What the reader of numbers collects is a whole numeral, also with a point at its end. -/
theorem read?_decimal : read? ((if negative then ['-'] else []) ++ (digits ++ part)) =
    some (.ofDecimal negative (digits ++ fraction) (-(fraction.length : Int))) := by
  have hunsigned : readUnsigned? negative (digits ++ part) = _ :=
    readUnsigned?_decimal hwhole hfraction hpart
  obtain ⟨c, rest, rfl, hdigit⟩ := hwhole.exists_cons
  rw [read?, List.cons_append, splitSign_append hdigit]
  simp only [readName?_eq_none hdigit, Option.none_or]
  exact hunsigned

end

end Number

theorem Lexeme.reads_number? (text : Text) :
    Number.Reads Number.Decimal text ((number? text).map Prod.snd) := by
  obtain ⟨sign, hsigns, hwhole⟩ : ∃ sign, Number.Signs sign (Number.splitMinus text).2 ∧
      text = sign ++ (Number.splitMinus text).2 := by
    unfold Number.splitMinus
    split
    · exact ⟨['-'], .inl rfl, rfl⟩
    · next hplain =>
      refine ⟨[], .inr ⟨rfl, fun hhead => ?_⟩, rfl⟩
      obtain ⟨rest, rfl⟩ := List.head?_eq_some_iff.mp hhead
      exact hplain rest rfl
  have hreads : Number.Reads Number.Magnitude (Number.splitMinus text).2
      ((number? text).map Prod.snd) := by
    simp only [number?, List.isEmpty_iff]
    split
    · next hdigits => exact Number.reads_magnitude_none hdigits
    · next hdigits => exact Number.reads_magnitude hdigits
  have hsigned := hsigns.reads hreads
  rwa [← hwhole] at hsigned

theorem OperandParser.number_recognizes_iff {text : Text} :
    (∃ value, number.Recognizes text (.literal text (.number value))) ↔
      (Lexeme.number? text).map Prod.snd = some [] := by
  constructor
  · rintro ⟨value, hrecognizes⟩
    by_contra hleft
    suffices hpasses : number.Passes text from hpasses.not_recognizes hrecognizes
    cases hnumber : Lexeme.number? text with
    | none => exact number_passes hnumber
    | some found =>
        obtain ⟨value', left⟩ := found
        cases left with
        | nil => exact absurd (by rw [hnumber]; rfl) hleft
        | cons c rest => exact number_passes_of_left hnumber
  · intro hleft
    obtain ⟨⟨value, left⟩, hnumber, rfl⟩ := Option.map_eq_some_iff.mp hleft
    exact ⟨value, number_recognizes hnumber⟩

namespace Cursor

open Number

variable {cursor after : Cursor} {left numeral text : Text}

theorem perform_readNumber (h : (Lexeme.number? cursor.rest).map Prod.snd = some left) :
    ∃ value, cursor.perform .readNumber = (.number (some value), cursor.moveTo left) := by
  obtain ⟨⟨value, left'⟩, hnumber, rfl⟩ := Option.map_eq_some_iff.mp h
  exact ⟨value, by rw [perform, readNumber?, hnumber]; rfl⟩

theorem perform_readNumber_eq_none_iff :
    cursor.perform .readNumber = (.number none, cursor) ↔
      (Lexeme.number? cursor.rest).map Prod.snd = none := by
  constructor
  · intro hperform
    by_contra hsome
    obtain ⟨left, hleft⟩ := Option.ne_none_iff_exists'.mp hsome
    obtain ⟨value, hvalue⟩ := perform_readNumber hleft
    rw [hvalue] at hperform
    cases hperform
  · intro hnone
    rw [perform, readNumber?, Option.map_eq_none_iff.mp hnone]
    rfl

/-- A number is read unless the text starts with none, and then the cursor does not move. What is
taken is the longest number with which the text starts, except that a point directly behind its
digits is taken with them, although no digit follows it. So the numbers among operands are those
of the grammar and those with such a point at their end. -/
theorem readNumber?_longest (cursor : Cursor) :
    ((∀ front, Decimal front → ¬front <+: cursor.rest) ↔
      cursor.perform .readNumber = (.number none, cursor)) ∧
    (∀ front, Decimal front → front <+: cursor.rest →
      ∃ numeral value after, Text.Longest Decimal numeral cursor.rest ∧
        cursor.perform .readNumber = (.number (some value), after) ∧
        (cursor.Takes numeral after ↔ ¬Dangles numeral cursor.rest) ∧
        (Dangles numeral cursor.rest → cursor.Takes (numeral ++ ['.']) after)) ∧
    ∀ text, (∃ value, OperandParser.number.Recognizes text (.literal text (.number value))) ↔
      Decimal text ∨ ∃ whole, text = whole ++ ['.'] ∧ Decimal whole ∧ '.' ∉ whole := by
  have hreads := Lexeme.reads_number? cursor.rest
  refine ⟨?_, ?_, ?_⟩
  · rw [perform_readNumber_eq_none_iff, hreads.eq_none_iff]
  · intro front hfront hstarts
    obtain ⟨numeral, hlongest⟩ := hreads.exists_longest hfront hstarts
    obtain ⟨left, hleft, hnumeral, hdangling⟩ := hreads.of_longest hlongest
    obtain ⟨value, hperform⟩ := perform_readNumber hleft
    refine ⟨numeral, value, cursor.moveTo left, hlongest, hperform, ⟨?_, ?_⟩, ?_⟩
    · intro htakes hdangles
      have hpoint := htakes.rest_eq.symm.trans (hdangling hdangles)
      rw [moveTo_rest, List.append_cancel_left_eq] at hpoint
      simpa using congrArg List.length hpoint
    · exact fun hnot => takes_moveTo (hnumeral hnot)
    · intro hdangles
      apply takes_moveTo
      simpa using hdangling hdangles
  · intro text
    rw [OperandParser.number_recognizes_iff, (Lexeme.reads_number? text).eq_nil_iff]

/-- A second point is left, a point behind digits alone is not, and a minus alone is no number. -/
theorem readNumber?_longest_points :
    let decimal := start "-12.50.é".toList 2
    let dangling := start "7.é".toList 2
    let minus := start "-.5".toList 2
    (Decimal "-1".toList ∧ "-1".toList <+: decimal.rest ∧
      ∃ value after, decimal.perform .readNumber = (.number (some value), after) ∧
        decimal.Takes "-12.50".toList after) ∧
    (Decimal "7".toList ∧ "7".toList <+: dangling.rest ∧
      ∃ value after, dangling.perform .readNumber = (.number (some value), after) ∧
        dangling.Takes "7.".toList after) ∧
    minus.perform .readNumber = (.number none, minus) := by
  intro decimal dangling minus
  have hone : Decimal "-1".toList := .negative (.whole (by decide))
  have hseven : Decimal "7".toList := .plain (.whole (by decide))
  obtain ⟨-, hdecimal, -⟩ := readNumber?_longest decimal
  obtain ⟨-, hdangling, -⟩ := readNumber?_longest dangling
  obtain ⟨hminus, -, -⟩ := readNumber?_longest minus
  refine ⟨⟨hone, by decide, ?_⟩, ⟨hseven, by decide, ?_⟩, hminus.mp ?_⟩
  · have hmagnitude := longest_fraction "12.50.é".toList (by decide) rfl (by decide)
    have hlongest : Text.Longest Decimal "-12.50".toList decimal.rest :=
      Signs.longest (.inl rfl) hmagnitude
    obtain ⟨numeral, value, after, hnumeral, hperform, htakes, -⟩ := hdecimal _ hone (by decide)
    obtain rfl := hnumeral.unique hlongest
    exact ⟨value, after, hperform, htakes.mpr fun hdangles => hdangles.no_point (by decide)⟩
  · have hmagnitude : Text.Longest Magnitude "7".toList "7.é".toList := by
      refine longest_whole "7.é".toList (by decide) ?_
      rintro _ ⟨⟩
      rfl
    have hlongest : Text.Longest Decimal "7".toList dangling.rest :=
      Signs.longest (.inr ⟨rfl, by decide⟩) hmagnitude
    obtain ⟨numeral, value, after, hnumeral, hperform, -, htakes⟩ := hdangling _ hseven (by decide)
    obtain rfl := hnumeral.unique hlongest
    exact ⟨value, after, hperform, htakes ⟨by decide, by decide⟩⟩
  · exact (Lexeme.reads_number? minus.rest).eq_none_iff.mp rfl

/-- A number with a point at its end is read, although it is none of the grammar. -/
theorem not_takes_longest_point :
    let cursor := start "12.".toList 0
    Text.Longest Decimal "12".toList cursor.rest ∧
      ¬cursor.Takes "12".toList (cursor.perform .readNumber).2 ∧
      (cursor.perform .readNumber).2.position = 3 ∧ ¬Decimal "12.".toList ∧
      ∃ value, OperandParser.number.Recognizes "12.".toList
        (.literal "12.".toList (.number value)) := by
  intro cursor
  have hdecimal : Decimal "12".toList := .plain (.whole (by decide))
  have hposition : (cursor.perform .readNumber).2.position = 3 := by rfl
  refine ⟨hdecimal.longest_point, fun htakes => ?_, hposition, not_decimal_point "12".toList, ?_⟩
  · have hsame := htakes.position_eq
    rw [hposition] at hsame
    exact absurd hsame (by decide)
  · exact OperandParser.number_recognizes_iff.mpr rfl

end Cursor

end Criteria
