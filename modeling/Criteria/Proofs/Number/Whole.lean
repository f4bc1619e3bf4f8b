import Criteria.Lexeme
import Mathlib.Data.List.Basic

/-!
Whole numbers. One below `2 ^ 53` has no more than 53 significant bits, so its decimal digits
are read as exactly this number, and the number names the position which they write.
-/

namespace Criteria

namespace Number

theorem roundQuotient_of_dvd {dividend divisor : Nat} (hpos : 0 < divisor)
    (h : divisor ∣ dividend) : roundQuotient dividend divisor = dividend / divisor := by
  have hexact : 2 * (dividend % divisor) < divisor := by
    rw [Nat.mod_eq_zero_of_dvd h]
    exact hpos
  rw [roundQuotient, if_pos hexact]

theorem twoTo_pos (exponent : Nat) : 0 < twoTo exponent :=
  Nat.two_pow_pos exponent

theorem spacing_pos (units : Nat) : 0 < spacing units :=
  twoTo_pos _

theorem twoTo_add (a b : Nat) : twoTo (a + b) = twoTo a * twoTo b :=
  Nat.pow_add 2 a b

theorem twoTo_dvd_twoTo {a b : Nat} (h : a ≤ b) : twoTo a ∣ twoTo b :=
  Nat.pow_dvd_pow 2 h

/-- Below `2 ^ (exponent + 53)` units the distance between neighbours divides
`2 ^ exponent`. -/
theorem spacing_dvd {units exponent : Nat} (h : units < twoTo (exponent + 53)) :
    spacing units ∣ twoTo exponent := by
  apply twoTo_dvd_twoTo
  by_cases hzero : units = 0
  · rw [hzero, Nat.log2_zero]
    omega
  · have hbits := (Nat.log2_lt hzero).mpr h
    omega

theorem ofUnits_of_dvd {negative : Bool} {units : Nat} (hspacing : spacing units ∣ units)
    (hlimit : units < limit) : ofUnits negative units 1 = .finite negative units := by
  have hround : roundQuotient units (spacing units) * spacing units = units := by
    rw [roundQuotient_of_dvd (spacing_pos units) hspacing, Nat.div_mul_cancel hspacing]
  simp only [ofUnits, Nat.div_one, Nat.one_mul, hround, if_pos hlimit]

theorem ofRatio_of_lt {negative : Bool} {n : Nat} (h : n < twoTo 53) :
    ofRatio negative n 1 = .finite negative (n * one) := by
  -- One is `2 ^ 1074` units, so the neighbours of `n` are no further apart than one.
  have hunits : n * one < twoTo (1074 + 53) := by
    rw [one, Nat.add_comm, twoTo_add]
    exact Nat.mul_lt_mul_of_pos_right h (twoTo_pos 1074)
  have hlimit : twoTo (1074 + 53) ≤ limit :=
    Nat.le_of_dvd (twoTo_pos _) (twoTo_dvd_twoTo (by decide))
  apply ofUnits_of_dvd
  · exact Nat.dvd_trans (spacing_dvd hunits) (Nat.dvd_mul_left one n)
  · exact Nat.lt_of_lt_of_le hunits hlimit

theorem ofDecimal_ofNat {n : Nat} (h : n < twoTo 53) :
    ofDecimal false (Text.ofNat n) 0 = .finite false (n * one) := by
  have hvalue : ofDigits (Text.ofNat n) = n := Nat.ofDigitChars_ten_toDigits
  have hwhole : ofRatio false (n * tenTo (0 : Int).toNat) (tenTo (-(0 : Int)).toNat) =
      .finite false (n * one) := by
    rw [← ofRatio_of_lt h]
    exact congrArg (ofRatio false · 1) (Nat.mul_one n)
  rw [ofDecimal, hvalue, hwhole]
  by_cases hzero : n = 0
  · rw [if_pos hzero, hzero, Nat.zero_mul]
  · rw [if_neg hzero, if_neg (by omega), if_neg (by omega)]

/-- A number names a position if it is whole and not below zero. -/
theorem index?_eq_some_iff {number : Number} {index : Nat} :
    number.index? = some index ↔ ∃ negative whole, number = .finite negative (whole * one) ∧
      (negative = true → whole = 0) ∧ index = min whole maxIndex := by
  cases number with
  | finite negative units =>
      have hpos : 0 < one := twoTo_pos 1074
      simp only [index?, finite.injEq]
      -- The unit is a large numeral, which must not be worked out.
      generalize one = unit at hpos ⊢
      constructor
      · intro h
        split at h
        · cases h
        · next hsign =>
          split at h
          · next hwhole =>
            obtain ⟨whole, rfl⟩ := Nat.dvd_of_mod_eq_zero hwhole
            rw [Nat.mul_div_cancel_left whole hpos] at h
            refine ⟨negative, whole, ⟨rfl, Nat.mul_comm unit whole⟩, ?_, (Option.some.inj h).symm⟩
            rintro rfl
            have hzero : unit * whole = 0 := by
              simpa only [Bool.true_and, bne_iff_ne, ne_eq, not_not] using hsign
            exact (Nat.mul_eq_zero.mp hzero).resolve_left (Nat.ne_of_gt hpos)
          · cases h
      · rintro ⟨negative', whole, ⟨rfl, rfl⟩, hsign, rfl⟩
        have hnot : ¬(negative && whole * unit != 0) = true := by
          cases negative with
          | false => simp
          | true => simp [hsign rfl]
        rw [if_neg hnot, if_pos (Nat.mul_mod_left whole unit), Nat.mul_div_cancel whole hpos]
  | infinite negative => simp [index?]
  | nan => simp [index?]

theorem index?_of_lt {n : Nat} (h : n < twoTo 53) : index? (.finite false (n * one)) = some n := by
  have hmax : n ≤ maxIndex := by
    have hbound : twoTo 53 ≤ maxIndex := by decide
    exact Nat.le_trans (Nat.le_of_lt h) hbound
  exact index?_eq_some_iff.mpr ⟨false, n, rfl, nofun, (Nat.min_eq_left hmax).symm⟩

theorem splitMinus_of_head?_ne {text : Text} (h : text.head? ≠ some '-') :
    splitMinus text = (false, text) := by
  unfold splitMinus
  split
  · exact absurd rfl h
  · rfl

end Number

namespace Text

theorem ofNat_ne_nil (n : Nat) : ofNat n ≠ [] :=
  List.ne_nil_of_length_pos Nat.length_toDigits_pos

theorem isDigit_of_mem_ofNat {n : Nat} {c : Char} (h : c ∈ ofNat n) : c.isDigit = true :=
  Nat.isDigit_of_mem_toDigits (by decide) (by decide) h

theorem isDigit_of_head?_ofNat {n : Nat} {rest : Text} {c : Char}
    (h : (ofNat n ++ rest).head? = some c) : c.isDigit = true := by
  rw [List.head?_append_of_ne_nil _ (ofNat_ne_nil n)] at h
  exact isDigit_of_mem_ofNat (List.mem_of_mem_head? h)

end Text

theorem Lexeme.number?_eq_none {text : Text}
    (h : ∀ c, text.head? = some c → c.isDigit = false ∧ c ≠ '-') : number? text = none := by
  have hplain : text.head? ≠ some '-' := fun hminus => (h '-' hminus).2 rfl
  have hwhole : text.takeWhile Char.isDigit = [] := by
    cases text with
    | nil => rfl
    | cons c rest => exact List.takeWhile_cons_of_neg (by simp [(h c rfl).1])
  simp only [number?, Number.splitMinus_of_head?_ne hplain, hwhole, List.isEmpty_nil, if_true]

theorem Lexeme.head?_of_number? {text left : Text} {value : Number}
    (h : number? text = some (value, left)) :
    ∃ c, text.head? = some c ∧ (c = '-' ∨ c.isDigit = true) := by
  by_contra hnot
  have hnone : number? text = none := by
    apply number?_eq_none
    intro c hc
    rw [← Bool.not_eq_true]
    exact ⟨fun hdigit => hnot ⟨c, hc, .inr hdigit⟩, fun hminus => hnot ⟨c, hc, .inl hminus⟩⟩
  rw [hnone] at h
  cases h

/-- Digits are read as the number which they write, up to a character which cannot go on with
them. -/
theorem Lexeme.number?_ofNat {n : Nat} {c : Char} (h : n < Number.twoTo 53)
    (hdigit : c.isDigit = false) (hpoint : c ≠ '.') (rest : Text) :
    number? (Text.ofNat n ++ c :: rest) = some (.finite false (n * Number.one), c :: rest) := by
  have hminus : Number.splitMinus (Text.ofNat n ++ c :: rest) =
      (false, Text.ofNat n ++ c :: rest) := by
    apply Number.splitMinus_of_head?_ne
    intro hhead
    exact absurd (Text.isDigit_of_head?_ofNat hhead) (by decide)
  have hwhole : (Text.ofNat n ++ c :: rest).takeWhile Char.isDigit = Text.ofNat n := by
    rw [List.takeWhile_append_of_pos fun _ => Text.isDigit_of_mem_ofNat, List.takeWhile_cons,
      if_neg (by simp [hdigit]), List.append_nil]
  have hrest : (Text.ofNat n ++ c :: rest).dropWhile Char.isDigit = c :: rest := by
    rw [List.dropWhile_append_of_pos fun _ => Text.isDigit_of_mem_ofNat, List.dropWhile_cons,
      if_neg (by simp [hdigit])]
  have hfraction : Number.splitFraction (c :: rest) = ([], c :: rest) := by
    unfold Number.splitFraction
    split
    · next rest' hsplit => exact absurd (List.cons.inj hsplit).1 hpoint
    · rfl
  have hnonempty : ¬(Text.ofNat n).isEmpty = true := by
    rw [List.isEmpty_iff]
    exact Text.ofNat_ne_nil n
  simp only [number?, hminus, hwhole, hrest, hfraction, if_neg hnonempty, List.append_nil]
  exact congrArg (fun value => some (value, c :: rest)) (Number.ofDecimal_ofNat h)

end Criteria
