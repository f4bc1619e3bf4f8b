import Criteria.Scalar

/-!
Values seen from the other side. The distance of two numbers and the order of two texts
are the same from both sides, so the order of two values is reversed when the values are
swapped, and equality, part by part, stays. Hence an operation between two values asks the
same as its mirror image between the swapped ones. Equality does not get lost when case is
ignored either.
-/

namespace Criteria

theorem Number.compare_swap (a b : Number) :
    b.compare a = (a.compare b).map Ordering.swap := by
  cases a with
  | nan => cases b <;> rfl
  | infinite m =>
      cases b with
      | nan => rfl
      | infinite n => cases m <;> cases n <;> rfl
      | finite n y => cases m <;> rfl
  | finite m x =>
      cases b with
      | nan => rfl
      | infinite n => cases n <;> rfl
      | finite n y =>
          have hdistance : (signed n y - signed m x).natAbs = (signed m x - signed n y).natAbs := by
            omega
          simp only [compare, hdistance, Option.map_some]
          split
          · rfl
          · rw [Int.compare_swap]

theorem Collation.compare_swap (collation : Collation) (a b : Text) :
    collation.compare b a = (collation.compare a b).swap :=
  Std.OrientedOrd.eq_swap

theorem Collation.compare_eq_eq_iff (collation : Collation) (a b : Text) :
    collation.compare a b = .eq ↔ collation.key a = collation.key b :=
  Std.LawfulEqOrd.compare_eq_iff_eq

namespace Scalar

variable {collation : Collation}

/-- The order of two values is reversed when they are swapped, and two values without
an order have none either way. -/
theorem compare_swap (a b : Scalar) :
    b.compare collation a = (a.compare collation b).map Ordering.swap := by
  cases a with
  | null | list | map => cases b <;> rfl
  | bool x =>
      cases b with
      | bool y => cases x <;> cases y <;> rfl
      | _ => rfl
  | number x =>
      cases b with
      | number y => exact x.compare_swap y
      | text t =>
          cases h : numeric? t with
          | none => simp [compare, h]
          | some y => simp only [compare, h, Option.bind_some, x.compare_swap y]
      | _ => rfl
  | text t =>
      cases b with
      | text u => exact congrArg some (collation.compare_swap t u)
      | number y =>
          cases h : numeric? t with
          | none => simp [compare, h]
          | some x => simp only [compare, h, Option.bind_some, x.compare_swap y]
      | _ => rfl

theorem lessThan_swap (a b : Scalar) : b.lessThan collation a = a.greaterThan collation b := by
  rw [lessThan, greaterThan, compare_swap a b]
  rcases a.compare collation b with _ | _ | _ | _ <;> rfl

/-- The values which are equal to others by their order, and not part by part. -/
def isAtomic : Scalar → Bool
  | bool _ | number _ | text _ => true
  | _ => false

theorem equals_eq_compare {a b : Scalar} (h : a.isAtomic = true ∨ b.isAtomic = true) :
    a.equals collation b = (a.compare collation b == some .eq) := by
  cases a <;> cases b <;> first | rfl | simp [isAtomic] at h

theorem equals_comm_of_isAtomic {a : Scalar} (h : a.isAtomic = true) (b : Scalar) :
    b.equals collation a = a.equals collation b := by
  rw [equals_eq_compare (.inr h), equals_eq_compare (.inl h), compare_swap a b]
  rcases a.compare collation b with _ | _ | _ | _ <;> rfl

mutual

theorem equals_comm (a b : Scalar) : b.equals collation a = a.equals collation b := by
  cases a with
  | null => cases b <;> rfl
  | bool | number | text => exact equals_comm_of_isAtomic rfl b
  | list as =>
      cases b with
      | list bs => exact equalItems_comm as bs
      | _ => rfl
  | map as =>
      cases b with
      | map bs => exact equalEntries_comm as bs
      | _ => rfl

theorem equalItems_comm (as bs : List Scalar) :
    equalItems collation bs as = equalItems collation as bs := by
  cases as with
  | nil => cases bs <;> rfl
  | cons a as =>
      cases bs with
      | nil => rfl
      | cons b bs => rw [equalItems, equalItems, equals_comm a b, equalItems_comm as bs]

theorem equalEntries_comm (as bs : List (Text × Scalar)) :
    equalEntries collation bs as = equalEntries collation as bs := by
  cases as with
  | nil => cases bs <;> rfl
  | cons entry as =>
      obtain ⟨k, a⟩ := entry
      cases bs with
      | nil => rfl
      | cons other bs =>
          obtain ⟨l, b⟩ := other
          rw [equalEntries, equalEntries, equals_comm a b, equalEntries_comm as bs, Bool.beq_comm]

end

theorem satisfies_mirror (op : Operation) (left right : Scalar) :
    satisfies collation op.mirror right left = satisfies collation op left right := by
  cases op <;> simp only [Operation.mirror, satisfies, equals_comm left right, lessThan_swap]

/-! What is equal as it stands is equal under every collation -/

theorem compare_eq_of_ordinal (collation : Collation) {a b : Scalar}
    (h : a.compare .ordinal b = some .eq) : a.compare collation b = some .eq := by
  cases a with
  | text t =>
      cases b with
      | text u =>
          have hsame : t = u := (Collation.ordinal.compare_eq_eq_iff t u).mp (Option.some.inj h)
          exact congrArg some ((collation.compare_eq_eq_iff t u).mpr (congrArg _ hsame))
      | _ => exact h
  | _ => cases b <;> exact h

mutual

theorem equals_of_ordinal (collation : Collation) {a b : Scalar} (h : a.equals .ordinal b = true) :
    a.equals collation b = true := by
  cases a with
  | null =>
      cases b with
      | null => rfl
      | _ => cases h
  | bool | number | text =>
      rw [equals_eq_compare (.inl rfl), beq_iff_eq] at h ⊢
      exact compare_eq_of_ordinal collation h
  | list as =>
      cases b with
      | list bs => exact equalItems_of_ordinal collation h
      | _ => cases h
  | map as =>
      cases b with
      | map bs => exact equalEntries_of_ordinal collation h
      | _ => cases h

theorem equalItems_of_ordinal (collation : Collation) {as bs : List Scalar}
    (h : equalItems .ordinal as bs = true) : equalItems collation as bs = true := by
  cases as with
  | nil =>
      cases bs with
      | nil => rfl
      | cons => cases h
  | cons a as =>
      cases bs with
      | nil => cases h
      | cons b bs =>
          rw [equalItems, Bool.and_eq_true] at h ⊢
          exact ⟨equals_of_ordinal collation h.1, equalItems_of_ordinal collation h.2⟩

theorem equalEntries_of_ordinal (collation : Collation) {as bs : List (Text × Scalar)}
    (h : equalEntries .ordinal as bs = true) : equalEntries collation as bs = true := by
  cases as with
  | nil =>
      cases bs with
      | nil => rfl
      | cons => cases h
  | cons entry as =>
      obtain ⟨k, a⟩ := entry
      cases bs with
      | nil => cases h
      | cons other bs =>
          obtain ⟨l, b⟩ := other
          rw [equalEntries, Bool.and_eq_true, Bool.and_eq_true] at h ⊢
          exact ⟨⟨h.1.1, equals_of_ordinal collation h.1.2⟩, equalEntries_of_ordinal collation h.2⟩

end

/-- An operation asks the same as its mirror image between the swapped values, whatever the
values are. In particular the order of two values is reversed when they are swapped, and
equality stays. What is equal with regard to case is equal without. -/
theorem comparison_mirrored (left right : Scalar) :
    (∀ collation : Collation,
      (∀ op : Operation,
        satisfies collation op left right = satisfies collation op.mirror right left) ∧
      left.compare collation right = (right.compare collation left).map Ordering.swap ∧
      left.equals collation right = right.equals collation left) ∧
    (left.equals .ordinal right = true → left.equals .ordinalIgnoreCase right = true) := by
  refine ⟨fun collation => ⟨?_, compare_swap right left, equals_comm right left⟩,
    equals_of_ordinal .ordinalIgnoreCase⟩
  intro op
  exact (satisfies_mirror op left right).symm

/-- A number and a text which denotes it are equal at any depth, from either side. -/
theorem comparison_mirrored_numeral :
    let left : Scalar := .list [.map [("k".toList, .number (.ofNat 1))], .text "ΣΑΣ".toList]
    let right : Scalar := .list [.map [("k".toList, .text " 1.0 ".toList)], .text "ΣΑΣ".toList]
    left.equals .ordinal right = true ∧ left.equals .ordinalIgnoreCase right = true := by
  intro left right
  have hequal : left.equals .ordinal right = true := by decide +kernel
  exact ⟨hequal, (comparison_mirrored left right).2 hequal⟩

end Scalar

end Criteria
