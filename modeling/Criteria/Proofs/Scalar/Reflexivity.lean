import Criteria.Proofs.Scalar.Symmetry

/-!
Which values contain themselves. A number is equal to itself unless it is NaN, and lists and
maps are equal part by part, so a value is equal to itself exactly when no NaN occurs in it.
It does not contain itself in any other way: a list is larger than its items, and equal
values are of one size.
-/

namespace Criteria

theorem Number.compare_self_eq_iff (n : Number) : n.compare n = some .eq ↔ n ≠ .nan := by
  cases n with
  | nan => simp [compare]
  | infinite negative => simp [compare]
  | finite negative units =>
      simp [compare]

namespace Scalar

variable {collation : Collation} {part : Scalar}

/-- The part is the value itself or stands in it at some depth. -/
inductive Occurs (part : Scalar) : Scalar → Prop
  | here : Occurs part part
  | item {items : List Scalar} {item : Scalar} (hmem : item ∈ items) (h : Occurs part item) :
      Occurs part (.list items)
  | entry {entries : List (Text × Scalar)} {key : Text} {value : Scalar}
      (hmem : (key, value) ∈ entries) (h : Occurs part value) : Occurs part (.map entries)

theorem occurs_list_iff {items : List Scalar} (hpart : part ≠ .list items) :
    Occurs part (.list items) ↔ ∃ item ∈ items, Occurs part item := by
  constructor
  · intro h
    cases h with
    | here => exact absurd rfl hpart
    | item hmem h => exact ⟨_, hmem, h⟩
  · rintro ⟨item, hmem, h⟩
    exact .item hmem h

theorem occurs_map_iff {entries : List (Text × Scalar)} (hpart : part ≠ .map entries) :
    Occurs part (.map entries) ↔ ∃ entry ∈ entries, Occurs part entry.2 := by
  constructor
  · intro h
    cases h with
    | here => exact absurd rfl hpart
    | entry hmem h => exact ⟨_, hmem, h⟩
  · rintro ⟨⟨key, value⟩, hmem, h⟩
    exact .entry hmem h

mutual

/-- A value is equal to itself unless a NaN occurs in it. -/
theorem equals_self_iff (value : Scalar) :
    value.equals collation value = true ↔ ¬Occurs (.number .nan) value := by
  cases value with
  | null => exact iff_of_true rfl nofun
  | bool b =>
      cases b <;> exact iff_of_true rfl nofun
  | number n =>
      rw [equals_eq_compare (.inl rfl), beq_iff_eq, compare, n.compare_self_eq_iff]
      refine not_congr ⟨?_, ?_⟩
      · rintro rfl
        exact .here
      · rintro ⟨⟩
        rfl
  | text t =>
      rw [equals_eq_compare (.inl rfl), beq_iff_eq, compare, Option.some.injEq,
        collation.compare_eq_eq_iff]
      exact iff_of_true rfl nofun
  | list items =>
      rw [equals, equalItems_self_iff items, occurs_list_iff Scalar.noConfusion]
      simp only [not_exists, not_and]
  | map entries =>
      rw [equals, equalEntries_self_iff entries, occurs_map_iff Scalar.noConfusion]
      simp only [not_exists, not_and]

theorem equalItems_self_iff (items : List Scalar) :
    equalItems collation items items = true ↔
      ∀ item ∈ items, ¬Occurs (.number .nan) item := by
  cases items with
  | nil => exact iff_of_true rfl nofun
  | cons item rest =>
      rw [equalItems, Bool.and_eq_true, equals_self_iff item, equalItems_self_iff rest,
        List.forall_mem_cons]

theorem equalEntries_self_iff (entries : List (Text × Scalar)) :
    equalEntries collation entries entries = true ↔
      ∀ entry ∈ entries, ¬Occurs (.number .nan) entry.2 := by
  cases entries with
  | nil => exact iff_of_true rfl nofun
  | cons entry rest =>
      obtain ⟨key, value⟩ := entry
      rw [equalEntries, Bool.and_eq_true, Bool.and_eq_true, equals_self_iff value,
        equalEntries_self_iff rest, List.forall_mem_cons]
      simp

end

mutual

/-- The number of values that a value is made of. -/
def size : Scalar → Nat
  | list items => sizeItems items + 1
  | map entries => sizeEntries entries + 1
  | _ => 1

def sizeItems : List Scalar → Nat
  | [] => 0
  | item :: rest => item.size + sizeItems rest

def sizeEntries : List (Text × Scalar) → Nat
  | [] => 0
  | (_, value) :: rest => value.size + sizeEntries rest

end

theorem size_lt_of_mem {items : List Scalar} {item : Scalar} (h : item ∈ items) :
    item.size < (list items).size := by
  rw [size]
  induction items with
  | nil => cases h
  | cons first rest ih =>
      rw [sizeItems]
      rcases List.mem_cons.mp h with rfl | hrest
      · omega
      · have := ih hrest
        omega

mutual

theorem size_eq_of_equals {a b : Scalar} (h : a.equals collation b = true) : a.size = b.size := by
  cases a with
  | list as =>
      cases b with
      | list bs => rw [size, size, sizeItems_eq_of_equalItems h]
      | _ => cases h
  | map as =>
      cases b with
      | map bs => rw [size, size, sizeEntries_eq_of_equalEntries h]
      | _ => cases h
  | _ =>
      cases b with
      | list | map => cases h
      | _ => rfl

theorem sizeItems_eq_of_equalItems {as bs : List Scalar}
    (h : equalItems collation as bs = true) : sizeItems as = sizeItems bs := by
  cases as with
  | nil =>
      cases bs with
      | nil => rfl
      | cons => cases h
  | cons a as =>
      cases bs with
      | nil => cases h
      | cons b bs =>
          rw [equalItems, Bool.and_eq_true] at h
          rw [sizeItems, sizeItems, size_eq_of_equals h.1, sizeItems_eq_of_equalItems h.2]

theorem sizeEntries_eq_of_equalEntries {as bs : List (Text × Scalar)}
    (h : equalEntries collation as bs = true) : sizeEntries as = sizeEntries bs := by
  cases as with
  | nil =>
      cases bs with
      | nil => rfl
      | cons => cases h
  | cons entry as =>
      obtain ⟨k, a⟩ := entry
      cases bs with
      | nil => cases h
      | cons other bs =>
          obtain ⟨l, b⟩ := other
          rw [equalEntries, Bool.and_eq_true, Bool.and_eq_true] at h
          rw [sizeEntries, sizeEntries, size_eq_of_equals h.1.2,
            sizeEntries_eq_of_equalEntries h.2]

end

/-- No item of a list is equal to the list. -/
theorem equals_list_of_mem {items : List Scalar} {item : Scalar} (h : item ∈ items) :
    item.equals collation (list items) = false := by
  rw [Bool.eq_false_iff]
  intro hequal
  have hlt := size_lt_of_mem h
  rw [size_eq_of_equals hequal] at hlt
  exact Nat.lt_irrefl _ hlt

theorem contains_self_eq (value : Scalar) :
    value.contains collation value = value.equals collation value := by
  cases value with
  | text t =>
      have hequal : (text t).equals collation (text t) = true :=
        (equals_self_iff _).mpr nofun
      rw [contains, hequal, Bool.true_or]
  | list items =>
      -- A list is also asked for an item which is equal to it.
      have hitems : (items.any fun item => item.equals collation (list items)) = false := by
        rw [List.any_eq_false]
        intro item hmem
        rw [equals_list_of_mem hmem]
        decide
      rw [contains, hitems, Bool.or_false]
  | _ => exact Bool.or_false _

/-- A value contains itself, and is equal to itself, exactly when it has no NaN in it at any
depth. -/
theorem contains_self_iff (collation : Collation) (value : Scalar) :
    (value.contains collation value = true ↔ ¬Occurs (.number .nan) value) ∧
      (value.equals collation value = true ↔ ¬Occurs (.number .nan) value) := by
  rw [contains_self_eq]
  exact ⟨equals_self_iff value, equals_self_iff value⟩

end Scalar

end Criteria
