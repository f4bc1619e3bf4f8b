import Criteria.Text

/-!
Tables from keys to values, kept in ascending order of their keys.
-/

namespace Criteria

abbrev Table (α : Type) := List (Text × α)

namespace Table

variable {α : Type}

def find? (key : Text) : Table α → Option α
  | [] => none
  | (k, value) :: rest => if k = key then some value else find? key rest

/-- Adds a value, or replaces the one that the key has. -/
def insert (key : Text) (value : α) : Table α → Table α
  | [] => [(key, value)]
  | (k, old) :: rest =>
      if k = key then (key, value) :: rest
      else if compare key k = .lt then (key, value) :: (k, old) :: rest
      else (k, old) :: insert key value rest

def erase (key : Text) : Table α → Table α
  | [] => []
  | (k, value) :: rest => if k = key then erase key rest else (k, value) :: erase key rest

/-- The table of a list of members. The last of several with one key counts. -/
def ofMembers (members : List (Text × α)) : Table α :=
  members.foldl (fun table (key, value) => insert key value table) []

theorem find?_insert (key other : Text) (value : α) (table : Table α) :
    find? other (insert key value table) =
      if key = other then some value else find? other table := by
  induction table with
  | nil => rfl
  | cons entry rest ih =>
      obtain ⟨k, old⟩ := entry
      by_cases same : k = key
      · subst same
        by_cases hit : k = other <;> simp [insert, find?, hit]
      · by_cases before : compare key k = .lt
        · simp [insert, same, before, find?]
        · simp only [insert, same, before, if_false, find?, ih]
          by_cases hit : k = other
          · have : key ≠ other := fun h => same (hit.trans h.symm)
            simp [hit, this]
          · simp [hit]

theorem find?_erase (key other : Text) (table : Table α) :
    find? other (erase key table) = if key = other then none else find? other table := by
  induction table with
  | nil => simp [erase, find?]
  | cons entry rest ih =>
      obtain ⟨k, value⟩ := entry
      rw [erase, find?]
      by_cases same : k = key
      · rw [if_pos same, ih]
        by_cases hit : key = other
        · rw [if_pos hit, if_pos hit]
        · rw [if_neg hit, if_neg hit, if_neg (fun h => hit (same.symm.trans h))]
      · rw [if_neg same, find?, ih]
        by_cases hit : k = other
        · rw [if_pos hit, if_neg (fun h => same (hit.trans h.symm)), if_pos hit]
        · rw [if_neg hit, if_neg hit]

end Table

end Criteria
