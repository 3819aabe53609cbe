/-
The last few items of a growing list.

`recent limit items` is what a store that keeps at most `limit` items and
drops the oldest ones still holds after `items` were added to it one by one.
-/

import Mathlib.Data.List.DropRight
import Mathlib.Tactic

set_option autoImplicit false

namespace Aesd.RecentWindow

variable {α β : Type}

/-- The store after a whole history of additions. -/
def recent (limit : Nat) (items : List α) : List α := items.rtake limit

theorem recent_eq_drop (limit : Nat) (items : List α) :
    recent limit items = items.drop (items.length - limit) := rfl

@[simp] theorem recent_length (limit : Nat) (items : List α) :
    (recent limit items).length = min limit items.length := by
  rw [recent_eq_drop, List.length_drop]
  omega

theorem recent_length_le (limit : Nat) (items : List α) :
    (recent limit items).length ≤ limit := by
  rw [recent_length]
  exact Nat.min_le_left _ _

theorem recent_of_le {limit : Nat} {items : List α} (small : items.length ≤ limit) :
    recent limit items = items := by
  rw [recent_eq_drop, Nat.sub_eq_zero_of_le small, List.drop_zero]

@[simp] theorem recent_nil (limit : Nat) : recent limit ([] : List α) = [] :=
  recent_of_le (Nat.zero_le _)

theorem recent_suffix (limit : Nat) (items : List α) : recent limit items <:+ items :=
  List.drop_suffix _ _

theorem mem_of_mem_recent {limit : Nat} {items : List α} {item : α}
    (member : item ∈ recent limit items) : item ∈ items :=
  (recent_suffix limit items).subset member

/-- A full store drops its oldest item for the new one. -/
theorem recent_concat_of_full {limit : Nat} {items : List α} {item : α}
    (full : items.length = limit) (positive : 0 < limit) :
    recent limit (items ++ [item]) = items.tail ++ [item] := by
  have surplus : (items ++ [item]).length - limit = 1 := by
    rw [List.length_append, List.length_singleton]
    omega
  rw [recent_eq_drop, surplus, List.drop_append_of_le_length (by omega), List.drop_one]

theorem recent_concat_of_lt {limit : Nat} {items : List α} {item : α}
    (small : items.length < limit) : recent limit (items ++ [item]) = items ++ [item] := by
  apply recent_of_le
  rw [List.length_append, List.length_singleton]
  omega

/-- Adding to the store and adding to the history agree. -/
theorem recent_concat (limit : Nat) (items : List α) (item : α) :
    recent limit (recent limit items ++ [item]) = recent limit (items ++ [item]) := by
  rcases Nat.lt_or_ge items.length limit with small | large
  · rw [recent_of_le (Nat.le_of_lt small)]
  · have surplus : (recent limit items ++ [item]).length - limit = 1 := by
      rw [List.length_append, List.length_singleton, recent_length]
      omega
    rw [recent_eq_drop, surplus, recent_eq_drop, recent_eq_drop, List.length_append,
      List.length_singleton, Nat.sub_add_comm large]
    by_cases none : limit = 0
    · subst none
      simp
    · rw [List.drop_append_of_le_length (by rw [List.length_drop]; omega), List.drop_drop,
        List.drop_append_of_le_length (by omega)]

theorem recent_append (limit : Nat) (items later : List α) :
    recent limit (recent limit items ++ later) = recent limit (items ++ later) := by
  induction later using List.reverseRecOn with
  | nil =>
      rw [List.append_nil, List.append_nil]
      exact recent_of_le (recent_length_le limit items)
  | append_singleton later item ih =>
      rw [← List.append_assoc, ← List.append_assoc, ← recent_concat, ih, recent_concat]

end Aesd.RecentWindow
