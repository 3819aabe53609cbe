/-
Cutting a sequence into groups that end at a marked item.

Items are gathered until one of them is an end, and the group closes with that
item.  What is gathered after the last end is the remainder.  The bytes of a
line and the writes of a command are both gathered in this way.
-/

import Mathlib.Tactic

set_option autoImplicit false

namespace Aesd.EndedGroups

variable {α : Type}

section Definitions

variable (ends : α → Prop) [DecidablePred ends]

/-- The closed groups of a sequence, when `begun` was gathered before it. -/
def groups : List α → List α → List (List α)
  | _, [] => []
  | begun, item :: items =>
      if ends item then (begun ++ [item]) :: groups [] items else groups (begun ++ [item]) items

/-- What is left open behind the closed groups. -/
def remainder : List α → List α → List α
  | begun, [] => begun
  | begun, item :: items =>
      if ends item then remainder [] items else remainder (begun ++ [item]) items

/-- The last item is an end and no earlier one is. -/
def Closed (group : List α) : Prop :=
  ∃ front last, group = front ++ [last] ∧ ends last ∧ ∀ item, item ∈ front → ¬ends item

def Unended (items : List α) : Prop := ∀ item, item ∈ items → ¬ends item

end Definitions

variable {ends : α → Prop}

theorem closed_iff (group : List α) :
    Closed ends group ↔ ∃ last, group.getLast? = some last ∧ ends last ∧
      Unended ends group.dropLast := by
  constructor
  · rintro ⟨front, last, rfl, isEnd, earlier⟩
    refine ⟨last, List.getLast?_concat, isEnd, ?_⟩
    rw [List.dropLast_concat]
    exact earlier
  · rintro ⟨last, final, isEnd, earlier⟩
    obtain ⟨front, rfl⟩ := List.getLast?_eq_some_iff.mp final
    rw [List.dropLast_concat] at earlier
    exact ⟨front, last, rfl, isEnd, earlier⟩

instance decidableUnended [DecidablePred ends] (items : List α) : Decidable (Unended ends items) :=
  inferInstanceAs (Decidable (∀ item, item ∈ items → ¬ends item))

instance decidableClosed [DecidablePred ends] (group : List α) : Decidable (Closed ends group) :=
  match final : group.getLast? with
  | none => isFalse (by
      intro closed
      obtain ⟨last, same, _rest⟩ := (closed_iff group).mp closed
      rw [final] at same
      cases same)
  | some last => decidable_of_iff (ends last ∧ Unended ends group.dropLast) (by
      rw [closed_iff, final]
      constructor
      · exact fun both => ⟨last, rfl, both⟩
      · rintro ⟨other, same, both⟩
        cases same
        exact both)

theorem unended_nil : Unended ends [] := by
  intro item member
  cases member

theorem unended_concat {items : List α} {item : α} (earlier : Unended ends items)
    (last : ¬ends item) : Unended ends (items ++ [item]) := by
  intro other member
  rcases List.mem_append.mp member with before | new
  · exact earlier other before
  · rw [List.mem_singleton.mp new]
    exact last

theorem unended_append {items later : List α} (earlier : Unended ends items)
    (open_ : Unended ends later) : Unended ends (items ++ later) := by
  intro item member
  exact (List.mem_append.mp member).elim (earlier item) (open_ item)

theorem closed_append {items line : List α} (earlier : Unended ends items)
    (closed : Closed ends line) : Closed ends (items ++ line) := by
  obtain ⟨front, last, rfl, isEnd, open_⟩ := closed
  exact ⟨items ++ front, last, (List.append_assoc ..).symm, isEnd, unended_append earlier open_⟩

theorem closed_cons {item : α} {items : List α} (open_ : ¬ends item) (closed : Closed ends items) :
    Closed ends (item :: items) := by
  obtain ⟨front, last, rfl, isEnd, earlier⟩ := closed
  refine ⟨item :: front, last, rfl, isEnd, ?_⟩
  intro other member
  rcases List.mem_cons.mp member with same | later
  · rw [same]
    exact open_
  · exact earlier other later

theorem closed_singleton {item : α} (isEnd : ends item) : Closed ends [item] :=
  ⟨[], item, rfl, isEnd, unended_nil⟩

/-- A line that is not empty starts with its end or goes on as a line. -/
theorem closed_tail {item : α} {items : List α} (closed : Closed ends (item :: items)) :
    (ends item ∧ items = []) ∨ (¬ends item ∧ Closed ends items) := by
  obtain ⟨front, last, whole, isEnd, earlier⟩ := closed
  cases front with
  | nil =>
      cases whole
      exact Or.inl ⟨isEnd, rfl⟩
  | cons first front =>
      cases whole
      exact Or.inr ⟨earlier _ List.mem_cons_self, front, last, rfl, isEnd,
        fun other member => earlier other (List.mem_cons_of_mem _ member)⟩

theorem not_closed_nil : ¬Closed ends ([] : List α) := by
  rintro ⟨front, last, whole, _isEnd, _earlier⟩
  exact List.append_ne_nil_of_right_ne_nil front (List.cons_ne_nil last []) whole.symm

theorem closed_drop {line : List α} (closed : Closed ends line) {count : Nat}
    (inside : count < line.length) : Closed ends (line.drop count) := by
  induction count generalizing line with
  | zero => exact closed
  | succ count ih =>
      cases line with
      | nil => exact absurd closed not_closed_nil
      | cons item items =>
          rcases closed_tail closed with ⟨_isEnd, nothing⟩ | ⟨_open, later⟩
          · rw [nothing] at inside
            exact absurd inside (by rw [List.length_singleton]; omega)
          · exact ih later (Nat.lt_of_succ_lt_succ inside)

theorem unended_take {line : List α} (closed : Closed ends line) {count : Nat}
    (inside : count < line.length) : Unended ends (line.take count) := by
  obtain ⟨front, last, rfl, _isEnd, earlier⟩ := closed
  rw [List.length_append, List.length_singleton] at inside
  rw [List.take_append_of_le_length (by omega)]
  exact fun item member => earlier item (List.mem_of_mem_take member)

variable [DecidablePred ends]

@[simp] theorem groups_nil (begun : List α) : groups ends begun [] = [] := rfl

@[simp] theorem remainder_nil (begun : List α) : remainder ends begun [] = begun := rfl

theorem groups_append (begun first second : List α) :
    groups ends begun (first ++ second) =
      groups ends begun first ++ groups ends (remainder ends begun first) second := by
  induction first generalizing begun with
  | nil => rfl
  | cons item items ih =>
      rw [List.cons_append, groups, groups, remainder]
      by_cases last : ends item
      · rw [if_pos last, if_pos last, if_pos last, ih, List.cons_append]
      · rw [if_neg last, if_neg last, if_neg last, ih]

theorem remainder_append (begun first second : List α) :
    remainder ends begun (first ++ second) =
      remainder ends (remainder ends begun first) second := by
  induction first generalizing begun with
  | nil => rfl
  | cons item items ih =>
      rw [List.cons_append, remainder, remainder]
      by_cases last : ends item
      · rw [if_pos last, if_pos last, ih]
      · rw [if_neg last, if_neg last, ih]

/-- Cutting loses, adds and moves nothing. -/
theorem groups_flatten (ends : α → Prop) [DecidablePred ends] (begun items : List α) :
    (groups ends begun items).flatten ++ remainder ends begun items = begun ++ items := by
  induction items generalizing begun with
  | nil => rw [groups_nil, remainder_nil, List.flatten_nil, List.nil_append, List.append_nil]
  | cons item items ih =>
      rw [groups, remainder]
      by_cases last : ends item
      · rw [if_pos last, if_pos last, List.flatten_cons, List.append_assoc, ih,
          List.append_assoc, List.singleton_append, List.nil_append]
      · rw [if_neg last, if_neg last, ih, List.append_assoc, List.singleton_append]

theorem closed_of_mem_groups {begun items group : List α} (earlier : Unended ends begun)
    (member : group ∈ groups ends begun items) : Closed ends group := by
  induction items generalizing begun with
  | nil => cases member
  | cons item items ih =>
      rw [groups] at member
      by_cases last : ends item
      · rw [if_pos last] at member
        rcases List.mem_cons.mp member with same | later
        · exact ⟨begun, item, same, last, earlier⟩
        · exact ih unended_nil later
      · rw [if_neg last] at member
        exact ih (unended_concat earlier last) member

theorem remainder_unended {begun : List α} (earlier : Unended ends begun) (items : List α) :
    Unended ends (remainder ends begun items) := by
  induction items generalizing begun with
  | nil => exact earlier
  | cons item items ih =>
      rw [remainder]
      by_cases last : ends item
      · rw [if_pos last]
        exact ih unended_nil
      · rw [if_neg last]
        exact ih (unended_concat earlier last)

theorem groups_of_unended (begun : List α) {items : List α} (none : Unended ends items) :
    groups ends begun items = [] := by
  induction items generalizing begun with
  | nil => rfl
  | cons item items ih =>
      rw [groups, if_neg (none item List.mem_cons_self)]
      exact ih _ (fun other member => none other (List.mem_cons_of_mem item member))

theorem remainder_of_unended (begun : List α) {items : List α} (none : Unended ends items) :
    remainder ends begun items = begun ++ items := by
  have whole := groups_flatten ends begun items
  rw [groups_of_unended begun none] at whole
  exact whole

theorem groups_of_closed (begun : List α) {group : List α} (closed : Closed ends group) :
    groups ends begun group = [begun ++ group] := by
  obtain ⟨front, last, rfl, isEnd, earlier⟩ := closed
  rw [groups_append, groups_of_unended begun earlier, remainder_of_unended begun earlier, groups,
    if_pos isEnd, List.append_assoc]
  rfl

theorem remainder_of_closed (begun : List α) {group : List α} (closed : Closed ends group) :
    remainder ends begun group = [] := by
  obtain ⟨front, last, rfl, isEnd, _earlier⟩ := closed
  rw [remainder_append, remainder, if_pos isEnd]
  rfl

/-- A concatenation of closed groups falls apart into exactly these groups. -/
theorem groups_of_all_closed {lines : List (List α)}
    (closed : ∀ line, line ∈ lines → Closed ends line) :
    groups ends [] lines.flatten = lines ∧ remainder ends [] lines.flatten = [] := by
  induction lines with
  | nil => exact ⟨rfl, rfl⟩
  | cons line lines ih =>
      have first := closed line List.mem_cons_self
      obtain ⟨later, nothing⟩ :=
        ih (fun other member => closed other (List.mem_cons_of_mem line member))
      constructor
      · rw [List.flatten_cons, groups_append, groups_of_closed [] first,
          remainder_of_closed [] first, later]
        rfl
      · rw [List.flatten_cons, remainder_append, remainder_of_closed [] first, nothing]

/-- The cut is the only one: closed groups and an open rest are found again. -/
theorem groups_unique {lines : List (List α)} {rest : List α}
    (closed : ∀ line, line ∈ lines → Closed ends line) (openRest : Unended ends rest) :
    groups ends [] (lines.flatten ++ rest) = lines ∧
      remainder ends [] (lines.flatten ++ rest) = rest := by
  obtain ⟨found, nothing⟩ := groups_of_all_closed closed
  constructor
  · rw [groups_append, found, nothing, groups_of_unended [] openRest, List.append_nil]
  · rw [remainder_append, nothing, remainder_of_unended [] openRest, List.nil_append]

end Aesd.EndedGroups
