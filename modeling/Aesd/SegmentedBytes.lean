/-
One flat position over a list of segments.

A position counts from the start of the first segment across all of them.
`locate` finds the segment and the offset within it, `positionOf` goes back.
Only the sizes matter for the arithmetic; the last part reads real segments.
-/

import Mathlib.Tactic

set_option autoImplicit false

namespace Aesd.SegmentedBytes

/-- The segment that holds a flat position, and the offset within it. -/
def locate : List Nat → Nat → Option (Nat × Nat)
  | [], _ => none
  | size :: rest, position =>
      if position < size then some (0, position)
      else (locate rest (position - size)).map (fun found => (found.1 + 1, found.2))

/-- The flat position of an offset within a segment. -/
def positionOf (sizes : List Nat) (index offset : Nat) : Nat :=
  (sizes.take index).sum + offset

@[simp] theorem positionOf_zero (sizes : List Nat) (offset : Nat) :
    positionOf sizes 0 offset = offset := by
  simp only [positionOf, List.take_zero, List.sum_nil, Nat.zero_add]

theorem positionOf_cons_succ (size : Nat) (rest : List Nat) (index offset : Nat) :
    positionOf (size :: rest) (index + 1) offset = size + positionOf rest index offset := by
  simp only [positionOf, List.take_succ_cons, List.sum_cons, Nat.add_assoc]

/-- A position is found exactly at the segment and offset that lead back to it. -/
theorem locate_eq_some_iff (sizes : List Nat) (position index offset : Nat) :
    locate sizes position = some (index, offset) ↔
      ∃ size, sizes[index]? = some size ∧ offset < size ∧
        positionOf sizes index offset = position := by
  induction sizes generalizing position index with
  | nil => simp [locate]
  | cons size rest ih =>
      by_cases inside : position < size
      · rw [locate, if_pos inside]
        constructor
        · intro found
          cases found
          exact ⟨size, rfl, inside, positionOf_zero _ _⟩
        · rintro ⟨found, atIndex, bound, back⟩
          cases index with
          | zero =>
              rw [positionOf_zero] at back
              rw [back]
          | succ index =>
              rw [positionOf_cons_succ] at back
              omega
      · rw [locate, if_neg inside, Option.map_eq_some_iff]
        constructor
        · rintro ⟨⟨earlier, within⟩, found, same⟩
          cases same
          obtain ⟨found, atIndex, bound, back⟩ := (ih _ _).mp found
          refine ⟨found, atIndex, bound, ?_⟩
          rw [positionOf_cons_succ, back]
          omega
        · rintro ⟨found, atIndex, bound, back⟩
          cases index with
          | zero =>
              rw [positionOf_zero] at back
              have same : size = found := by simpa using atIndex
              omega
          | succ index =>
              rw [positionOf_cons_succ] at back
              exact ⟨(index, offset), (ih _ _).mpr ⟨found, atIndex, bound, by omega⟩, rfl⟩

theorem locate_eq_none_iff (sizes : List Nat) (position : Nat) :
    locate sizes position = none ↔ sizes.sum ≤ position := by
  induction sizes generalizing position with
  | nil => simp [locate]
  | cons size rest ih =>
      by_cases inside : position < size
      · rw [locate, if_pos inside, List.sum_cons]
        constructor
        · intro impossible
          cases impossible
        · intro past
          omega
      · rw [locate, if_neg inside, Option.map_eq_none_iff, ih, List.sum_cons]
        omega

/-- An offset within a segment lies within the whole. -/
theorem positionOf_lt_sum {sizes : List Nat} {index offset size : Nat}
    (atIndex : sizes[index]? = some size) (inside : offset < size) :
    positionOf sizes index offset < sizes.sum := by
  have found := (locate_eq_some_iff sizes _ index offset).mpr ⟨size, atIndex, inside, rfl⟩
  by_contra past
  rw [(locate_eq_none_iff sizes _).mpr (Nat.le_of_not_lt past)] at found
  cases found

/-- Positions follow the order of segments, and of offsets within one segment. -/
theorem positionOf_lt {sizes : List Nat} {left right leftOffset rightOffset size : Nat}
    (atLeft : sizes[left]? = some size) (inside : leftOffset < size)
    (ordered : left < right ∨ left = right ∧ leftOffset < rightOffset) :
    positionOf sizes left leftOffset < positionOf sizes right rightOffset := by
  cases ordered with
  | inl earlier =>
      have through : (sizes.take (left + 1)).sum = (sizes.take left).sum + size := by
        rw [List.take_add_one, atLeft, List.sum_append, Option.toList_some, List.sum_singleton]
      have before : (sizes.take (left + 1)).sum ≤ (sizes.take right).sum :=
        (List.take_sublist_take_left earlier).sum_le_sum (fun _ _ => Nat.zero_le _)
      unfold positionOf
      omega
  | inr here =>
      rw [here.1]
      exact Nat.add_lt_add_left here.2 _

/-- Empty segments after the last one change no answer. -/
theorem locate_append_zeros (sizes : List Nat) (count position : Nat) :
    locate (sizes ++ List.replicate count 0) position = locate sizes position := by
  induction sizes generalizing position with
  | nil =>
      rw [List.nil_append, (locate_eq_none_iff [] position).mpr (Nat.zero_le _),
        locate_eq_none_iff, List.sum_replicate, nsmul_zero]
      exact Nat.zero_le _
  | cons size rest ih => simp only [List.cons_append, locate, ih]

/-! ### Reading the segments themselves -/

variable {α : Type}

theorem flatten_drop_take (segments : List (List α)) (index : Nat) :
    segments.flatten.drop ((segments.map List.length).take index).sum =
      (segments.drop index).flatten := by
  induction segments generalizing index with
  | nil => simp
  | cons segment rest ih =>
      cases index with
      | zero => simp
      | succ index =>
          simp only [List.map_cons, List.take_succ_cons, List.sum_cons, List.flatten_cons,
            List.drop_succ_cons]
          rw [List.drop_length_add_append, ih]

/-- What follows a located position is the rest of its segment, then the later
segments. -/
theorem flatten_drop_positionOf {segments : List (List α)} {index offset : Nat}
    {segment : List α} (atIndex : segments[index]? = some segment)
    (inside : offset ≤ segment.length) :
    segments.flatten.drop (positionOf (segments.map List.length) index offset) =
      segment.drop offset ++ (segments.drop (index + 1)).flatten := by
  obtain ⟨bound, same⟩ := List.getElem?_eq_some_iff.mp atIndex
  have atHead : segments.drop index = segment :: segments.drop (index + 1) := by
    rw [List.drop_eq_getElem_cons bound, same]
  rw [positionOf, ← List.drop_drop, flatten_drop_take, atHead, List.flatten_cons,
    List.drop_append_of_le_length inside]

/-- A located position lies within the flat string. -/
theorem positionOf_lt_flatten {segments : List (List α)} {index offset : Nat}
    {segment : List α} (atIndex : segments[index]? = some segment)
    (inside : offset < segment.length) :
    positionOf (segments.map List.length) index offset < segments.flatten.length := by
  have dropped := congrArg List.length (flatten_drop_positionOf atIndex (Nat.le_of_lt inside))
  rw [List.length_drop, List.length_append, List.length_drop] at dropped
  omega

/-- What one read at a flat position gives: bytes of one segment, at most
`count` of them. -/
def slice (segments : List (List α)) (position count : Nat) : List α :=
  match locate (segments.map List.length) position with
  | none => []
  | some (index, offset) => ((segments.getD index []).drop offset).take count

theorem slice_of_locate {segments : List (List α)} {position index offset : Nat}
    {segment : List α} (found : locate (segments.map List.length) position = some (index, offset))
    (atIndex : segments[index]? = some segment) (count : Nat) :
    slice segments position count = (segment.drop offset).take count := by
  rw [slice, found]
  simp only [List.getD_eq_getElem?_getD, atIndex, Option.getD_some]

theorem located_segment {segments : List (List α)} {position index offset : Nat}
    (found : locate (segments.map List.length) position = some (index, offset)) :
    ∃ segment, segments[index]? = some segment ∧ offset < segment.length ∧
      positionOf (segments.map List.length) index offset = position := by
  obtain ⟨size, atIndex, bound, back⟩ := (locate_eq_some_iff _ _ _ _).mp found
  rw [List.getElem?_map, Option.map_eq_some_iff] at atIndex
  obtain ⟨segment, present, same⟩ := atIndex
  exact ⟨segment, present, same ▸ bound, back⟩

theorem slice_isPrefix (segments : List (List α)) (position count : Nat) :
    slice segments position count <+: segments.flatten.drop position := by
  cases found : locate (segments.map List.length) position with
  | none =>
      rw [slice, found]
      exact List.nil_prefix
  | some place =>
      obtain ⟨index, offset⟩ := place
      obtain ⟨segment, atIndex, inside, back⟩ := located_segment found
      rw [slice_of_locate found atIndex, ← back,
        flatten_drop_positionOf atIndex (Nat.le_of_lt inside)]
      exact (List.take_prefix _ _).trans (List.prefix_append _ _)

theorem slice_length_le (segments : List (List α)) (position count : Nat) :
    (slice segments position count).length ≤ count := by
  unfold slice
  split
  · exact Nat.zero_le _
  · rw [List.length_take]
    exact Nat.min_le_left _ _

/-- A read gives nothing only at the end, or when nothing is asked for. -/
theorem slice_eq_nil_iff (segments : List (List α)) (position count : Nat) :
    slice segments position count = [] ↔ count = 0 ∨ segments.flatten.length ≤ position := by
  cases found : locate (segments.map List.length) position with
  | none =>
      have past := (locate_eq_none_iff _ _).mp found
      rw [← List.length_flatten] at past
      rw [slice, found]
      exact iff_of_true rfl (Or.inr past)
  | some place =>
      obtain ⟨index, offset⟩ := place
      obtain ⟨segment, atIndex, inside, back⟩ := located_segment found
      have before := positionOf_lt_flatten atIndex inside
      rw [slice_of_locate found atIndex, List.take_eq_nil_iff, List.drop_eq_nil_iff]
      omega

/-- Several reads in a row, each from where the one before stopped. -/
def slices (segments : List (List α)) (position : Nat) : List Nat → List α
  | [] => []
  | count :: counts =>
      slice segments position count ++
        slices segments (position + (slice segments position count).length) counts

theorem slices_isPrefix (segments : List (List α)) (position : Nat) (counts : List Nat) :
    slices segments position counts <+: segments.flatten.drop position := by
  induction counts generalizing position with
  | nil => exact List.nil_prefix
  | cons count counts ih =>
      obtain ⟨rest, whole⟩ := slice_isPrefix segments position count
      have later := ih (position + (slice segments position count).length)
      rw [← List.drop_drop, ← whole, List.drop_left] at later
      rw [slices, ← whole]
      exact (List.prefix_append_right_inj _).mpr later

/-- Enough reads that ask for something get everything. -/
theorem slices_complete (segments : List (List α)) (position : Nat) (counts : List Nat)
    (positive : ∀ count, count ∈ counts → 0 < count)
    (enough : (segments.flatten.drop position).length ≤ counts.length) :
    slices segments position counts = segments.flatten.drop position := by
  induction counts generalizing position with
  | nil =>
      rw [slices]
      exact (List.eq_nil_of_length_eq_zero (Nat.eq_zero_of_le_zero enough)).symm
  | cons count counts ih =>
      obtain ⟨rest, whole⟩ := slice_isPrefix segments position count
      have onward : segments.flatten.drop
          (position + (slice segments position count).length) = rest := by
        rw [← List.drop_drop, ← whole, List.drop_left]
      have shorter : rest.length ≤ counts.length := by
        have lengths := congrArg List.length whole
        rw [List.length_append] at lengths
        rw [List.length_cons] at enough
        by_cases nothing : slice segments position count = []
        · have past := ((slice_eq_nil_iff segments position count).mp nothing).resolve_left
            (Nat.ne_of_gt (positive count List.mem_cons_self))
          rw [List.drop_eq_nil_of_le past] at lengths
          rw [List.length_nil] at lengths
          omega
        · have progress := List.length_pos_iff.mpr nothing
          omega
      rw [slices, ih _ (fun other member => positive other (List.mem_cons_of_mem count member))
        (onward ▸ shorter), onward, whole]

end Aesd.SegmentedBytes
