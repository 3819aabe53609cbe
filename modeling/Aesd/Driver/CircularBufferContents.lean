/-
What the ring of write commands holds.

`Holds buffer entries` says that `entries` is the content of the ring, oldest
first.  It fixes every field of the ring: the rotation may be anything when
the ring is full and is zero otherwise, and a slot that is not in use is zero.
The traversals are then computed from `entries` alone, for every rotation.
-/

import Aesd.Driver.CircularBuffer
import Aesd.RecentWindow
import Aesd.SegmentedBytes
import Mathlib.Data.List.GetD

set_option autoImplicit false

namespace Aesd.Driver.AesdCircularBuffer

open BoundedLoop RecentWindow SegmentedBytes

/-- The entries a walk from `out_offs` meets: the content, then slots not in use. -/
def walked (entries : List AesdBufferEntry) (step : Nat) : AesdBufferEntry :=
  entries.getD step .zero

theorem walked_of_getElem? {entries : List AesdBufferEntry} {step : Nat} {entry : AesdBufferEntry}
    (stored : entries[step]? = some entry) : walked entries step = entry := by
  rw [walked, List.getD_eq_getElem?_getD, stored, Option.getD_some]

theorem walked_beyond {entries : List AesdBufferEntry} {step : Nat}
    (beyond : entries.length ≤ step) : walked entries step = .zero :=
  List.getD_eq_default _ _ beyond

theorem walked_append {entries : List AesdBufferEntry} {step : Nat} (later : List AesdBufferEntry)
    (within : step < entries.length) : walked (entries ++ later) step = walked entries step :=
  List.getD_append _ _ _ _ within

theorem walked_concat (entries : List AesdBufferEntry) (entry : AesdBufferEntry) :
    walked (entries ++ [entry]) entries.length = entry :=
  walked_of_getElem? List.getElem?_concat_length

theorem walked_tail (entries : List AesdBufferEntry) (step : Nat) :
    walked entries.tail step = walked entries (step + 1) := by
  rw [walked, walked, List.getD_eq_getElem?_getD, List.getD_eq_getElem?_getD, List.getElem?_tail]

structure Holds (buffer : AesdCircularBuffer) (entries : List AesdBufferEntry) : Prop where
  bounded : entries.length ≤ aesdcharMaxWriteOperationsSupported
  outLt : buffer.outOffs < aesdcharMaxWriteOperationsSupported
  inAt : buffer.inOffs =
    (buffer.outOffs + entries.length) % aesdcharMaxWriteOperationsSupported
  fullAt : buffer.full = decide (entries.length = aesdcharMaxWriteOperationsSupported)
  unrotated : entries.length < aesdcharMaxWriteOperationsSupported → buffer.outOffs = 0
  slots : ∀ step, step < aesdcharMaxWriteOperationsSupported →
    buffer.entry[(buffer.outOffs + step) % aesdcharMaxWriteOperationsSupported]? =
      some (walked entries step)

theorem init_holds : init.Holds [] where
  bounded := Nat.zero_le _
  outLt := by decide
  inAt := rfl
  fullAt := rfl
  unrotated := fun _ => rfl
  slots := by decide

section Contents

variable {buffer : AesdCircularBuffer} {entries : List AesdBufferEntry}

theorem Holds.inLt (holds : buffer.Holds entries) :
    buffer.inOffs < aesdcharMaxWriteOperationsSupported := by
  rw [holds.inAt]
  exact Nat.mod_lt _ (by decide)

theorem Holds.getCount_eq (holds : buffer.Holds entries) : buffer.getCount = entries.length := by
  have bounded := holds.bounded
  have inAt := holds.inAt
  unfold getCount
  rw [holds.fullAt]
  by_cases full : entries.length = aesdcharMaxWriteOperationsSupported
  · rw [decide_eq_true full, if_neg (by decide), full]
  · have atZero := holds.unrotated (by omega)
    rw [atZero] at inAt ⊢
    rw [decide_eq_false full, if_pos rfl, if_pos (Nat.zero_le _), inAt]
    simp only [aesdcharMaxWriteOperationsSupported] at bounded full ⊢
    omega

theorem Holds.entryAt_step (holds : buffer.Holds entries) {step : Nat}
    (inside : step < aesdcharMaxWriteOperationsSupported) :
    buffer.entryAt ((buffer.outOffs + step) % aesdcharMaxWriteOperationsSupported) =
      .ok (walked entries step) := by
  unfold entryAt
  rw [holds.slots step inside]

/-! ### Adding an entry -/

private theorem setIfInBounds_slot (buffer : AesdCircularBuffer) (entry : AesdBufferEntry)
    (start left right : Nat) (leftLt : left < aesdcharMaxWriteOperationsSupported)
    (rightLt : right < aesdcharMaxWriteOperationsSupported) :
    (buffer.entry.setIfInBounds ((start + left) % aesdcharMaxWriteOperationsSupported) entry)[
        (start + right) % aesdcharMaxWriteOperationsSupported]? =
      if left = right then some entry
      else buffer.entry[(start + right) % aesdcharMaxWriteOperationsSupported]? := by
  have rightIn := Nat.mod_lt (start + right)
    (show aesdcharMaxWriteOperationsSupported > 0 by decide)
  rw [Vector.getElem?_setIfInBounds]
  by_cases same : left = right
  · rw [if_pos same, if_pos (by rw [same]), if_pos (by rw [same]; exact rightIn)]
  · rw [if_neg same, if_neg (fun equal => same (ring_index_injective leftLt rightLt equal))]

/-- With room left the new entry goes behind the others. -/
theorem Holds.addEntry_of_lt (holds : buffer.Holds entries) (entry : AesdBufferEntry)
    (room : entries.length < aesdcharMaxWriteOperationsSupported) :
    ∃ added, buffer.addEntry entry = .ok added ∧ added.Holds (entries ++ [entry]) ∧
      added.outOffs = buffer.outOffs := by
  have atZero := holds.unrotated room
  have inAt : buffer.inOffs = entries.length := by
    rw [holds.inAt, atZero, Nat.zero_add, Nat.mod_eq_of_lt room]
  let added : AesdCircularBuffer :=
    { entry := buffer.entry.setIfInBounds buffer.inOffs entry
      inOffs := (buffer.inOffs + 1) % aesdcharMaxWriteOperationsSupported
      outOffs := buffer.outOffs
      full := decide (entries.length + 1 = aesdcharMaxWriteOperationsSupported) }
  refine ⟨added, ?_, ?_, rfl⟩
  · have notFull : buffer.full = false := by
      rw [holds.fullAt]
      exact decide_eq_false (Nat.ne_of_lt room)
    unfold addEntry setEntry
    rw [holds.getCount_eq, if_pos holds.inLt]
    by_cases last : entries.length + 1 = aesdcharMaxWriteOperationsSupported
    · simp only [ok_bind, if_pos room, if_pos last, added, decide_eq_true last]
      rfl
    · simp only [ok_bind, if_pos room, if_neg last, added, decide_eq_false last, notFull]
      rfl
  · have length : (entries ++ [entry]).length = entries.length + 1 := by
      rw [List.length_append, List.length_singleton]
    constructor
    · omega
    · exact holds.outLt
    · change (buffer.inOffs + 1) % _ = (buffer.outOffs + _) % _
      rw [length, inAt, atZero, Nat.zero_add]
    · change decide _ = decide _
      rw [length]
    · intro _room
      exact atZero
    · intro step inside
      have slot := setIfInBounds_slot buffer entry buffer.outOffs entries.length step room inside
      rw [← holds.inAt] at slot
      change (buffer.entry.setIfInBounds buffer.inOffs entry)[_]? = _
      rw [slot]
      by_cases new : entries.length = step
      · rw [if_pos new, ← new, walked_concat]
      · rw [if_neg new, holds.slots step inside]
        rcases Nat.lt_or_gt_of_ne new with beyond | within
        · rw [walked_beyond (Nat.le_of_lt beyond), walked_beyond (by omega)]
        · rw [walked_append _ within]

/-- On a full ring the new entry takes the slot of the oldest one. -/
theorem Holds.addEntry_of_full (holds : buffer.Holds entries) (entry : AesdBufferEntry)
    (full : entries.length = aesdcharMaxWriteOperationsSupported) :
    ∃ added, buffer.addEntry entry = .ok added ∧ added.Holds (entries.tail ++ [entry]) := by
  have inAt : buffer.inOffs = buffer.outOffs := by
    rw [holds.inAt, full, Nat.add_mod_right, Nat.mod_eq_of_lt holds.outLt]
  let added : AesdCircularBuffer :=
    { entry := buffer.entry.setIfInBounds buffer.inOffs entry
      inOffs := (buffer.inOffs + 1) % aesdcharMaxWriteOperationsSupported
      outOffs := (buffer.inOffs + 1) % aesdcharMaxWriteOperationsSupported
      full := true }
  refine ⟨added, ?_, ?_⟩
  · have isFull : buffer.full = true := by
      rw [holds.fullAt]
      exact decide_eq_true full
    unfold addEntry setEntry
    rw [holds.getCount_eq, if_pos holds.inLt, full]
    simp only [ok_bind, Nat.lt_irrefl, if_false, added]
    rw [isFull]
    rfl
  · have length : (entries.tail ++ [entry]).length = aesdcharMaxWriteOperationsSupported := by
      rw [List.length_append, List.length_tail, List.length_singleton, full]
      rfl
    constructor
    · exact Nat.le_of_eq length
    · exact Nat.mod_lt _ (by decide)
    · change _ % _ = (_ % _ + _) % _
      rw [length, Nat.add_mod_right, Nat.mod_mod]
    · change true = decide _
      exact (decide_eq_true length).symm
    · intro small
      omega
    · intro step inside
      change (buffer.entry.setIfInBounds buffer.inOffs entry)[
        ((buffer.inOffs + 1) % _ + step) % _]? = _
      have rotated : ((buffer.inOffs + 1) % aesdcharMaxWriteOperationsSupported + step) %
          aesdcharMaxWriteOperationsSupported =
            (buffer.outOffs + (step + 1) % aesdcharMaxWriteOperationsSupported) %
              aesdcharMaxWriteOperationsSupported := by
        rw [inAt, Nat.mod_add_mod, Nat.add_mod_mod, Nat.add_assoc, Nat.add_comm 1 step]
      have slot := setIfInBounds_slot buffer entry buffer.outOffs 0
        ((step + 1) % aesdcharMaxWriteOperationsSupported) (by decide) (Nat.mod_lt _ (by decide))
      rw [Nat.add_zero, Nat.mod_eq_of_lt holds.outLt, ← inAt] at slot
      rw [rotated, ← inAt, slot]
      by_cases new : step + 1 = aesdcharMaxWriteOperationsSupported
      · have last : step = entries.tail.length := by
          rw [List.length_tail]
          omega
        rw [new, Nat.mod_self, if_pos rfl, last, walked_concat]
      · have early : step + 1 < aesdcharMaxWriteOperationsSupported := by omega
        rw [Nat.mod_eq_of_lt early, if_neg (by omega), inAt, holds.slots (step + 1) early,
          walked_append _ (by rw [List.length_tail]; omega), walked_tail]

/-- Either way the ring keeps the last ten entries. -/
theorem Holds.addEntry_recent (holds : buffer.Holds entries) (entry : AesdBufferEntry) :
    ∃ added, buffer.addEntry entry = .ok added ∧
      added.Holds (recent aesdcharMaxWriteOperationsSupported (entries ++ [entry])) := by
  rcases Nat.lt_or_ge entries.length aesdcharMaxWriteOperationsSupported with room | large
  · obtain ⟨added, result, content, _same⟩ := holds.addEntry_of_lt entry room
    exact ⟨added, result, (recent_concat_of_lt room).symm ▸ content⟩
  · have full := Nat.le_antisymm holds.bounded large
    obtain ⟨added, result, content⟩ := holds.addEntry_of_full entry full
    exact ⟨added, result, (recent_concat_of_full full (by decide)).symm ▸ content⟩

/-- An added entry touches its own slot, and moves `out_offs` only when the ring
was full. -/
theorem addEntry_frame {added : AesdCircularBuffer} {entry : AesdBufferEntry}
    (result : buffer.addEntry entry = .ok added) :
    (∀ index, index ≠ buffer.inOffs → added.entry[index]? = buffer.entry[index]?) ∧
      added.outOffs = if buffer.getCount < aesdcharMaxWriteOperationsSupported then buffer.outOffs
        else (buffer.inOffs + 1) % aesdcharMaxWriteOperationsSupported := by
  unfold addEntry setEntry at result
  by_cases inside : buffer.inOffs < aesdcharMaxWriteOperationsSupported
  · have others : ∀ index, index ≠ buffer.inOffs →
        (buffer.entry.setIfInBounds buffer.inOffs entry)[index]? = buffer.entry[index]? :=
      fun index different => Vector.getElem?_setIfInBounds_ne (Ne.symm different)
    simp only [if_pos inside, ok_bind] at result
    by_cases room : buffer.getCount < aesdcharMaxWriteOperationsSupported
    · rw [if_pos room] at result ⊢
      split at result
      · cases result
        exact ⟨others, rfl⟩
      · cases result
        exact ⟨others, rfl⟩
    · rw [if_neg room] at result ⊢
      cases result
      exact ⟨others, rfl⟩
  · rw [if_neg inside] at result
    cases result

/-- What the slot at `in_offs` held before makes no difference. -/
theorem addEntry_setEntry {cleared : AesdCircularBuffer} (entry old : AesdBufferEntry)
    (set : buffer.setEntry buffer.inOffs old = .ok cleared) :
    cleared.addEntry entry = buffer.addEntry entry := by
  unfold setEntry at set
  by_cases inside : buffer.inOffs < aesdcharMaxWriteOperationsSupported
  · rw [if_pos inside] at set
    cases set
    have twice : (buffer.entry.setIfInBounds buffer.inOffs old).setIfInBounds
        buffer.inOffs entry = buffer.entry.setIfInBounds buffer.inOffs entry := by
      apply Vector.ext
      intro index bound
      rw [Vector.getElem_setIfInBounds, Vector.getElem_setIfInBounds,
        Vector.getElem_setIfInBounds]
      split <;> rfl
    unfold addEntry setEntry
    simp only [if_pos inside, ok_bind, twice]
    rfl
  · rw [if_neg inside] at set
    cases set

/-! ### The traversals -/

def sizes (entries : List AesdBufferEntry) : List Nat := entries.map AesdBufferEntry.size

theorem walked_sizes (bounded : entries.length ≤ aesdcharMaxWriteOperationsSupported) :
    (List.range' 0 aesdcharMaxWriteOperationsSupported).map (fun step => (walked entries step).size) =
      sizes entries ++
        List.replicate (aesdcharMaxWriteOperationsSupported - entries.length) 0 := by
  apply List.ext_getElem
  · rw [List.length_map, List.length_range', List.length_append, List.length_replicate, sizes,
      List.length_map]
    omega
  · intro step leftBound rightBound
    rw [List.getElem_map, List.getElem_range', Nat.one_mul, Nat.zero_add]
    by_cases stored : step < entries.length
    · rw [List.getElem_append_left (by rw [sizes, List.length_map]; exact stored)]
      rw [walked_of_getElem? (List.getElem?_eq_getElem stored)]
      simp only [sizes, List.getElem_map]
    · rw [List.getElem_append_right (by rw [sizes, List.length_map]; omega),
        List.getElem_replicate, walked_beyond (by omega)]
      rfl

/-- A traversal visits the walked entries in order; `visit` may look at no
more than the entry of its slot. -/
private theorem Holds.traverse_eq {State Result : Type} (holds : buffer.Holds entries)
    (visit : State → Nat → Except Fault (Round State Result)) (finish : State → Result)
    (state : State) :
    buffer.traverse visit finish state =
      visitAll visit finish ((List.range' 0 aesdcharMaxWriteOperationsSupported).map
        (fun step => (buffer.outOffs + step) % aesdcharMaxWriteOperationsSupported)) state := by
  unfold traverse
  rw [repeat_ringRound _ holds.outLt, ringOrder, List.range_eq_range']

/-- The search of `find_entry_offset_for_fpos` over the sizes alone, with the
wrapping arithmetic of the code. -/
def findIn : List Nat → Nat → Nat → Nat → Option (Nat × Nat)
  | [], _, _, _ => none
  | size :: rest, step, posBytes, charOffset =>
      if charOffset < sizeT (posBytes + size) then some (step, sizeTSub charOffset posBytes)
      else findIn rest (step + 1) (sizeT (posBytes + size)) charOffset

private theorem Holds.visitAll_find (holds : buffer.Holds entries) (charOffset : Nat)
    (count step posBytes : Nat) (inside : step + count ≤ aesdcharMaxWriteOperationsSupported) :
    visitAll (buffer.findVisit charOffset) (fun _ => none)
        ((List.range' step count).map
          (fun step => (buffer.outOffs + step) % aesdcharMaxWriteOperationsSupported)) posBytes =
      .ok ((findIn ((List.range' step count).map (fun step => (walked entries step).size))
        step posBytes charOffset).map (fun found =>
          ((buffer.outOffs + found.1) % aesdcharMaxWriteOperationsSupported, found.2))) := by
  induction count generalizing step posBytes with
  | zero => rfl
  | succ count ih =>
      have here : step < aesdcharMaxWriteOperationsSupported := by omega
      have entryAt := holds.entryAt_step here
      rw [List.range'_succ, List.map_cons, List.map_cons, visitAll, findVisit, entryAt, ok_bind,
        findIn]
      by_cases found : charOffset < sizeT (posBytes + (walked entries step).size)
      · rw [if_pos found, if_pos found]
        rfl
      · rw [if_neg found, if_neg found]
        exact ih (step + 1) _ (by omega)

theorem Holds.find_eq (holds : buffer.Holds entries) (charOffset : Nat) :
    buffer.findEntryOffsetForFpos charOffset =
      .ok ((findIn (sizes entries ++
          List.replicate (aesdcharMaxWriteOperationsSupported - entries.length) 0) 0 0
        charOffset).map (fun found =>
          ((buffer.outOffs + found.1) % aesdcharMaxWriteOperationsSupported, found.2))) := by
  unfold findEntryOffsetForFpos
  rw [holds.traverse_eq, holds.visitAll_find charOffset _ 0 0 (Nat.le_refl _),
    walked_sizes holds.bounded]

/-- Without wrapping the search is the location of a flat position. -/
theorem findIn_eq_locate (entrySizes : List Nat) (step posBytes charOffset : Nat)
    (reached : posBytes ≤ charOffset) (small : charOffset < 2 ^ 64)
    (total : posBytes + entrySizes.sum < 2 ^ 64) :
    findIn entrySizes step posBytes charOffset =
      (locate entrySizes (charOffset - posBytes)).map (fun found => (step + found.1, found.2)) := by
  induction entrySizes generalizing step posBytes with
  | nil => rfl
  | cons size rest ih =>
      rw [List.sum_cons] at total
      rw [findIn, sizeT_of_lt (by omega), sizeTSub_of_le reached small, locate]
      by_cases here : charOffset < posBytes + size
      · rw [if_pos here, if_pos (by omega)]
        rfl
      · rw [if_neg here, if_neg (by omega), ih (step + 1) (posBytes + size) (by omega) (by omega),
          Option.map_map, Nat.sub_sub]
        congr 1
        funext found
        exact Prod.ext (by change step + 1 + found.1 = step + (found.1 + 1); omega) rfl

theorem Holds.find_eq_locate (holds : buffer.Holds entries) {charOffset : Nat}
    (small : charOffset < 2 ^ 64) (total : (sizes entries).sum < 2 ^ 64) :
    buffer.findEntryOffsetForFpos charOffset =
      .ok ((locate (sizes entries) charOffset).map (fun found =>
        ((buffer.outOffs + found.1) % aesdcharMaxWriteOperationsSupported, found.2))) := by
  have walkTotal : 0 + (sizes entries ++ List.replicate
      (aesdcharMaxWriteOperationsSupported - entries.length) 0).sum < 2 ^ 64 := by
    rw [List.sum_append, List.sum_replicate, nsmul_zero, Nat.add_zero, Nat.zero_add]
    exact total
  rw [holds.find_eq, findIn_eq_locate _ 0 0 charOffset (Nat.zero_le _) small walkTotal,
    locate_append_zeros, Option.map_map, Nat.sub_zero]
  congr 2
  funext found
  simp only [Function.comp_apply, Nat.zero_add]

/-! ### Position of an entry -/

private theorem Holds.visitAll_fpos (holds : buffer.Holds entries) {target : Nat}
    (targetLt : target < aesdcharMaxWriteOperationsSupported) (entryOffset : Nat)
    (count step posBytes : Nat) (inside : step + count = aesdcharMaxWriteOperationsSupported)
    (ahead : step ≤ target)
    (reached : posBytes =
      sizeT (((List.range' 0 step).map (fun step => (walked entries step).size)).sum)) :
    visitAll (buffer.fposVisit
          ((buffer.outOffs + target) % aesdcharMaxWriteOperationsSupported) entryOffset)
        (fun _ => none) ((List.range' step count).map
          (fun step => (buffer.outOffs + step) % aesdcharMaxWriteOperationsSupported)) posBytes =
      .ok (if entryOffset < (walked entries target).size then
        some (sizeT (((List.range' 0 target).map
          (fun step => (walked entries step).size)).sum + entryOffset)) else none) := by
  induction count generalizing step posBytes with
  | zero => omega
  | succ count ih =>
      rw [List.range'_succ, List.map_cons, visitAll, fposVisit]
      by_cases atTarget : step = target
      · subst atTarget
        rw [if_pos rfl, holds.entryAt_step targetLt, ok_bind]
        by_cases within : entryOffset < (walked entries step).size
        · rw [if_neg (Nat.not_le.mpr within), if_pos within, reached]
          simp only [sizeT, Nat.mod_add_mod]
          rfl
        · rw [if_pos (Nat.le_of_not_lt within), if_neg within]
          rfl
      · have different : (buffer.outOffs + step) % aesdcharMaxWriteOperationsSupported ≠
            (buffer.outOffs + target) % aesdcharMaxWriteOperationsSupported :=
          fun same => atTarget (ring_index_injective (by omega) targetLt same)
        have here : step < aesdcharMaxWriteOperationsSupported := by omega
        rw [if_neg different, holds.entryAt_step here, ok_bind]
        apply ih (step + 1) _ (by omega) (by omega)
        rw [List.range'_concat, List.map_append, List.sum_append, reached]
        simp only [sizeT, Nat.mod_add_mod, Nat.zero_add, Nat.one_mul, List.map_cons, List.map_nil,
          List.sum_cons, List.sum_nil, Nat.add_zero]

theorem walked_sizes_take (bounded : entries.length ≤ aesdcharMaxWriteOperationsSupported)
    {target : Nat} (stored : target ≤ entries.length) :
    (List.range' 0 target).map (fun step => (walked entries step).size) =
      (sizes entries).take target := by
  have whole := congrArg (List.take target) (walked_sizes bounded)
  rw [← List.map_take, List.take_range'_of_length_ge (stored.trans bounded),
    List.take_append_of_le_length (by rw [sizes, List.length_map]; exact stored)] at whole
  exact whole

/-- Every slot of the array is met, a slot that is not in use as one without bytes. -/
theorem Holds.fpos_of_step (holds : buffer.Holds entries) {step : Nat}
    (inside : step < aesdcharMaxWriteOperationsSupported) (entryOffset : Nat) :
    buffer.fposForEntry ((buffer.outOffs + step) % aesdcharMaxWriteOperationsSupported)
        entryOffset =
      .ok (if entryOffset < (walked entries step).size then
        some (sizeT (((List.range' 0 step).map
          (fun step => (walked entries step).size)).sum + entryOffset)) else none) := by
  unfold fposForEntry
  rw [holds.traverse_eq]
  exact holds.visitAll_fpos inside entryOffset _ 0 0 (Nat.zero_add _) (Nat.zero_le _) rfl

/-- The position of an offset in a stored entry counts the entries before it. -/
theorem Holds.fpos_eq (holds : buffer.Holds entries) {index : Nat} {entry : AesdBufferEntry}
    (atIndex : entries[index]? = some entry) (entryOffset : Nat) :
    buffer.fposForEntry ((buffer.outOffs + index) % aesdcharMaxWriteOperationsSupported)
        entryOffset =
      .ok (if entryOffset < entry.size then
        some (sizeT (positionOf (sizes entries) index entryOffset)) else none) := by
  obtain ⟨stored, _same⟩ := List.getElem?_eq_some_iff.mp atIndex
  have bounded := holds.bounded
  rw [holds.fpos_of_step (by omega), walked_sizes_take bounded (Nat.le_of_lt stored),
    walked_of_getElem? atIndex]
  rfl

private theorem Holds.visitAll_fpos_outside (holds : buffer.Holds entries) {slot : Nat}
    (outside : aesdcharMaxWriteOperationsSupported ≤ slot) (entryOffset count step posBytes : Nat)
    (inside : step + count ≤ aesdcharMaxWriteOperationsSupported) :
    visitAll (buffer.fposVisit slot entryOffset) (fun _ => none)
        ((List.range' step count).map
          (fun step => (buffer.outOffs + step) % aesdcharMaxWriteOperationsSupported)) posBytes =
      .ok none := by
  induction count generalizing step posBytes with
  | zero => rfl
  | succ count ih =>
      have here : step < aesdcharMaxWriteOperationsSupported := by omega
      have index := Nat.mod_lt (buffer.outOffs + step)
        (show aesdcharMaxWriteOperationsSupported > 0 by decide)
      rw [List.range'_succ, List.map_cons, visitAll, fposVisit, if_neg (by omega),
        holds.entryAt_step here, ok_bind]
      exact ih (step + 1) _ (by omega)

/-- A pointer to no slot of the ring is not found. -/
theorem Holds.fpos_outside (holds : buffer.Holds entries) {slot : Nat}
    (outside : aesdcharMaxWriteOperationsSupported ≤ slot) (entryOffset : Nat) :
    buffer.fposForEntry slot entryOffset = .ok none := by
  unfold fposForEntry
  rw [holds.traverse_eq]
  exact holds.visitAll_fpos_outside outside entryOffset _ 0 0 (Nat.le_refl _)

/-! ### Total size -/

private theorem Holds.visitAll_size (holds : buffer.Holds entries) (count step size : Nat)
    (inside : step + count ≤ aesdcharMaxWriteOperationsSupported) (small : size < 2 ^ 64) :
    visitAll buffer.sizeVisit id ((List.range' step count).map
        (fun step => (buffer.outOffs + step) % aesdcharMaxWriteOperationsSupported)) size =
      .ok (sizeT (size +
        ((List.range' step count).map (fun step => (walked entries step).size)).sum)) := by
  induction count generalizing step size with
  | zero => exact congrArg Except.ok (sizeT_of_lt small).symm
  | succ count ih =>
      have here : step < aesdcharMaxWriteOperationsSupported := by omega
      rw [List.range'_succ, List.map_cons, visitAll, sizeVisit, holds.entryAt_step here, ok_bind]
      refine (ih (step + 1) _ (by omega) (sizeT_lt _)).trans ?_
      simp only [sizeT, Nat.mod_add_mod, List.map_cons, List.sum_cons, Nat.add_assoc]

theorem Holds.getSize_eq (holds : buffer.Holds entries) :
    buffer.getSize = .ok (sizeT (sizes entries).sum) := by
  unfold getSize
  rw [holds.traverse_eq, holds.visitAll_size _ 0 0 (Nat.le_refl _) (by norm_num),
    walked_sizes holds.bounded, List.sum_append, List.sum_replicate, nsmul_zero, Nat.add_zero,
    Nat.zero_add]

end Contents

end Aesd.Driver.AesdCircularBuffer
