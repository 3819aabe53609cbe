/-
The ring after any history of added entries.

The slots are numbered along the walk from `out_offs`, oldest entry first.
Whatever was added, the ring is a queue of the last ten entries, and its two
position lookups are inverse to each other on the live slots.
-/

import Aesd.Driver.CircularBufferContents

set_option autoImplicit false

namespace Aesd.Driver.AesdCircularBuffer

open BoundedLoop RecentWindow SegmentedBytes

/-- Calls of aesd_circular_buffer_add_entry, one after another. -/
def addEntries (buffer : AesdCircularBuffer) (added : List AesdBufferEntry) :
    Except Fault AesdCircularBuffer :=
  added.foldlM addEntry buffer

/-- The slot a walk from `out_offs` meets after `number` others. -/
def slotOf (buffer : AesdCircularBuffer) (number : Nat) : Nat :=
  (buffer.outOffs + number) % aesdcharMaxWriteOperationsSupported

/-- The ring is the queue of the last ten of the entries that were added. -/
structure KeepsRecent (buffer : AesdCircularBuffer) (added : List AesdBufferEntry) : Prop where
  inLt : buffer.inOffs < aesdcharMaxWriteOperationsSupported
  outLt : buffer.outOffs < aesdcharMaxWriteOperationsSupported
  full_iff : buffer.full = true ↔ aesdcharMaxWriteOperationsSupported ≤ added.length
  full_meets : buffer.full = true → buffer.inOffs = buffer.outOffs
  unrotated : buffer.full = false → buffer.outOffs = 0
  zero_behind : buffer.full = false → ∀ slot, buffer.inOffs ≤ slot →
    slot < aesdcharMaxWriteOperationsSupported → buffer.entry[slot]? = some .zero
  count : buffer.getCount = min added.length aesdcharMaxWriteOperationsSupported
  distinct : ((List.range buffer.getCount).map buffer.slotOf).Nodup
  walk : ((List.range buffer.getCount).map buffer.slotOf).map (fun slot => buffer.entry[slot]?) =
    (added.drop (added.length - min added.length aesdcharMaxWriteOperationsSupported)).map some
  next : ∀ entry, ∃ after, buffer.addEntry entry = .ok after ∧
    after.entry[buffer.inOffs]? = some entry ∧
    (∀ slot, slot ≠ buffer.inOffs → after.entry[slot]? = buffer.entry[slot]?)
  next_oldest : buffer.full = true → buffer.entry[buffer.inOffs]? =
    added[added.length - aesdcharMaxWriteOperationsSupported]?

/-- The two lookups are inverse to each other on the pairs of a live slot and an
offset within it; `size` bytes are stored. -/
structure LookupsInverse (buffer : AesdCircularBuffer) (size : Nat) : Prop where
  getSize : buffer.getSize = .ok size
  inverse : ∀ charOffset slot offset, charOffset < 2 ^ 64 →
    (buffer.findEntryOffsetForFpos charOffset = .ok (some (slot, offset)) ↔
      buffer.fposForEntry slot offset = .ok (some charOffset))
  finds_live : ∀ charOffset slot offset, charOffset < 2 ^ 64 →
    buffer.findEntryOffsetForFpos charOffset = .ok (some (slot, offset)) →
    ∃ number entry, number < buffer.getCount ∧ slot = buffer.slotOf number ∧
      buffer.entry[slot]? = some entry ∧ offset < entry.size
  finds : ∀ charOffset, ∃ found, buffer.findEntryOffsetForFpos charOffset = .ok found
  finds_nothing : ∀ charOffset, charOffset < 2 ^ 64 →
    (buffer.findEntryOffsetForFpos charOffset = .ok none ↔ size ≤ charOffset)
  places : ∀ slot offset, ∃ placed, buffer.fposForEntry slot offset = .ok placed
  places_nothing : ∀ slot offset, buffer.fposForEntry slot offset = .ok none ↔
    ∀ entry, buffer.entry[slot]? = some entry → entry.size ≤ offset
  places_within : ∀ slot offset charOffset,
    buffer.fposForEntry slot offset = .ok (some charOffset) → charOffset < size
  increasing : ∀ left leftOffset leftPos right rightOffset rightPos,
    left < buffer.getCount → right < buffer.getCount →
    buffer.fposForEntry (buffer.slotOf left) leftOffset = .ok (some leftPos) →
    buffer.fposForEntry (buffer.slotOf right) rightOffset = .ok (some rightPos) →
    (left < right ∨ left = right ∧ leftOffset < rightOffset) → leftPos < rightPos

section Contents

variable {buffer : AesdCircularBuffer} {entries : List AesdBufferEntry}

theorem Holds.entry_slotOf (holds : buffer.Holds entries) {number : Nat}
    (inside : number < aesdcharMaxWriteOperationsSupported) :
    buffer.entry[buffer.slotOf number]? = some (walked entries number) :=
  holds.slots number inside

/-- Every slot is met by the walk. -/
theorem slotOf_surjective (buffer : AesdCircularBuffer) {slot : Nat}
    (inside : slot < aesdcharMaxWriteOperationsSupported) :
    ∃ number, number < aesdcharMaxWriteOperationsSupported ∧ slot = buffer.slotOf number := by
  have member : slot ∈ ringOrder aesdcharMaxWriteOperationsSupported buffer.outOffs :=
    (ringOrder_perm _ _).mem_iff.mpr (List.mem_range.mpr inside)
  obtain ⟨number, bound, same⟩ := List.mem_map.mp member
  exact ⟨number, List.mem_range.mp bound, same.symm⟩

theorem slotOf_nodup (buffer : AesdCircularBuffer) {count : Nat}
    (bounded : count ≤ aesdcharMaxWriteOperationsSupported) :
    ((List.range count).map buffer.slotOf).Nodup := by
  apply List.Nodup.map_on _ List.nodup_range
  intro left leftIn right rightIn same
  exact ring_index_injective ((List.mem_range.mp leftIn).trans_le bounded)
    ((List.mem_range.mp rightIn).trans_le bounded) same

/-- A slot that is not in use has no bytes. -/
theorem live_of_inside {number offset : Nat} (inside : offset < (walked entries number).size) :
    entries[number]? = some (walked entries number) := by
  cases atNumber : entries[number]? with
  | some entry => rw [walked_of_getElem? atNumber]
  | none =>
      rw [walked_beyond (List.getElem?_eq_none_iff.mp atNumber)] at inside
      exact absurd inside (Nat.not_lt_zero _)

/-! ### The queue -/

theorem Holds.walk_eq (holds : buffer.Holds entries) :
    ((List.range buffer.getCount).map buffer.slotOf).map (fun slot => buffer.entry[slot]?) =
      entries.map some := by
  rw [holds.getCount_eq, List.map_map]
  apply List.ext_getElem
  · rw [List.length_map, List.length_range, List.length_map]
  · intro number leftBound rightBound
    rw [List.length_map] at rightBound
    rw [List.getElem_map, List.getElem_map, List.getElem_range, Function.comp_apply,
      holds.entry_slotOf (Nat.lt_of_lt_of_le rightBound holds.bounded),
      walked_of_getElem? (List.getElem?_eq_getElem rightBound)]

theorem addEntry_stored {added : AesdCircularBuffer} {entry : AesdBufferEntry}
    (inside : buffer.inOffs < aesdcharMaxWriteOperationsSupported)
    (result : buffer.addEntry entry = .ok added) : added.entry[buffer.inOffs]? = some entry := by
  have stored : (buffer.entry.setIfInBounds buffer.inOffs entry)[buffer.inOffs]? = some entry := by
    rw [Vector.getElem?_setIfInBounds, if_pos rfl, if_pos inside]
  unfold addEntry setEntry at result
  simp only [if_pos inside, ok_bind] at result
  split at result
  · split at result
    · cases result
      exact stored
    · cases result
      exact stored
  · cases result
    exact stored

theorem Holds.addEntries_recent (holds : buffer.Holds entries) (added : List AesdBufferEntry) :
    ∃ after, buffer.addEntries added = .ok after ∧
      after.Holds (recent aesdcharMaxWriteOperationsSupported (entries ++ added)) := by
  induction added generalizing buffer entries with
  | nil =>
      refine ⟨buffer, rfl, ?_⟩
      rw [List.append_nil, recent_of_le holds.bounded]
      exact holds
  | cons entry added ih =>
      obtain ⟨one, made, content⟩ := holds.addEntry_recent entry
      obtain ⟨after, ran, kept⟩ := ih content
      refine ⟨after, ?_, ?_⟩
      · unfold addEntries
        rw [List.foldlM_cons, made]
        exact ran
      · rw [recent_append, List.append_assoc, List.singleton_append] at kept
        exact kept

theorem Holds.keepsRecent {added : List AesdBufferEntry}
    (holds : buffer.Holds (recent aesdcharMaxWriteOperationsSupported added)) :
    buffer.KeepsRecent added := by
  have length := recent_length aesdcharMaxWriteOperationsSupported added
  have outLt := holds.outLt
  have inAt := holds.inAt
  have small : buffer.full = false → added.length < aesdcharMaxWriteOperationsSupported := by
    intro notFull
    rw [holds.fullAt, decide_eq_false_iff_not, length] at notFull
    omega
  have large : buffer.full = true → aesdcharMaxWriteOperationsSupported ≤ added.length := by
    intro isFull
    rw [holds.fullAt, decide_eq_true_iff, length] at isFull
    omega
  have atZero : buffer.full = false → buffer.outOffs = 0 := by
    intro notFull
    apply holds.unrotated
    rw [length]
    exact (Nat.min_le_right _ _).trans_lt (small notFull)
  have meets : buffer.full = true → buffer.inOffs = buffer.outOffs := by
    intro isFull
    rw [inAt, length, Nat.min_eq_left (large isFull), Nat.add_mod_right, Nat.mod_eq_of_lt outLt]
  constructor
  case inLt => exact holds.inLt
  case outLt => exact outLt
  case full_iff =>
    refine ⟨large, ?_⟩
    intro enough
    rw [holds.fullAt, decide_eq_true_iff, length, Nat.min_eq_left enough]
  case full_meets => exact meets
  case unrotated => exact atZero
  case zero_behind =>
    intro notFull slot behind inside
    have room := small notFull
    rw [inAt, atZero notFull, length, Nat.min_eq_right (Nat.le_of_lt room), Nat.zero_add,
      Nat.mod_eq_of_lt room] at behind
    have stored := holds.slots slot inside
    rw [atZero notFull, Nat.zero_add, Nat.mod_eq_of_lt inside] at stored
    rw [stored, walked_beyond (by rw [length]; exact (Nat.min_le_right _ _).trans behind)]
  case count => rw [holds.getCount_eq, length, Nat.min_comm]
  case distinct => exact slotOf_nodup buffer (holds.getCount_eq ▸ holds.bounded)
  case walk =>
    have start : added.length - min added.length aesdcharMaxWriteOperationsSupported =
        added.length - aesdcharMaxWriteOperationsSupported := by omega
    rw [holds.walk_eq, recent_eq_drop, start]
  case next =>
    intro entry
    obtain ⟨after, made, _content⟩ := holds.addEntry_recent entry
    exact ⟨after, made, addEntry_stored holds.inLt made, (addEntry_frame made).1⟩
  case next_oldest =>
    intro isFull
    have enough := large isFull
    have stored := holds.slots 0 (by decide)
    have oldest : added.length - aesdcharMaxWriteOperationsSupported < added.length := by
      simp only [aesdcharMaxWriteOperationsSupported] at enough ⊢
      omega
    have first : (recent aesdcharMaxWriteOperationsSupported added)[0]? =
        added[added.length - aesdcharMaxWriteOperationsSupported]? := by
      rw [recent_eq_drop, List.getElem?_drop, Nat.add_zero]
    rw [Nat.add_zero, Nat.mod_eq_of_lt outLt] at stored
    rw [meets isFull, stored, ← first]
    rw [List.getElem?_eq_getElem oldest] at first
    rw [walked_of_getElem? first, first]

/-! ### The lookups -/

theorem Holds.fpos_slotOf (holds : buffer.Holds entries) (total : (sizes entries).sum < 2 ^ 64)
    {slot offset charOffset : Nat} :
    buffer.fposForEntry slot offset = .ok (some charOffset) ↔
      ∃ number size, slot = buffer.slotOf number ∧ (sizes entries)[number]? = some size ∧
        offset < size ∧ positionOf (sizes entries) number offset = charOffset := by
  constructor
  · intro placed
    rcases Nat.lt_or_ge slot aesdcharMaxWriteOperationsSupported with inside | outside
    · obtain ⟨number, bound, rfl⟩ := buffer.slotOf_surjective inside
      have general := holds.fpos_of_step bound offset
      change buffer.fposForEntry (buffer.slotOf number) offset = _ at general
      rw [placed] at general
      by_cases within : offset < (walked entries number).size
      · have atNumber := live_of_inside within
        have exactly := holds.fpos_eq atNumber offset
        change buffer.fposForEntry (buffer.slotOf number) offset = _ at exactly
        have atSize : (sizes entries)[number]? = some (walked entries number).size := by
          rw [sizes, List.getElem?_map, atNumber, Option.map_some]
        have before := positionOf_lt_sum atSize within
        rw [placed, if_pos within, sizeT_of_lt (before.trans total)] at exactly
        cases exactly
        exact ⟨number, _, rfl, atSize, within, rfl⟩
      · rw [if_neg within] at general
        cases general
    · rw [holds.fpos_outside outside] at placed
      cases placed
  · rintro ⟨number, size, rfl, atSize, within, rfl⟩
    have before := positionOf_lt_sum atSize within
    rw [sizes, List.getElem?_map, Option.map_eq_some_iff] at atSize
    obtain ⟨entry, atNumber, rfl⟩ := atSize
    have exactly := holds.fpos_eq atNumber offset
    rw [if_pos within, sizeT_of_lt (before.trans total)] at exactly
    exact exactly

theorem Holds.find_slotOf (holds : buffer.Holds entries) (total : (sizes entries).sum < 2 ^ 64)
    {slot offset charOffset : Nat} (small : charOffset < 2 ^ 64) :
    buffer.findEntryOffsetForFpos charOffset = .ok (some (slot, offset)) ↔
      ∃ number size, slot = buffer.slotOf number ∧ (sizes entries)[number]? = some size ∧
        offset < size ∧ positionOf (sizes entries) number offset = charOffset := by
  rw [holds.find_eq_locate small total]
  constructor
  · intro found
    cases located : locate (sizes entries) charOffset with
    | none =>
        rw [located] at found
        cases found
    | some place =>
        obtain ⟨number, within⟩ := place
        obtain ⟨size, atSize, inside, back⟩ := (locate_eq_some_iff _ _ _ _).mp located
        rw [located] at found
        cases found
        exact ⟨number, size, rfl, atSize, inside, back⟩
  · rintro ⟨number, size, rfl, atSize, inside, back⟩
    rw [(locate_eq_some_iff _ _ _ _).mpr ⟨size, atSize, inside, back⟩]
    rfl

/-- The position of an offset in the entry with a given number. -/
theorem Holds.placed_at (holds : buffer.Holds entries) (total : (sizes entries).sum < 2 ^ 64)
    {number offset charOffset : Nat} (live : number < buffer.getCount)
    (placed : buffer.fposForEntry (buffer.slotOf number) offset = .ok (some charOffset)) :
    ∃ size, (sizes entries)[number]? = some size ∧ offset < size ∧
      positionOf (sizes entries) number offset = charOffset := by
  obtain ⟨met, size, same, atSize, inside, back⟩ := (holds.fpos_slotOf total).mp placed
  obtain ⟨stored, _size⟩ := List.getElem?_eq_some_iff.mp atSize
  rw [sizes, List.length_map] at stored
  rw [holds.getCount_eq] at live
  have number_eq := ring_index_injective (live.trans_le holds.bounded)
    (stored.trans_le holds.bounded) same
  exact ⟨size, number_eq ▸ atSize, inside, number_eq ▸ back⟩

theorem Holds.fpos_returns (holds : buffer.Holds entries) (slot offset : Nat) :
    ∃ placed, buffer.fposForEntry slot offset = .ok placed := by
  rcases Nat.lt_or_ge slot aesdcharMaxWriteOperationsSupported with inside | outside
  · obtain ⟨number, bound, rfl⟩ := buffer.slotOf_surjective inside
    exact ⟨_, holds.fpos_of_step bound offset⟩
  · exact ⟨_, holds.fpos_outside outside offset⟩

theorem Holds.fpos_none_iff (holds : buffer.Holds entries) (slot offset : Nat) :
    buffer.fposForEntry slot offset = .ok none ↔
      ∀ entry, buffer.entry[slot]? = some entry → entry.size ≤ offset := by
  rcases Nat.lt_or_ge slot aesdcharMaxWriteOperationsSupported with inside | outside
  · obtain ⟨number, bound, rfl⟩ := buffer.slotOf_surjective inside
    have general := holds.fpos_of_step bound offset
    change buffer.fposForEntry (buffer.slotOf number) offset = _ at general
    rw [general, holds.entry_slotOf bound]
    by_cases within : offset < (walked entries number).size
    · rw [if_pos within]
      refine iff_of_false (fun impossible => by cases impossible) ?_
      intro fits
      exact Nat.not_le.mpr within (fits _ rfl)
    · rw [if_neg within]
      refine iff_of_true rfl ?_
      intro entry same
      cases same
      exact Nat.le_of_not_lt within
  · refine iff_of_true (holds.fpos_outside outside offset) ?_
    intro entry present
    rw [Vector.getElem?_eq_none outside] at present
    cases present

theorem Holds.lookupsInverse (holds : buffer.Holds entries)
    (total : (sizes entries).sum < 2 ^ 64) : buffer.LookupsInverse (sizes entries).sum where
  getSize := by rw [holds.getSize_eq, sizeT_of_lt total]
  inverse := by
    intro charOffset slot offset small
    exact (holds.find_slotOf total small).trans (holds.fpos_slotOf total).symm
  finds_live := by
    intro charOffset slot offset small found
    obtain ⟨number, size, rfl, atSize, inside, _back⟩ := (holds.find_slotOf total small).mp found
    rw [sizes, List.getElem?_map, Option.map_eq_some_iff] at atSize
    obtain ⟨entry, atNumber, rfl⟩ := atSize
    obtain ⟨stored, _same⟩ := List.getElem?_eq_some_iff.mp atNumber
    refine ⟨number, entry, holds.getCount_eq ▸ stored, rfl, ?_, inside⟩
    rw [holds.entry_slotOf (Nat.lt_of_lt_of_le stored holds.bounded), walked_of_getElem? atNumber]
  finds := fun charOffset => ⟨_, holds.find_eq charOffset⟩
  finds_nothing := by
    intro charOffset small
    rw [holds.find_eq_locate small total, ← locate_eq_none_iff]
    cases locate (sizes entries) charOffset with
    | none => exact iff_of_true rfl rfl
    | some place =>
        exact iff_of_false (fun impossible => by cases impossible)
          (fun impossible => by cases impossible)
  places := holds.fpos_returns
  places_nothing := holds.fpos_none_iff
  places_within := by
    intro slot offset charOffset placed
    obtain ⟨number, size, _same, atSize, inside, rfl⟩ := (holds.fpos_slotOf total).mp placed
    exact positionOf_lt_sum atSize inside
  increasing := by
    intro left leftOffset leftPos right rightOffset rightPos leftLt rightLt leftPlaced rightPlaced
      ordered
    obtain ⟨size, atSize, inside, rfl⟩ := holds.placed_at total leftLt leftPlaced
    obtain ⟨_size, _atSize, _inside, rfl⟩ := holds.placed_at total rightLt rightPlaced
    exact positionOf_lt atSize inside ordered

end Contents

/-- Any number of entries leaves the ring a queue of the last ten. -/
theorem ring_keeps_recent (added : List AesdBufferEntry) :
    ∃ buffer, init.addEntries added = .ok buffer ∧ buffer.KeepsRecent added := by
  obtain ⟨buffer, ran, holds⟩ := init_holds.addEntries_recent added
  exact ⟨buffer, ran, holds.keepsRecent⟩

/-- On every ring that can be built, the lookups are inverse to each other. -/
theorem ring_lookups_inverse (added : List AesdBufferEntry)
    (total : (sizes (recent aesdcharMaxWriteOperationsSupported added)).sum < 2 ^ 64) :
    ∃ buffer, init.addEntries added = .ok buffer ∧
      buffer.LookupsInverse (sizes (recent aesdcharMaxWriteOperationsSupported added)).sum := by
  obtain ⟨buffer, ran, holds⟩ := init_holds.addEntries_recent added
  exact ⟨buffer, ran, holds.lookupsInverse total⟩

theorem ring_lookups_inverse_empty_entry : ∃ buffer,
    init.addEntries [⟨some 0, 2⟩, ⟨none, 0⟩, ⟨some 1, 3⟩] = .ok buffer ∧
      buffer.LookupsInverse 5 :=
  ring_lookups_inverse [⟨some 0, 2⟩, ⟨none, 0⟩, ⟨some 1, 3⟩] (by decide)

end Aesd.Driver.AesdCircularBuffer
