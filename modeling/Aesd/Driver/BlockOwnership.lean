/-
Who owns the kernel's blocks.

The device's pointers are those of all ten slots and of current_entry.  On a
settled ledger they name distinct allocated blocks of the recorded sizes, and
the module's exit frees each of them.  A block is lost exactly when a krealloc
is refused: its only pointer has been overwritten by then.
-/

import Aesd.Driver.DeviceCalls

set_option autoImplicit false

namespace Aesd.Driver

open BlockHeap BoundedLoop CallRun KernelMemory SegmentedBytes AesdCircularBuffer

namespace Machine

def pointers (machine : Machine) : List Nat :=
  (machine.dev.buffer.entry.toList ++ [machine.dev.currentEntry]).filterMap
    AesdBufferEntry.buffptr

structure Owned (machine : Machine) : Prop where
  distinct : machine.pointers.Nodup
  allocated : ∀ entry, entry ∈ machine.dev.buffer.entry.toList ++ [machine.dev.currentEntry] →
    ∀ block, entry.buffptr = some block →
      ∃ bytes, machine.heap.block block = some bytes ∧ bytes.length = entry.size
  spare : ∀ step, machine.dev.buffer.getCount ≤ step → step < aesdcharMaxWriteOperationsSupported →
    machine.dev.buffer.entry[
      (machine.dev.buffer.outOffs + step) % aesdcharMaxWriteOperationsSupported]? = some .zero
  /-- `entry->size - offset` does not underflow in a read. -/
  found : ∀ charOffset index offset, charOffset < 2 ^ 64 →
    machine.dev.buffer.findEntryOffsetForFpos charOffset = .ok (some (index, offset)) →
      ∃ entry, machine.dev.buffer.entry[index]? = some entry ∧ offset < entry.size
  /-- `insert_pos + count` does not wrap in a write. -/
  room : machine.dev.currentEntry.buffptr ≠ none → machine.dev.currentEntry.size < 2 ^ 62

/-- Every allocated block is one the device points to. -/
def NothingLost (machine : Machine) : Prop :=
  ∀ block, machine.heap.block block ≠ none → block ∈ machine.pointers

end Machine

/-! ### The slots of the array -/

/-- The array holds the entries and empty slots, rotated. -/
theorem AesdCircularBuffer.Holds.toList_perm {buffer : AesdCircularBuffer}
    {entries : List AesdBufferEntry} (holds : buffer.Holds entries) :
    buffer.entry.toList.Perm (entries ++
      List.replicate (aesdcharMaxWriteOperationsSupported - entries.length) .zero) := by
  have rotated : (ringOrder aesdcharMaxWriteOperationsSupported buffer.outOffs).map
      (fun index => buffer.entry.toList.getD index .zero) = entries ++
        List.replicate (aesdcharMaxWriteOperationsSupported - entries.length) .zero := by
    have bounded := holds.bounded
    apply List.ext_getElem
    · rw [List.length_map, ringOrder_length, List.length_append, List.length_replicate]
      omega
    · intro step leftBound rightBound
      rw [List.length_map, ringOrder_length] at leftBound
      have slot := holds.slots step leftBound
      rw [List.getElem_map, List.getD_eq_getElem?_getD, Vector.getElem?_toList]
      simp only [ringOrder, List.getElem_map, List.getElem_range]
      rw [slot, Option.getD_some]
      by_cases stored : step < entries.length
      · rw [List.getElem_append_left stored,
          walked_of_getElem? (List.getElem?_eq_getElem stored)]
      · rw [List.getElem_append_right (Nat.le_of_not_lt stored), List.getElem_replicate,
          walked_beyond (Nat.le_of_not_lt stored)]
  have straight : (List.range aesdcharMaxWriteOperationsSupported).map
      (fun index => buffer.entry.toList.getD index .zero) = buffer.entry.toList := by
    apply List.ext_getElem
    · rw [List.length_map, List.length_range, Vector.length_toList]
    · intro index leftBound rightBound
      rw [List.getElem_map, List.getElem_range, List.getD_eq_getElem _ _ rightBound]
  have permuted := (ringOrder_perm aesdcharMaxWriteOperationsSupported buffer.outOffs).map
    (fun index => buffer.entry.toList.getD index .zero)
  rw [rotated, straight] at permuted
  exact permuted.symm

section Ownership

variable {machine : Machine} {entries : List AesdBufferEntry} {commands : List (List Byte)}
  {pending : List Byte} {lost : List Nat}

theorem Ledger.pointers_perm (ledger : Ledger machine entries commands pending lost) :
    machine.pointers.Perm (references entries machine.dev.currentEntry) := by
  have spare : (List.replicate (aesdcharMaxWriteOperationsSupported - entries.length)
      AesdBufferEntry.zero).filterMap AesdBufferEntry.buffptr = [] := by
    rw [List.filterMap_replicate_of_none rfl]
  have current : [machine.dev.currentEntry].filterMap AesdBufferEntry.buffptr =
      machine.dev.currentEntry.buffptr.toList := by
    cases pointer : machine.dev.currentEntry.buffptr with
    | none => rw [List.filterMap_cons_none pointer]; rfl
    | some block => rw [List.filterMap_cons_some pointer]; rfl
  unfold Machine.pointers references
  rw [List.filterMap_append, current]
  apply List.Perm.append_right
  have slots := ledger.ring.toList_perm.filterMap AesdBufferEntry.buffptr
  rw [List.filterMap_append, spare, List.append_nil] at slots
  exact slots

theorem stored_backed {heap : Heap Byte} {entries : List AesdBufferEntry}
    {commands : List (List Byte)} (stored : List.Forall₂ (Backed heap) entries commands)
    {entry : AesdBufferEntry} (member : entry ∈ entries) :
    ∃ command, Backed heap entry command := by
  induction stored with
  | nil => cases member
  | cons backed _rest ih =>
      rcases List.mem_cons.mp member with same | later
      · exact ⟨_, same ▸ backed⟩
      · exact ih later

theorem Ledger.owned (ledger : Ledger machine entries commands pending lost) :
    machine.Owned := by
  have sound : ∀ entry command, Backed machine.heap entry command →
      ∀ block, entry.buffptr = some block →
        ∃ bytes, machine.heap.block block = some bytes ∧ bytes.length = entry.size := by
    rintro entry command ⟨owned, pointer, contents, size⟩ block same
    rw [pointer] at same
    cases same
    exact ⟨command, contents, size.symm⟩
  constructor
  · exact ledger.pointers_perm.nodup_iff.mpr (List.Nodup.of_append_left ledger.accounts.distinct)
  · intro entry member block pointer
    rcases List.mem_append.mp member with inRing | isCurrent
    · rcases List.mem_append.mp (ledger.ring.toList_perm.mem_iff.mp inRing) with stored | spare
      · obtain ⟨command, backed⟩ := stored_backed ledger.stored stored
        exact sound entry command backed block pointer
      · rw [(List.mem_replicate.mp spare).2] at pointer
        cases pointer
    · rw [List.mem_singleton.mp isCurrent] at pointer ⊢
      rcases ledger.gathered with ⟨null, _empty⟩ | ⟨backed, _nonempty⟩
      · rw [null] at pointer
        cases pointer
      · exact sound _ pending backed block pointer
  · intro step unused inside
    rw [ledger.ring.getCount_eq] at unused
    rw [ledger.ring.slots step inside, walked_beyond unused]
  · intro charOffset index offset small found
    rw [ledger.ring.find_eq_locate small ledger.sizes_total_lt] at found
    obtain ⟨⟨step, within⟩, located, same⟩ := Option.map_eq_some_iff.mp (Except.ok.inj found)
    cases same
    obtain ⟨size, atStep, bound, _back⟩ := (locate_eq_some_iff _ _ _ _).mp located
    rw [sizes, List.getElem?_map, Option.map_eq_some_iff] at atStep
    obtain ⟨entry, stored, rfl⟩ := atStep
    obtain ⟨inEntries, _same⟩ := List.getElem?_eq_some_iff.mp stored
    refine ⟨entry, ?_, bound⟩
    rw [ledger.ring.slots step (Nat.lt_of_lt_of_le inEntries ledger.ring.bounded),
      walked_of_getElem? stored]
  · intro pointed
    rcases ledger.gathered with ⟨null, _empty⟩ | ⟨⟨_block, _pointer, _contents, size⟩, _nonempty⟩
    · exact absurd null pointed
    · rw [size]
      exact ledger.pendingSmall

theorem Ledger.nothingLost_iff (ledger : Ledger machine entries commands pending lost) :
    machine.NothingLost ↔ lost = [] := by
  have distinct := ledger.accounts.distinct
  constructor
  · intro nothing
    apply List.eq_nil_iff_forall_not_mem.mpr
    intro block member
    have allocated := (ledger.accounts.complete block).mpr (List.mem_append_right _ member)
    have pointed := ledger.pointers_perm.mem_iff.mp (nothing block allocated)
    exact (List.disjoint_of_nodup_append distinct) pointed member
  · intro nothing block allocated
    have listed := (ledger.accounts.complete block).mp allocated
    rw [nothing, List.append_nil] at listed
    exact ledger.pointers_perm.mem_iff.mpr listed

/-! ### aesd_cleanup_module -/

/-- `% ring_count` is right because a ring that is not full is not rotated. -/
theorem cleanup_index {count out i : Nat} (bounded : count ≤ aesdcharMaxWriteOperationsSupported)
    (unrotated : count < aesdcharMaxWriteOperationsSupported → out = 0) (inside : i < count) :
    (out + i) % count = (out + i) % aesdcharMaxWriteOperationsSupported := by
  rcases Nat.lt_or_ge count aesdcharMaxWriteOperationsSupported with small | large
  · rw [unrotated small, Nat.zero_add, Nat.mod_eq_of_lt inside, Nat.mod_eq_of_lt (by omega)]
  · rw [Nat.le_antisymm bounded large]

theorem kfree_listed {heap : Heap Byte} {entry : AesdBufferEntry} {names : List Nat}
    (accounts : heap.Accounts (entry.buffptr.toList ++ names)) :
    ∃ after, kfree heap entry.buffptr = .ok after ∧ after.Accounts names := by
  cases pointer : entry.buffptr with
  | none =>
      rw [pointer] at accounts
      exact ⟨heap, rfl, accounts⟩
  | some block =>
      rw [pointer] at accounts
      obtain ⟨bytes, allocated⟩ := accounts.allocated List.mem_cons_self
      exact ⟨heap.release block, kfree_allocated allocated, Heap.Accounts.release accounts⟩

theorem entryBlocks_cons (entry : AesdBufferEntry) (entries : List AesdBufferEntry) :
    entryBlocks (entry :: entries) = entry.buffptr.toList ++ entryBlocks entries := by
  cases pointer : entry.buffptr with
  | none => simp only [entryBlocks, List.filterMap_cons, pointer, Option.toList_none,
      List.nil_append]
  | some block => simp only [entryBlocks, List.filterMap_cons, pointer, Option.toList_some,
      List.singleton_append]

/-- From any round on, the loop frees the entries that are left.  A round clears
only its own slot, so the slots ahead still hold their entries. -/
private theorem cleanup_rounds (bounded : entries.length ≤ aesdcharMaxWriteOperationsSupported)
    (machine : Machine) (unrotated : entries.length < aesdcharMaxWriteOperationsSupported →
      machine.dev.buffer.outOffs = 0)
    (left round : Nat) (accounting : round + left = entries.length)
    (ahead : ∀ step, round ≤ step → step < entries.length →
      machine.dev.buffer.entry[
        (machine.dev.buffer.outOffs + step) % aesdcharMaxWriteOperationsSupported]? =
          entries[step]?)
    (accounts : machine.heap.Accounts (entryBlocks (entries.drop round) ++ lost)) :
    ∃ cleaned, (List.range' round left).foldlM (Machine.cleanupSlot entries.length) machine =
      .ok cleaned ∧ cleaned.heap.Accounts lost := by
  induction left generalizing machine round with
  | zero =>
      rw [List.drop_of_length_le (by omega)] at accounts
      exact ⟨machine, rfl, accounts⟩
  | succ left ih =>
      have inside : round < entries.length := by omega
      let slot := (machine.dev.buffer.outOffs + round) % aesdcharMaxWriteOperationsSupported
      have slotLt : slot < aesdcharMaxWriteOperationsSupported := Nat.mod_lt _ (by decide)
      have index := cleanup_index bounded unrotated inside
      have entryAt : machine.dev.buffer.entryAt slot = .ok entries[round] := by
        unfold AesdCircularBuffer.entryAt
        rw [ahead round (Nat.le_refl _) inside, List.getElem?_eq_getElem inside]
      rw [List.drop_eq_getElem_cons inside, entryBlocks_cons, List.append_assoc] at accounts
      obtain ⟨heap, freed, kept⟩ := kfree_listed accounts
      let cleared : AesdCircularBuffer :=
        { machine.dev.buffer with entry := machine.dev.buffer.entry.setIfInBounds slot .zero }
      have set : machine.dev.buffer.setEntry slot .zero = .ok cleared := if_pos slotLt
      let after : Machine := { machine with heap, dev := { machine.dev with buffer := cleared } }
      have one : Machine.cleanupSlot entries.length machine round = .ok after := by
        unfold Machine.cleanupSlot
        rw [if_neg (by omega)]
        dsimp only
        rw [index]
        change (do
          let entry ← machine.dev.buffer.entryAt slot
          let heap ← kfree machine.heap entry.buffptr
          let buffer ← machine.dev.buffer.setEntry slot .zero
          return { machine with heap, dev := { machine.dev with buffer } }) = .ok after
        rw [entryAt, ok_bind, freed, ok_bind, set, ok_bind]
        rfl
      have stillAhead : ∀ step, round + 1 ≤ step → step < entries.length →
          cleared.entry[(cleared.outOffs + step) % aesdcharMaxWriteOperationsSupported]? =
            entries[step]? := by
        intro step later within
        rw [← ahead step (by omega) within]
        apply Vector.getElem?_setIfInBounds_ne
        intro same
        have equal := ring_index_injective (by omega) (by omega) same
        omega
      obtain ⟨cleaned, ran, final⟩ :=
        ih after unrotated (round + 1) (by omega) stillAhead kept
      refine ⟨cleaned, ?_, final⟩
      rw [List.range'_succ, List.foldlM_cons, one, ok_bind]
      exact ran

/-- The exit frees every block the device points to; only lost blocks remain. -/
theorem Ledger.cleanup_spec (ledger : Ledger machine entries commands pending lost) :
    ∃ cleaned, machine.aesdCleanupModule = .ok cleaned ∧ cleaned.heap.Accounts lost := by
  have front : (references entries machine.dev.currentEntry ++ lost).Perm
      (machine.dev.currentEntry.buffptr.toList ++ (entryBlocks entries ++ lost)) := by
    unfold references
    rw [List.append_assoc]
    exact List.perm_append_comm_assoc _ _ _
  obtain ⟨heap, freed, kept⟩ := kfree_listed (ledger.accounts.perm front)
  have ahead : ∀ step, 0 ≤ step → step < entries.length →
      machine.dev.buffer.entry[
        (machine.dev.buffer.outOffs + step) % aesdcharMaxWriteOperationsSupported]? =
          entries[step]? := by
    intro step _above within
    have stored := List.getElem?_eq_getElem within
    rw [ledger.ring.slots step (Nat.lt_of_lt_of_le within ledger.ring.bounded), stored,
      walked_of_getElem? stored]
  obtain ⟨cleaned, ran, final⟩ :=
    cleanup_rounds ledger.ring.bounded { machine with heap } ledger.ring.unrotated
      entries.length 0 (Nat.zero_add _) ahead kept
  refine ⟨cleaned, ?_, final⟩
  unfold Machine.aesdCleanupModule
  rw [freed, ok_bind, ledger.ring.getCount_eq]
  dsimp only
  rw [List.range_eq_range']
  exact ran

theorem Ledger.cleanup_frees (ledger : Ledger machine entries commands pending lost) :
    ∃ cleaned, machine.aesdCleanupModule = .ok cleaned ∧
      (∀ block, block ∈ machine.pointers → cleaned.heap.block block = none) ∧
      ((∀ block, cleaned.heap.block block = none) ↔ lost = []) := by
  obtain ⟨cleaned, ran, final⟩ := ledger.cleanup_spec
  refine ⟨cleaned, ran, ?_, ?_⟩
  · intro block pointed
    by_contra allocated
    have listed := ledger.pointers_perm.mem_iff.mp pointed
    exact (List.disjoint_of_nodup_append ledger.accounts.distinct) listed
      ((final.complete block).mp allocated)
  · constructor
    · intro nothing
      apply List.eq_nil_iff_forall_not_mem.mpr
      intro block member
      exact (final.complete block).mpr member (nothing block)
    · intro nothing block
      by_contra allocated
      have listed := (final.complete block).mp allocated
      rw [nothing] at listed
      cases listed

end Ownership

namespace Machine

/-- In every run of writes, reads and seeks each pointer of the device owns its
block, no access faults, and the exit frees every block still pointed to.  Blocks
are never named twice, so a second free or a use after a free would be a fault. -/
theorem kernel_buffers_owned (fPos : Nat → Int) (calls : List Call)
    (access : ∀ call, call ∈ calls → call.Access) :
    ∃ replies machine cleaned, (initialized fPos).run calls = .ok (replies, machine) ∧
      machine.Owned ∧ machine.aesdCleanupModule = .ok cleaned ∧
      ∀ block, block ∈ machine.pointers → cleaned.heap.block block = none := by
  obtain ⟨replies, machine, ran, entries, commands, pending, lost, settled⟩ :=
    runCalls_invariant (fun _machine _call accounted access => accounted.access access)
      (initialized_accounted fPos) (runMeets_of_forall (fun _machine => access) _)
  obtain ⟨cleaned, freed, nothingLeft, _all⟩ := settled.toLedger.cleanup_frees
  exact ⟨replies, machine, cleaned, ran, settled.toLedger.owned, freed, nothingLeft⟩

/-- A failed copy, then a command, then a read of it. -/
theorem kernel_buffers_owned_three_calls : ∃ replies machine cleaned,
    (initialized fun _ => 0).run
        [.write ⟨0, ⟨[97, 98], by decide⟩, ⟨⟨true, fun _ => 0⟩, 1⟩⟩,
          .write ⟨0, ⟨[newline], by decide⟩, ⟨⟨true, fun _ => 0⟩, 0⟩⟩,
          .read ⟨0, 10, 0⟩] = .ok (replies, machine) ∧
      machine.Owned ∧ machine.aesdCleanupModule = .ok cleaned ∧
      ∀ block, block ∈ machine.pointers → cleaned.heap.block block = none :=
  kernel_buffers_owned (fun _ => 0)
    [.write ⟨0, ⟨[97, 98], by decide⟩, ⟨⟨true, fun _ => 0⟩, 1⟩⟩,
      .write ⟨0, ⟨[newline], by decide⟩, ⟨⟨true, fun _ => 0⟩, 0⟩⟩,
      .read ⟨0, 10, 0⟩]
    (by simp only [List.forall_mem_cons, Call.Access, List.not_mem_nil, false_imp_iff,
      implies_true, and_self])

/-! ### Lost blocks -/

/-- The writes of a run lose a block exactly when one of them is refused a krealloc. -/
theorem writes_lost {machine : Machine} {entries : List AesdBufferEntry}
    {commands : List (List Byte)} {pending : List Byte} {lost : List Nat}
    (settled : Settled machine entries commands pending lost) (writes : List WriteCall) :
    ∃ replies after added finished begun leftover,
      runCalls Machine.write machine writes = .ok (replies, after) ∧
      Settled after added finished begun leftover ∧ lost.length ≤ leftover.length ∧
      (leftover.length = lost.length ↔
        RunMeets Machine.write
          (fun machine call => ¬machine.reallocFails call.buf.bytes call.outcome)
          machine writes) := by
  induction writes generalizing machine entries commands pending lost with
  | nil =>
      exact ⟨[], machine, entries, commands, pending, lost, rfl, settled, Nat.le_refl _,
        iff_of_true rfl True.intro⟩
  | cons call writes ih =>
      obtain ⟨middle, added, kept, made, one, effect⟩ := settled.write_spec call
      obtain ⟨replies, after, entries, commands, pending, leftover, ran, reached, grown, decided⟩ :=
        ih one
      refine ⟨_, after, entries, commands, pending, leftover, runCalls_cons made ran, reached, ?_, ?_⟩
      · rcases effect.blocks with ⟨_granted, same⟩ | ⟨_refused, block, _pointer, more⟩
        · rwa [same] at grown
        · rw [more, List.length_cons] at grown
          omega
      · have later : RunMeets Machine.write
            (fun machine call => ¬machine.reallocFails call.buf.bytes call.outcome)
            machine (call :: writes) ↔
              ¬machine.reallocFails call.buf.bytes call.outcome ∧
                leftover.length = kept.length := by
          rw [decided]
          constructor
          · rintro ⟨here, rest⟩
            exact ⟨here, rest _ middle made⟩
          · rintro ⟨here, rest⟩
            refine ⟨here, ?_⟩
            intro reply other same
            rw [made] at same
            cases same
            exact rest
        rw [later]
        rcases effect.blocks with ⟨granted, same⟩ | ⟨refused, block, _pointer, more⟩
        · rw [same, and_iff_right granted]
        · rw [more, List.length_cons] at grown
          exact iff_of_false (by omega) (fun both => both.1 refused)

/-- Between any two writes every allocated block is pointed to, and the exit
leaves none, exactly when no krealloc of the run is refused. -/
theorem nothing_leaks_iff (fPos : Nat → Int) (writes : List WriteCall) :
    (∀ earlier, earlier <+: writes → ∃ replies machine cleaned,
      runCalls Machine.write (initialized fPos) earlier = .ok (replies, machine) ∧
      machine.NothingLost ∧ machine.aesdCleanupModule = .ok cleaned ∧
      ∀ block, cleaned.heap.block block = none) ↔
    RunMeets Machine.write
      (fun machine call => ¬machine.reallocFails call.buf.bytes call.outcome)
      (initialized fPos) writes := by
  constructor
  · intro always
    obtain ⟨replies, machine, _cleaned, ran, nothing, _exit⟩ := always writes (List.prefix_refl _)
    obtain ⟨_replies, after, _added, _finished, _begun, leftover, sameRun, settled, _grown,
      decided⟩ := writes_lost (initialized_settled fPos) writes
    rw [ran] at sameRun
    cases sameRun
    apply decided.mp
    rw [settled.toLedger.nothingLost_iff.mp nothing]
  · intro granted earlier before
    obtain ⟨replies, after, _added, _finished, _begun, leftover, ran, settled, _grown, decided⟩ :=
      writes_lost (initialized_settled fPos) earlier
    have nothing : leftover = [] :=
      List.eq_nil_of_length_eq_zero (decided.mpr (runMeets_earlier before granted))
    obtain ⟨cleaned, freed, _pointed, all⟩ := settled.toLedger.cleanup_frees
    exact ⟨replies, after, cleaned, ran, settled.toLedger.nothingLost_iff.mpr nothing, freed,
      all.mpr nothing⟩

/-- A byte, then a refused krealloc: block 0 stays allocated for good. -/
theorem refused_krealloc_leaks : ∃ machine cleaned,
    runCalls Machine.write (initialized fun _ => 0)
        [⟨0, ⟨[97], by decide⟩, ⟨⟨true, fun _ => 0⟩, 0⟩⟩,
          ⟨0, ⟨[98], by decide⟩, ⟨⟨false, fun _ => 0⟩, 0⟩⟩] =
      .ok ([⟨1, []⟩, ⟨-enomem, []⟩], machine) ∧
    machine.heap.block 0 = some [97] ∧ machine.pointers = [] ∧
    machine.aesdCleanupModule = .ok cleaned ∧ cleaned.heap.block 0 = some [97] :=
  ⟨_, _, rfl, rfl, rfl, rfl, rfl⟩

end Machine

end Aesd.Driver
