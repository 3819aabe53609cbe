/-
The ledger of the driver's memory.

`Ledger machine entries commands pending lost` ties four things together: the
ring and its entries, the bytes their blocks hold, the command being gathered,
and the list of allocated blocks.  `lost` are the blocks nothing points to any
more.  It holds after aesd_init_module and every aesd_write keeps it, whatever
the kernel answers; `WriteEffect` says once what such a call can do.
-/

import Aesd.Driver.CharDevice
import Aesd.Driver.CircularBufferContents

set_option autoImplicit false

namespace Aesd.Driver

open BlockHeap BoundedLoop KernelMemory RecentWindow AesdCircularBuffer

/-- The entry points to a block that holds exactly `bytes`. -/
def Backed (heap : Heap Byte) (entry : AesdBufferEntry) (bytes : List Byte) : Prop :=
  ∃ block, entry.buffptr = some block ∧ heap.block block = some bytes ∧
    entry.size = bytes.length

/-- The blocks the stored entries point to, oldest first. -/
def entryBlocks (entries : List AesdBufferEntry) : List Nat :=
  entries.filterMap AesdBufferEntry.buffptr

/-- All blocks the device points to. -/
def references (entries : List AesdBufferEntry) (currentEntry : AesdBufferEntry) : List Nat :=
  entryBlocks entries ++ currentEntry.buffptr.toList

structure Ledger (machine : Machine) (entries : List AesdBufferEntry)
    (commands : List (List Byte)) (pending : List Byte) (lost : List Nat) : Prop where
  ring : machine.dev.buffer.Holds entries
  stored : List.Forall₂ (Backed machine.heap) entries commands
  gathered : (machine.dev.currentEntry.buffptr = none ∧ pending = []) ∨
    (Backed machine.heap machine.dev.currentEntry pending ∧ pending ≠ [])
  accounts : machine.heap.Accounts (references entries machine.dev.currentEntry ++ lost)
  terminated : ∀ command, command ∈ commands → command.getLast? = some newline
  pendingSmall : pending.length < 2 ^ 62
  room : machine.heap.used < 2 ^ 63

/-- The ledger between two calls, when nobody holds the lock. -/
structure Settled (machine : Machine) (entries : List AesdBufferEntry)
    (commands : List (List Byte)) (pending : List Byte) (lost : List Nat) : Prop
    extends Ledger machine entries commands pending lost where
  unlocked : machine.dev.lock = false

theorem initialized_settled (fPos : Nat → Int) : Settled (.initialized fPos) [] [] [] [] where
  ring := init_holds
  stored := .nil
  gathered := Or.inl ⟨rfl, rfl⟩
  accounts := Heap.accounts_empty
  terminated := by intro command impossible; cases impossible
  pendingSmall := by norm_num
  room := by change 0 < 2 ^ 63; norm_num
  unlocked := rfl

/-! ### Frames -/

theorem Backed.frame {heap after : Heap Byte} {entry : AesdBufferEntry} {bytes : List Byte}
    (backed : Backed heap entry bytes)
    (same : ∀ block, entry.buffptr = some block → after.block block = heap.block block) :
    Backed after entry bytes := by
  obtain ⟨block, pointer, contents, size⟩ := backed
  exact ⟨block, pointer, (same block pointer).trans contents, size⟩

/-- Stored commands survive whatever happens to other blocks. -/
theorem stored_frame {heap after : Heap Byte} {entries : List AesdBufferEntry}
    {commands : List (List Byte)} (stored : List.Forall₂ (Backed heap) entries commands)
    (same : ∀ block, block ∈ entryBlocks entries → after.block block = heap.block block) :
    List.Forall₂ (Backed after) entries commands := by
  induction stored with
  | nil => exact .nil
  | @cons entry command entries commands backed rest ih =>
      have pointed : ∀ block, entry.buffptr = some block →
          block ∈ entryBlocks (entry :: entries) := by
        intro block pointer
        exact List.mem_filterMap.mpr ⟨entry, List.mem_cons_self, pointer⟩
      refine .cons (backed.frame (fun block pointer => same block (pointed block pointer))) (ih ?_)
      intro block member
      obtain ⟨other, present, pointer⟩ := List.mem_filterMap.mp member
      exact same block (List.mem_filterMap.mpr ⟨other, List.mem_cons_of_mem entry present, pointer⟩)

theorem stored_length {heap : Heap Byte} {entries : List AesdBufferEntry}
    {commands : List (List Byte)} (stored : List.Forall₂ (Backed heap) entries commands) :
    entries.length = commands.length := List.Forall₂.length_eq stored

theorem stored_sizes {heap : Heap Byte} {entries : List AesdBufferEntry}
    {commands : List (List Byte)} (stored : List.Forall₂ (Backed heap) entries commands) :
    sizes entries = commands.map List.length := by
  induction stored with
  | nil => rfl
  | cons backed rest ih =>
      obtain ⟨block, _pointer, _contents, size⟩ := backed
      simp only [sizes, List.map_cons, size] at ih ⊢
      rw [ih]

/-- The stored sizes are the sizes of the blocks the entries point to. -/
theorem stored_block_sizes {heap : Heap Byte} {entries : List AesdBufferEntry}
    {commands : List (List Byte)} (stored : List.Forall₂ (Backed heap) entries commands) :
    (entryBlocks entries).map heap.size = commands.map List.length := by
  induction stored with
  | nil => rfl
  | cons backed rest ih =>
      obtain ⟨block, pointer, contents, _size⟩ := backed
      simp only [entryBlocks, List.filterMap_cons, pointer, List.map_cons] at ih ⊢
      rw [ih, Heap.size_of_allocated contents]

theorem stored_getElem? {heap : Heap Byte} {entries : List AesdBufferEntry}
    {commands : List (List Byte)} (stored : List.Forall₂ (Backed heap) entries commands)
    {index : Nat} {command : List Byte} (atIndex : commands[index]? = some command) :
    ∃ entry, entries[index]? = some entry ∧ Backed heap entry command := by
  induction stored generalizing index with
  | nil => cases atIndex
  | @cons entry first entries commands backed rest ih =>
      cases index with
      | zero =>
          cases atIndex
          exact ⟨entry, rfl, backed⟩
      | succ index => exact ih atIndex

section Facts

variable {machine : Machine} {entries : List AesdBufferEntry} {commands : List (List Byte)}
  {pending : List Byte} {lost : List Nat}

theorem Ledger.count_eq (ledger : Ledger machine entries commands pending lost) :
    machine.dev.buffer.getCount = commands.length :=
  ledger.ring.getCount_eq.trans (stored_length ledger.stored)

theorem Ledger.commands_bounded (ledger : Ledger machine entries commands pending lost) :
    commands.length ≤ aesdcharMaxWriteOperationsSupported :=
  stored_length ledger.stored ▸ ledger.ring.bounded

/-- All stored bytes together are fewer than 2^63. -/
theorem Ledger.total_lt (ledger : Ledger machine entries commands pending lost) :
    commands.flatten.length < 2 ^ 63 := by
  have distinct := ledger.accounts.distinct
  unfold references at distinct
  rw [List.append_assoc] at distinct
  have within := ledger.accounts.sum_le_used (List.Nodup.of_append_left distinct) (by
    intro name member
    unfold references
    rw [List.append_assoc]
    exact List.mem_append_left _ member)
  rw [stored_block_sizes ledger.stored, ← List.length_flatten] at within
  exact Nat.lt_of_le_of_lt within ledger.room

theorem Ledger.sizes_total_lt (ledger : Ledger machine entries commands pending lost) :
    (sizes entries).sum < 2 ^ 64 := by
  have total := ledger.total_lt
  rw [List.length_flatten, ← stored_sizes ledger.stored] at total
  omega

theorem Ledger.buffptr_none_iff (ledger : Ledger machine entries commands pending lost) :
    machine.dev.currentEntry.buffptr = none ↔ pending = [] := by
  rcases ledger.gathered with ⟨null, empty⟩ | ⟨⟨block, pointer, _contents, _size⟩, nonempty⟩
  · exact iff_of_true null empty
  · refine iff_of_false ?_ nonempty
    rw [pointer]
    exact Option.some_ne_none block

theorem Ledger.relock (ledger : Ledger machine entries commands pending lost) (lock : Bool) :
    Ledger { machine with dev := { machine.dev with lock } } entries commands pending lost :=
  ⟨ledger.ring, ledger.stored, ledger.gathered, ledger.accounts, ledger.terminated,
    ledger.pendingSmall, ledger.room⟩

theorem Ledger.setFPos (ledger : Ledger machine entries commands pending lost) (file : Nat)
    (fPos : Int) : Ledger (machine.setFPos file fPos) entries commands pending lost :=
  ⟨ledger.ring, ledger.stored, ledger.gathered, ledger.accounts, ledger.terminated,
    ledger.pendingSmall, ledger.room⟩

theorem Settled.setFPos (settled : Settled machine entries commands pending lost) (file : Nat)
    (fPos : Int) : Settled (machine.setFPos file fPos) entries commands pending lost :=
  ⟨settled.toLedger.setFPos file fPos, settled.unlocked⟩

/-! ### Reserving room for a chunk -/

/-- The block of the command being gathered is none of the stored ones. -/
theorem Ledger.current_not_stored (ledger : Ledger machine entries commands pending lost)
    {block : Nat} (pointer : machine.dev.currentEntry.buffptr = some block) :
    block ∉ entryBlocks entries := by
  have distinct := ledger.accounts.distinct
  unfold references at distinct
  rw [pointer, Option.toList_some, List.append_assoc] at distinct
  intro member
  exact (List.disjoint_of_nodup_append distinct) member
    (List.mem_append_left _ (List.mem_singleton.mpr rfl))

theorem Ledger.stored_allocated (ledger : Ledger machine entries commands pending lost)
    {block : Nat} (member : block ∈ entryBlocks entries) :
    ∃ bytes, machine.heap.block block = some bytes := by
  apply ledger.accounts.allocated
  unfold references
  exact List.mem_append_left _ (List.mem_append_left _ member)

/-- A granted kmalloc starts a command with a block of its own. -/
private theorem Ledger.reserve_first (ledger : Ledger machine entries commands pending lost)
    (null : machine.dev.currentEntry.buffptr = none) {bytes : List Byte} (nonempty : bytes ≠ [])
    (small : bytes.length < 2 ^ 62) (room : machine.heap.used + bytes.length < 2 ^ 63) :
    Ledger ({ machine with heap := machine.heap.allocate bytes }.setCurrentEntry
      { buffptr := some machine.heap.next, size := bytes.length }) entries commands bytes lost := by
  have unchanged : ∀ block, block ∈ entryBlocks entries →
      (machine.heap.allocate bytes).block block = machine.heap.block block := by
    intro block member
    obtain ⟨old, allocated⟩ := ledger.stored_allocated member
    exact machine.heap.allocate_block_of_ne bytes (Heap.ne_next_of_allocated allocated)
  have before := ledger.accounts
  unfold references at before
  rw [null, Option.toList_none, List.append_nil] at before
  constructor
  · exact ledger.ring
  · exact stored_frame ledger.stored unchanged
  · exact Or.inr ⟨⟨machine.heap.next, rfl, machine.heap.allocate_block_self bytes, rfl⟩, nonempty⟩
  · apply (before.allocate bytes).perm
    change (machine.heap.next :: (entryBlocks entries ++ lost)).Perm
      ((entryBlocks entries ++ [machine.heap.next]) ++ lost)
    rw [List.append_assoc]
    exact List.perm_middle.symm
  · exact ledger.terminated
  · exact small
  · change (machine.heap.allocate bytes).used < 2 ^ 63
    rw [Heap.used_allocate]
    exact room

/-- A granted krealloc moves the command to a longer block. -/
private theorem Ledger.reserve_later (ledger : Ledger machine entries commands pending lost)
    {block : Nat} (pointer : machine.dev.currentEntry.buffptr = some block) {tail : List Byte}
    (nonempty : pending ++ tail ≠ []) (small : (pending ++ tail).length < 2 ^ 62)
    (room : (machine.heap.release block).used + (pending ++ tail).length < 2 ^ 63) :
    Ledger ({ machine with heap :=
        (machine.heap.release block).allocate (pending ++ tail) }.setCurrentEntry
      { buffptr := some machine.heap.next, size := (pending ++ tail).length })
      entries commands (pending ++ tail) lost := by
  have unchanged : ∀ other, other ∈ entryBlocks entries →
      ((machine.heap.release block).allocate (pending ++ tail)).block other =
        machine.heap.block other := by
    intro other member
    obtain ⟨old, allocated⟩ := ledger.stored_allocated member
    have different : other ≠ block := fun same =>
      ledger.current_not_stored pointer (same ▸ member)
    have released := machine.heap.release_block_of_ne different
    have old_ne : other ≠ machine.heap.next := Heap.ne_next_of_allocated allocated
    rw [Heap.allocate_block_of_ne (machine.heap.release block) _ old_ne, released]
  have before := ledger.accounts
  unfold references at before
  rw [pointer, Option.toList_some] at before
  have front : ((entryBlocks entries ++ [block]) ++ lost).Perm
      (block :: (entryBlocks entries ++ lost)) := by
    rw [List.append_assoc]
    exact List.perm_middle
  constructor
  · exact ledger.ring
  · exact stored_frame ledger.stored unchanged
  · exact Or.inr ⟨⟨machine.heap.next, rfl,
      (machine.heap.release block).allocate_block_self (pending ++ tail), rfl⟩, nonempty⟩
  · apply ((before.perm front).release.allocate (pending ++ tail)).perm
    change (machine.heap.next :: (entryBlocks entries ++ lost)).Perm
      ((entryBlocks entries ++ [machine.heap.next]) ++ lost)
    rw [List.append_assoc]
    exact List.perm_middle.symm
  · exact ledger.terminated
  · exact small
  · change ((machine.heap.release block).allocate (pending ++ tail)).used < 2 ^ 63
    rw [Heap.used_allocate]
    exact room

/-- A refused kmalloc leaves a NULL pointer with a size; nothing is lost. -/
private theorem Ledger.refuse_first (ledger : Ledger machine entries commands pending lost)
    (null : machine.dev.currentEntry.buffptr = none) (size : Nat) :
    Ledger (machine.setCurrentEntry { buffptr := none, size }) entries commands [] lost := by
  have before := ledger.accounts
  unfold references at before
  rw [null] at before
  exact ⟨ledger.ring, ledger.stored, Or.inl ⟨rfl, rfl⟩, before, ledger.terminated, by norm_num,
    ledger.room⟩

/-- A refused krealloc overwrites the only pointer to the old block. -/
private theorem Ledger.refuse_later (ledger : Ledger machine entries commands pending lost)
    {block : Nat} (pointer : machine.dev.currentEntry.buffptr = some block) (size : Nat) :
    Ledger (machine.setCurrentEntry { buffptr := none, size }) entries commands []
      (block :: lost) := by
  have before := ledger.accounts
  unfold references at before
  rw [pointer, Option.toList_some, List.append_assoc] at before
  refine ⟨ledger.ring, ledger.stored, Or.inl ⟨rfl, rfl⟩, ?_, ledger.terminated, by norm_num,
    ledger.room⟩
  change machine.heap.Accounts ((entryBlocks entries ++ []) ++ (block :: lost))
  rw [List.append_nil]
  exact before

/-- Everything reserve can do.  `insert_pos` is the number of bytes gathered
so far, and the new room lies behind them. -/
theorem Ledger.reserve_cases (ledger : Ledger machine entries commands pending lost)
    {count : Nat} (positive : 0 < count) (capped : count < 2 ^ 31) (allocation : Allocation) :
    (machine.allocates count allocation = true ∧ ∃ block tail after,
      machine.reserve count allocation = .ok (pending.length, after) ∧
      Ledger after entries commands (pending ++ tail) lost ∧ tail.length = count ∧
      after.dev.currentEntry.buffptr = some block ∧
      after.heap.block block = some (pending ++ tail) ∧
      after.fPos = machine.fPos ∧ after.dev.buffer = machine.dev.buffer) ∨
    (machine.allocates count allocation = false ∧ ∃ insertPos after,
      machine.reserve count allocation = .ok (insertPos, after) ∧
      after.dev.currentEntry.buffptr = none ∧
      after.heap = machine.heap ∧ after.fPos = machine.fPos ∧
      after.dev.buffer = machine.dev.buffer ∧
      ((pending = [] ∧ Ledger after entries commands [] lost) ∨
        ∃ block, machine.dev.currentEntry.buffptr = some block ∧ pending ≠ [] ∧
          Ledger after entries commands [] (block :: lost))) := by
  rcases ledger.gathered with ⟨null, empty⟩ | ⟨⟨block, pointer, contents, size⟩, nonempty⟩
  · subst empty
    have unfolded : machine.reserve count allocation = .ok (0,
        { machine with heap := (kmalloc machine.heap count allocation).2 }.setCurrentEntry
          { buffptr := (kmalloc machine.heap count allocation).1, size := count }) := by
      simp only [Machine.reserve, null]
    have allocates : machine.allocates count allocation =
        (allocation.granted && admits machine.heap count) := by
      simp only [Machine.allocates, null]
    rcases kmalloc_cases machine.heap count allocation with
      ⟨bytes, result, length, small, room, granted⟩ | ⟨result, refused⟩
    · left
      have nonempty : bytes ≠ [] := List.ne_nil_of_length_pos (length ▸ positive)
      rw [result] at unfolded
      refine ⟨?_, machine.heap.next, bytes, _, unfolded, ?_, length, rfl,
        machine.heap.allocate_block_self bytes, rfl, rfl⟩
      · rw [allocates, granted, admits, decide_eq_true small, decide_eq_true room]
        rfl
      · rw [List.nil_append, ← length]
        exact ledger.reserve_first null nonempty (length ▸ small) (length ▸ room)
    · right
      rw [result] at unfolded
      exact ⟨allocates.trans refused, 0, _, unfolded, rfl, rfl, rfl, rfl,
        Or.inl ⟨rfl, ledger.refuse_first null count⟩⟩
  · have pendingSmall := ledger.pendingSmall
    have exactSize : sizeT (pending.length + count) = pending.length + count :=
      sizeT_of_lt (by omega)
    have allocates : machine.allocates count allocation =
        (allocation.granted && admits (machine.heap.release block) (pending.length + count)) := by
      simp only [Machine.allocates, pointer, size, exactSize]
    rcases krealloc_cases contents count allocation with
      ⟨tail, result, length, small, room, granted⟩ | ⟨result, refused⟩
    · left
      have whole : (pending ++ tail).length = pending.length + count := by
        rw [List.length_append, length]
      have longer : pending ++ tail ≠ [] := List.append_ne_nil_of_left_ne_nil nonempty tail
      have kept := ledger.reserve_later pointer longer (whole ▸ small) (whole ▸ room)
      refine ⟨?_, machine.heap.next, tail, _, ?_, kept, length, rfl,
        (machine.heap.release block).allocate_block_self (pending ++ tail), rfl, rfl⟩
      · rw [allocates, granted, admits, decide_eq_true small, decide_eq_true room]
        rfl
      · simp only [Machine.reserve, pointer, size, exactSize, result, ok_bind, whole]
        rfl
    · right
      refine ⟨allocates.trans refused, pending.length,
        machine.setCurrentEntry { buffptr := none, size := pending.length + count },
        ?_, rfl, rfl, rfl, rfl,
        Or.inr ⟨block, pointer, nonempty, ledger.refuse_later pointer _⟩⟩
      simp only [Machine.reserve, pointer, size, exactSize, result, ok_bind]
      rfl

/-! ### Filling the room and handing the command over -/

/-- Bytes copied behind the gathered ones become part of the command. -/
theorem Ledger.fill (ledger : Ledger machine entries commands pending lost)
    {block : Nat} (pointer : machine.dev.currentEntry.buffptr = some block)
    {bytes : List Byte} (sameLength : bytes.length = pending.length) (nonempty : bytes ≠ []) :
    Ledger { machine with heap := machine.heap.overwrite block bytes }
      entries commands bytes lost := by
  have held : Backed machine.heap machine.dev.currentEntry pending := by
    rcases ledger.gathered with ⟨null, _empty⟩ | ⟨backed, _nonempty⟩
    · rw [pointer] at null
      cases null
    · exact backed
  obtain ⟨same, samePointer, contents, size⟩ := held
  have sameBlock : same = block := Option.some.inj (samePointer.symm.trans pointer)
  subst sameBlock
  have unchanged : ∀ other, other ∈ entryBlocks entries →
      (machine.heap.overwrite same bytes).block other = machine.heap.block other := by
    intro other member
    exact machine.heap.overwrite_block_of_ne bytes (fun equal =>
      ledger.current_not_stored pointer (equal ▸ member))
  constructor
  · exact ledger.ring
  · exact stored_frame ledger.stored unchanged
  · exact Or.inr ⟨⟨same, pointer, Heap.overwrite_block_self contents bytes,
      size.trans sameLength.symm⟩, nonempty⟩
  · exact ledger.accounts.overwrite same bytes
  · exact ledger.terminated
  · rw [sameLength]
    exact ledger.pendingSmall
  · change (machine.heap.overwrite same bytes).used < 2 ^ 63
    rw [Heap.used_overwrite contents sameLength]
    exact ledger.room

theorem entryBlocks_append (first second : List AesdBufferEntry) :
    entryBlocks (first ++ second) = entryBlocks first ++ entryBlocks second :=
  List.filterMap_append

theorem references_handedOver {currentEntry : AesdBufferEntry} {block : Nat}
    (pointer : currentEntry.buffptr = some block) (earlier : List AesdBufferEntry) :
    references (earlier ++ [currentEntry]) .zero = entryBlocks earlier ++ [block] := by
  unfold references
  rw [entryBlocks_append]
  simp only [entryBlocks, List.filterMap_cons, pointer, List.filterMap_nil,
    AesdBufferEntry.zero, Option.toList_none, List.append_nil]

theorem Ledger.terminated_concat (ledger : Ledger machine entries commands pending lost)
    (ended : pending.getLast? = some newline) {command : List Byte}
    (member : command ∈ commands ++ [pending]) : command.getLast? = some newline := by
  rcases List.mem_append.mp member with earlier | new
  · exact ledger.terminated command earlier
  · rw [List.mem_singleton.mp new]
    exact ended

private theorem Ledger.commit_spare (ledger : Ledger machine entries commands pending lost)
    (ended : pending.getLast? = some newline)
    (held : Backed machine.heap machine.dev.currentEntry pending)
    (spare : entries.length < aesdcharMaxWriteOperationsSupported) :
    ∃ after added, machine.commit = .ok after ∧
      Ledger after added (commands ++ [pending]) [] lost ∧ after.fPos = machine.fPos ∧
      machine.dev.buffer.addEntry machine.dev.currentEntry = .ok after.dev.buffer := by
  obtain ⟨block, pointer, contents, size⟩ := held
  obtain ⟨added, result, content, _same⟩ :=
    ledger.ring.addEntry_of_lt machine.dev.currentEntry spare
  have notFull : machine.dev.buffer.getCount ≠ aesdcharMaxWriteOperationsSupported := by
    rw [ledger.ring.getCount_eq]
    exact Nat.ne_of_lt spare
  have before := ledger.accounts
  unfold references at before
  rw [pointer, Option.toList_some] at before
  refine ⟨{ machine with dev := { machine.dev with buffer := added, currentEntry := .zero } },
    entries ++ [machine.dev.currentEntry], ?_, ?_, rfl, result⟩
  · simp only [Machine.commit, if_neg notFull, pure_bind, result, ok_bind]
    rfl
  · refine ⟨content, ?_, Or.inl ⟨rfl, rfl⟩, ?_, fun _command => ledger.terminated_concat ended,
      by norm_num, ledger.room⟩
    · exact List.rel_append ledger.stored (.cons ⟨block, pointer, contents, size⟩ .nil)
    · change machine.heap.Accounts
        (references (entries ++ [machine.dev.currentEntry]) .zero ++ lost)
      rw [references_handedOver pointer]
      exact before

/-- A full ring frees the block of its oldest command. -/
private theorem Ledger.commit_full {oldest : AesdBufferEntry} {first : List Byte}
    (ledger : Ledger machine (oldest :: entries) (first :: commands) pending lost)
    (ended : pending.getLast? = some newline)
    (held : Backed machine.heap machine.dev.currentEntry pending)
    (full : (oldest :: entries).length = aesdcharMaxWriteOperationsSupported) :
    ∃ after added, machine.commit = .ok after ∧
      Ledger after added (commands ++ [pending]) [] lost ∧ after.fPos = machine.fPos ∧
      machine.dev.buffer.addEntry machine.dev.currentEntry = .ok after.dev.buffer := by
  obtain ⟨block, pointer, contents, size⟩ := held
  obtain ⟨added, result, content⟩ :=
    ledger.ring.addEntry_of_full machine.dev.currentEntry full
  cases ledger.stored with
  | cons backed rest =>
      obtain ⟨oldBlock, oldPointer, oldContents, _oldSize⟩ := backed
      have isFull : machine.dev.buffer.getCount = aesdcharMaxWriteOperationsSupported := by
        rw [ledger.ring.getCount_eq]
        exact full
      have atIn : machine.dev.buffer.inOffs =
          (machine.dev.buffer.outOffs + 0) % aesdcharMaxWriteOperationsSupported := by
        rw [ledger.ring.inAt, full, Nat.add_mod_right, Nat.add_zero]
      have lastEntry : machine.dev.buffer.entryAt machine.dev.buffer.inOffs = .ok oldest := by
        rw [atIn]
        exact ledger.ring.entryAt_step (by decide)
      have cleared : machine.dev.buffer.setEntry machine.dev.buffer.inOffs .zero =
          .ok { machine.dev.buffer with
            entry := machine.dev.buffer.entry.setIfInBounds machine.dev.buffer.inOffs .zero } :=
        if_pos ledger.ring.inLt
      have overwritten := addEntry_setEntry machine.dev.currentEntry _ cleared
      have freed : kfree machine.heap oldest.buffptr = .ok (machine.heap.release oldBlock) := by
        rw [oldPointer]
        exact kfree_allocated oldContents
      have before := ledger.accounts
      simp only [references, pointer, Option.toList_some, entryBlocks, List.filterMap_cons,
        oldPointer, List.cons_append] at before
      have oldApart : oldBlock ∉ entryBlocks entries ++ [block] ++ lost :=
        (List.nodup_cons.mp before.distinct).1
      have unchanged : ∀ other, other ∈ entryBlocks entries ++ [block] ++ lost →
          (machine.heap.release oldBlock).block other = machine.heap.block other := by
        intro other member
        exact machine.heap.release_block_of_ne (fun same => oldApart (same ▸ member))
      refine ⟨{ machine with
          heap := machine.heap.release oldBlock
          dev := { machine.dev with buffer := added, currentEntry := .zero } },
        entries ++ [machine.dev.currentEntry], ?_, ?_, rfl, result⟩
      · simp only [Machine.commit, if_pos isFull, lastEntry, ok_bind, freed, cleared, pure_bind,
          overwritten, result]
        rfl
      · refine ⟨content, ?_, Or.inl ⟨rfl, rfl⟩, ?_, ?_, by norm_num, ?_⟩
        · apply List.rel_append
          · exact stored_frame rest (fun other member => unchanged other
              (List.mem_append_left _ (List.mem_append_left _ member)))
          · refine .cons ⟨block, pointer, ?_, size⟩ .nil
            exact (unchanged block (List.mem_append_left _ (List.mem_append_right _
              (List.mem_singleton.mpr rfl)))).trans contents
        · change (machine.heap.release oldBlock).Accounts
            (references (entries ++ [machine.dev.currentEntry]) .zero ++ lost)
          rw [references_handedOver pointer]
          exact before.release
        · intro command member
          exact ledger.terminated_concat ended (List.mem_cons_of_mem first member)
        · exact Nat.lt_of_le_of_lt (machine.heap.used_release_le oldBlock) ledger.room

/-- The finished command becomes the newest one, and the oldest of ten goes. -/
theorem Ledger.commit_spec (ledger : Ledger machine entries commands pending lost)
    (ended : pending.getLast? = some newline) :
    ∃ after added, machine.commit = .ok after ∧
      Ledger after added
        (recent aesdcharMaxWriteOperationsSupported (commands ++ [pending])) [] lost ∧
      after.fPos = machine.fPos ∧
      machine.dev.buffer.addEntry machine.dev.currentEntry = .ok after.dev.buffer := by
  have held : Backed machine.heap machine.dev.currentEntry pending := by
    rcases ledger.gathered with ⟨_null, empty⟩ | ⟨backed, _nonempty⟩
    · rw [empty] at ended
      cases ended
    · exact backed
  have lengths := stored_length ledger.stored
  rcases Nat.lt_or_ge entries.length aesdcharMaxWriteOperationsSupported with spare | large
  · rw [recent_concat_of_lt (lengths ▸ spare)]
    exact ledger.commit_spare ended held spare
  · have full := Nat.le_antisymm ledger.ring.bounded large
    rw [recent_concat_of_full (lengths ▸ full) (by decide)]
    cases ledger.stored with
    | nil => cases full
    | cons backed rest => exact ledger.commit_full ended held full

end Facts

/-! ### A whole aesd_write -/

/-- The logical state of the device: the stored commands, oldest first, and the
bytes of the command being gathered. -/
structure Stored where
  commands : List (List Byte)
  pending : List Byte
  deriving DecidableEq, Repr

/-- What a write does to the logical state, and its return value. -/
def Stored.write (stored : Stored) (allocated : Bool) (bytes : List Byte) (uncopied : Nat) :
    Int × Stored :=
  if bytes = [] then (0, stored)
  else if allocated = false then (-enomem, { stored with pending := [] })
  else if uncopied ≠ 0 then
    (-efault, { stored with pending := stored.pending ++ copied bytes uncopied })
  else if bytes.getLast? = some newline then
    ((bytes.length : Int),
      { commands := recent aesdcharMaxWriteOperationsSupported
          (stored.commands ++ [stored.pending ++ bytes])
        pending := [] })
  else ((bytes.length : Int), { stored with pending := stored.pending ++ bytes })

namespace Machine

def locked (machine : Machine) : Machine :=
  { machine with dev := { machine.dev with lock := true } }

@[simp] theorem locked_buffer (machine : Machine) :
    machine.locked.dev.buffer = machine.dev.buffer := rfl

@[simp] theorem locked_heap (machine : Machine) : machine.locked.heap = machine.heap := rfl

/-- The allocation a call needs is a krealloc, and it fails. -/
def reallocFails (machine : Machine) (bytes : List Byte) (outcome : WriteOutcome) : Prop :=
  bytes ≠ [] ∧ machine.dev.currentEntry.buffptr ≠ none ∧
    machine.allocates bytes.length outcome.allocation = false

end Machine

section Write

variable {machine : Machine} {entries : List AesdBufferEntry} {commands : List (List Byte)}
  {pending : List Byte} {lost : List Nat}

private theorem last_loaded {heap : Heap Byte} {block : Nat} {front bytes : List Byte}
    (contents : heap.block block = some (front ++ bytes)) (nonempty : bytes ≠ [])
    (small : (front ++ bytes).length < 2 ^ 62) :
    ∃ last, load heap block (sizeTSub (sizeT (front.length + bytes.length)) 1) 1 = .ok [last] ∧
      bytes.getLast? = some last := by
  have positive := List.length_pos_iff.mpr nonempty
  have whole : (front ++ bytes).length = front.length + bytes.length := List.length_append
  have offset : sizeTSub (sizeT (front.length + bytes.length)) 1 =
      (front ++ bytes).length - 1 := by
    rw [sizeT_of_lt (by omega), sizeTSub_of_le (by omega) (by omega), whole]
  obtain ⟨initial, last, split⟩ : ∃ initial last, bytes = initial ++ [last] :=
    ⟨_, _, (List.dropLast_append_getLast nonempty).symm⟩
  refine ⟨last, ?_, by rw [split, List.getLast?_concat]⟩
  rw [load_inside contents (by omega), offset, split, ← List.append_assoc, List.length_append,
    List.length_singleton, Nat.add_sub_cancel, List.drop_left, List.take_of_length_le (by simp)]

/-- What an aesd_write does beside the logical state. -/
structure WriteEffect (machine : Machine) (bytes : List Byte) (outcome : WriteOutcome)
    (lost : List Nat) (after : Machine) (leftover : List Nat) : Prop where
  samePos : after.fPos = machine.fPos
  ring : (after.dev.buffer = machine.dev.buffer ∧
      (bytes.getLast? = some newline →
        machine.allocates bytes.length outcome.allocation = false ∨ outcome.uncopied ≠ 0)) ∨
    (bytes.getLast? = some newline ∧
      ∃ entry, machine.dev.buffer.addEntry entry = .ok after.dev.buffer)
  blocks : (¬machine.reallocFails bytes outcome ∧ leftover = lost) ∨
    (machine.reallocFails bytes outcome ∧
      ∃ block, machine.dev.currentEntry.buffptr = some block ∧ leftover = block :: lost)

theorem lock_taken (unlocked : machine.dev.lock = false) :
    machine.mutexLock = .ok machine.locked :=
  if_neg (by rw [unlocked]; exact Bool.false_ne_true)

private theorem aesdWrite_refused (unlocked : machine.dev.lock = false) {buf : UserBuffer}
    (something : buf.bytes ≠ []) {outcome : WriteOutcome} {insertPos : Nat} {after : Machine}
    (reserved : machine.locked.reserve buf.bytes.length outcome.allocation =
      .ok (insertPos, after))
    (null : after.dev.currentEntry.buffptr = none) (fPos : Int) :
    machine.aesdWrite buf fPos outcome = .ok (-enomem, fPos, after.mutexUnlock) := by
  have someCount : buf.bytes.length ≠ 0 := fun zero => something (List.length_eq_zero_iff.mp zero)
  simp only [Machine.aesdWrite, lock_taken unlocked, ok_bind, if_neg someCount, reserved, null]
  rfl

private theorem aesdWrite_filled (unlocked : machine.dev.lock = false) {buf : UserBuffer}
    (something : buf.bytes ≠ []) {outcome : WriteOutcome} {after : Machine}
    (reserved : machine.locked.reserve buf.bytes.length outcome.allocation =
      .ok (pending.length, after))
    {block : Nat} (pointer : after.dev.currentEntry.buffptr = some block) {tail : List Byte}
    (contents : after.heap.block block = some (pending ++ tail))
    (fits : tail.length = buf.bytes.length) (fPos : Int) :
    machine.aesdWrite buf fPos outcome =
      let filled : Machine :=
        { after with heap :=
            after.heap.overwrite block (pending ++ copied buf.bytes outcome.uncopied) }
      if outcome.uncopied ≠ 0 then .ok (-efault, fPos, filled.mutexUnlock)
      else filled.finishWrite block pending.length buf.bytes.length fPos := by
  have positive := List.length_pos_iff.mpr something
  have someCount : buf.bytes.length ≠ 0 := Nat.ne_of_gt positive
  simp only [Machine.aesdWrite, lock_taken unlocked, ok_bind, if_neg someCount, reserved, pointer,
    copyFromUser_end contents fits outcome.uncopied]
  by_cases complete : outcome.uncopied = 0
  · rw [if_neg (by omega), if_neg (by omega)]
  · rw [if_pos (by omega), if_pos complete]
    rfl

/-- The end of a complete write: a newline hands the command over. -/
private theorem Ledger.finishWrite_spec {bytes : List Byte}
    (ledger : Ledger machine entries commands (pending ++ bytes) lost) (something : bytes ≠ [])
    {block : Nat} (contents : machine.heap.block block = some (pending ++ bytes)) (fPos : Int) :
    let written := Stored.write ⟨commands, pending⟩ true bytes 0
    ∃ after added, machine.finishWrite block pending.length bytes.length fPos =
        .ok (written.1, fPos, after) ∧
      Settled after added written.2.commands written.2.pending lost ∧
      after.fPos = machine.fPos ∧
      ((after.dev.buffer = machine.dev.buffer ∧ bytes.getLast? ≠ some newline) ∨
        (bytes.getLast? = some newline ∧
          ∃ entry, machine.dev.buffer.addEntry entry = .ok after.dev.buffer)) := by
  intro written
  obtain ⟨last, loaded, lastByte⟩ := last_loaded contents something ledger.pendingSmall
  by_cases ends : last = newline
  · have effect : written = ((bytes.length : Int),
        { commands := recent aesdcharMaxWriteOperationsSupported (commands ++ [pending ++ bytes])
          pending := [] }) := by
      simp only [written, Stored.write, if_neg something, Bool.true_eq_false, if_false, ne_eq,
        not_true_eq_false, lastByte, ends, if_true]
    have endsPending : (pending ++ bytes).getLast? = some newline := by
      rw [List.getLast?_append_of_ne_nil _ something, lastByte, ends]
    obtain ⟨after, added, committed, kept, keptPos, ring⟩ := ledger.commit_spec endsPending
    refine ⟨after.mutexUnlock, added, ?_, ?_, keptPos, Or.inr ⟨by rw [lastByte, ends], _, ring⟩⟩
    · rw [effect, Machine.finishWrite, loaded, ok_bind, if_pos (by rw [ends]), committed]
      rfl
    · rw [effect]
      exact ⟨kept.relock false, rfl⟩
  · have effect : written = ((bytes.length : Int), ⟨commands, pending ++ bytes⟩) := by
      simp only [written, Stored.write, if_neg something, Bool.true_eq_false, if_false, ne_eq,
        not_true_eq_false, lastByte, Option.some.injEq, ends]
    have unended : bytes.getLast? ≠ some newline := by
      rw [lastByte]
      exact fun same => ends (Option.some.inj same)
    refine ⟨machine.mutexUnlock, entries, ?_, ?_, rfl, Or.inl ⟨rfl, unended⟩⟩
    · rw [effect, Machine.finishWrite, loaded, ok_bind,
        if_neg (by rw [List.cons.injEq]; exact fun both => ends both.1)]
      rfl
    · rw [effect]
      exact ⟨ledger.relock false, rfl⟩

/-- aesd_write computes `Stored.write` on the logical state, whatever the
kernel answers; it touches no file position and gives the lock back. -/
theorem Settled.aesdWrite_spec (settled : Settled machine entries commands pending lost)
    (buf : UserBuffer) (fPos : Int) (outcome : WriteOutcome) :
    let written := Stored.write ⟨commands, pending⟩
      (machine.allocates buf.bytes.length outcome.allocation) buf.bytes outcome.uncopied
    ∃ after added leftover, machine.aesdWrite buf fPos outcome = .ok (written.1, fPos, after) ∧
      Settled after added written.2.commands written.2.pending leftover ∧
      WriteEffect machine buf.bytes outcome lost after leftover := by
  intro written
  have unlocked := settled.unlocked
  have lockedLedger : Ledger machine.locked entries commands pending lost :=
    settled.toLedger.relock true
  by_cases empty : buf.bytes = []
  · have nothing : written = (0, ⟨commands, pending⟩) := if_pos empty
    have noCount : buf.bytes.length = 0 := List.length_eq_zero_iff.mpr empty
    refine ⟨machine.locked.mutexUnlock, entries, lost, ?_, ?_,
      ⟨rfl, Or.inl ⟨rfl, ?_⟩, Or.inl ⟨fun fails => fails.1 empty, rfl⟩⟩⟩
    · rw [nothing]
      simp only [Machine.aesdWrite, lock_taken unlocked, ok_bind, if_pos noCount]
      rfl
    · rw [nothing]
      exact ⟨lockedLedger.relock false, rfl⟩
    · rw [empty]
      intro impossible
      cases impossible
  have sameAllocates : machine.locked.allocates buf.bytes.length outcome.allocation =
      machine.allocates buf.bytes.length outcome.allocation := rfl
  rcases lockedLedger.reserve_cases (List.length_pos_iff.mpr empty) buf.capped
      outcome.allocation with
    ⟨allocates, block, tail, reserved, result, ledger, tailLength, pointer, contents, samePos,
      sameBuffer⟩ |
    ⟨refuses, insertPos, refused, result, null, _sameHeap, samePos, sameBuffer, ledgers⟩
  · rw [sameAllocates] at allocates
    have noLoss : ¬machine.reallocFails buf.bytes outcome := by
      intro fails
      rw [fails.2.2] at allocates
      cases allocates
    have computed := aesdWrite_filled unlocked empty result pointer contents tailLength fPos
    have filledLength : (pending ++ copied buf.bytes outcome.uncopied).length =
        (pending ++ tail).length := by
      rw [List.length_append, List.length_append, copied_length, tailLength]
    have filledNonempty : pending ++ copied buf.bytes outcome.uncopied ≠ [] := by
      apply List.ne_nil_of_length_pos
      rw [filledLength, List.length_append, tailLength]
      exact Nat.lt_of_lt_of_le (List.length_pos_iff.mpr empty) (Nat.le_add_left _ _)
    have filledLedger := ledger.fill pointer filledLength filledNonempty
    have filledContents := Heap.overwrite_block_self contents
      (pending ++ copied buf.bytes outcome.uncopied)
    by_cases complete : outcome.uncopied = 0
    · rw [if_neg (not_not_intro complete), complete, copied_zero] at computed
      rw [complete, copied_zero] at filledLedger filledContents
      obtain ⟨after, added, finished, kept, keptPos, ring⟩ :=
        filledLedger.finishWrite_spec empty filledContents fPos
      have same : written = Stored.write ⟨commands, pending⟩ true buf.bytes 0 := by
        simp only [written, allocates, complete]
      rw [same]
      refine ⟨after, added, lost, computed.trans finished, kept,
        ⟨keptPos.trans samePos, ?_, Or.inl ⟨noLoss, rfl⟩⟩⟩
      have sameRing : reserved.dev.buffer = machine.dev.buffer := sameBuffer
      rw [← sameRing]
      exact ring.imp_left (fun kept => ⟨kept.1, fun ended => absurd ended kept.2⟩)
    · have effect : written =
          (-efault, ⟨commands, pending ++ copied buf.bytes outcome.uncopied⟩) := by
        simp only [written, Stored.write, if_neg empty, allocates, Bool.true_eq_false, if_false,
          ne_eq, complete, not_false_eq_true, if_true]
      rw [if_pos complete] at computed
      rw [effect]
      exact ⟨_, entries, lost, computed, ⟨filledLedger.relock false, rfl⟩,
        ⟨samePos, Or.inl ⟨sameBuffer, fun _ended => Or.inr complete⟩, Or.inl ⟨noLoss, rfl⟩⟩⟩
  · rw [sameAllocates] at refuses
    have effect : written = (-enomem, ⟨commands, []⟩) := by
      simp only [written, Stored.write, if_neg empty, refuses, if_true]
    have computed := aesdWrite_refused unlocked empty result null fPos
    rw [effect]
    rcases ledgers with ⟨nothing, ledger⟩ | ⟨block, pointer, gathered, ledger⟩
    · have noLoss : ¬machine.reallocFails buf.bytes outcome := fun fails =>
        fails.2.1 (settled.toLedger.buffptr_none_iff.mpr nothing)
      exact ⟨_, entries, lost, computed, ⟨ledger.relock false, rfl⟩,
        ⟨samePos, Or.inl ⟨sameBuffer, fun _ended => Or.inl refuses⟩, Or.inl ⟨noLoss, rfl⟩⟩⟩
    · have fails : machine.reallocFails buf.bytes outcome :=
        ⟨empty, fun null => gathered (settled.toLedger.buffptr_none_iff.mp null), refuses⟩
      exact ⟨_, entries, block :: lost, computed, ⟨ledger.relock false, rfl⟩,
        ⟨samePos, Or.inl ⟨sameBuffer, fun _ended => Or.inl refuses⟩,
          Or.inr ⟨fails, block, pointer, rfl⟩⟩⟩

end Write

end Aesd.Driver
