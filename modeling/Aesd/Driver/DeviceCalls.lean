/-
What the calls of the driver see and keep.

The logical state of a machine is computed slot by slot from `out_offs`.  On a
settled ledger a read gives the next slice of the stored commands laid end to
end, and neither a read nor a seek changes what is stored.
-/

import Aesd.Driver.WriteLedger

set_option autoImplicit false

namespace Aesd.Driver

open BlockHeap BoundedLoop CallRun KernelMemory SegmentedBytes AesdCircularBuffer

namespace Machine

/-- The bytes an entry stands for. -/
def bytesOf (machine : Machine) (entry : AesdBufferEntry) : List Byte :=
  match entry.buffptr with
  | none => []
  | some block => ((machine.heap.block block).getD []).take entry.size

/-- The commands read slot by slot from `out_offs` on, for get_count slots. -/
def storedCommands (machine : Machine) : List (List Byte) :=
  (List.range machine.dev.buffer.getCount).map (fun step =>
    match machine.dev.buffer.entry[
        (machine.dev.buffer.outOffs + step) % aesdcharMaxWriteOperationsSupported]? with
    | some entry => machine.bytesOf entry
    | none => [])

def pendingBytes (machine : Machine) : List Byte := machine.bytesOf machine.dev.currentEntry

def logical (machine : Machine) : Stored :=
  { commands := machine.storedCommands, pending := machine.pendingBytes }

@[simp] theorem setFPos_fPos_self (machine : Machine) (file : Nat) :
    machine.setFPos file (machine.fPos file) = machine := by
  unfold setFPos
  rw [Function.update_eq_self]

@[simp] theorem setFPos_at (machine : Machine) (file : Nat) (fPos : Int) :
    (machine.setFPos file fPos).fPos file = fPos := Function.update_self ..

theorem relock_unlock {machine : Machine} (unlocked : machine.dev.lock = false) :
    machine.locked.mutexUnlock = machine := by
  obtain ⟨⟨buffer, currentEntry, lock⟩, heap, fPos⟩ := machine
  cases unlocked
  rfl

end Machine

section Logical

variable {machine : Machine} {entries : List AesdBufferEntry} {commands : List (List Byte)}
  {pending : List Byte} {lost : List Nat}

theorem Backed.bytesOf_eq {entry : AesdBufferEntry} {bytes : List Byte}
    (backed : Backed machine.heap entry bytes) : machine.bytesOf entry = bytes := by
  obtain ⟨block, pointer, contents, size⟩ := backed
  simp only [Machine.bytesOf, pointer, contents, size, Option.getD_some, List.take_length]

theorem Ledger.pendingBytes_eq (ledger : Ledger machine entries commands pending lost) :
    machine.pendingBytes = pending := by
  rcases ledger.gathered with ⟨null, empty⟩ | ⟨backed, _nonempty⟩
  · simp only [Machine.pendingBytes, Machine.bytesOf, null, empty]
  · exact backed.bytesOf_eq

theorem Ledger.storedCommands_eq (ledger : Ledger machine entries commands pending lost) :
    machine.storedCommands = commands := by
  apply List.ext_getElem?
  intro step
  unfold Machine.storedCommands
  rw [List.getElem?_map]
  by_cases stored : step < commands.length
  · have atIndex := List.getElem?_eq_getElem stored
    obtain ⟨entry, atEntry, backed⟩ := stored_getElem? ledger.stored atIndex
    have inside : step < aesdcharMaxWriteOperationsSupported :=
      Nat.lt_of_lt_of_le stored ledger.commands_bounded
    rw [atIndex, ledger.count_eq, List.getElem?_range stored, Option.map_some,
      ledger.ring.slots step inside, walked_of_getElem? atEntry]
    exact congrArg some backed.bytesOf_eq
  · rw [List.getElem?_eq_none (Nat.le_of_not_lt stored), ledger.count_eq,
      List.getElem?_eq_none (by rw [List.length_range]; exact Nat.le_of_not_lt stored),
      Option.map_none]

theorem Ledger.logical_eq (ledger : Ledger machine entries commands pending lost) :
    machine.logical = ⟨commands, pending⟩ := by
  rw [Machine.logical, ledger.storedCommands_eq, ledger.pendingBytes_eq]

/-! ### aesd_read -/

theorem sizeOfLoff_lt (value : Int) : sizeOfLoff value < 2 ^ 64 := by
  unfold sizeOfLoff
  omega

theorem sizeOfLoff_natCast {position : Nat} (small : position < 2 ^ 64) :
    sizeOfLoff position = position := by
  unfold sizeOfLoff
  omega

theorem loffT_natCast {position : Nat} (small : position < 2 ^ 63) :
    loffT position = position := by
  unfold loffT
  rw [Int.bmod_def]
  omega

theorem Ledger.find_eq (ledger : Ledger machine entries commands pending lost) (fPos : Int) :
    machine.dev.buffer.findEntryOffsetForFpos (sizeOfLoff fPos) =
      .ok ((locate (commands.map List.length) (sizeOfLoff fPos)).map (fun found =>
        ((machine.dev.buffer.outOffs + found.1) % aesdcharMaxWriteOperationsSupported,
          found.2))) := by
  rw [ledger.ring.find_eq_locate (sizeOfLoff_lt fPos) ledger.sizes_total_lt,
    stored_sizes ledger.stored]

/-- A walk from the oldest command meets the entry that holds the command. -/
theorem Ledger.entry_of_command (ledger : Ledger machine entries commands pending lost)
    {index : Nat} {command : List Byte} (atIndex : commands[index]? = some command) :
    ∃ entry block, machine.dev.buffer.entryAt
        ((machine.dev.buffer.outOffs + index) % aesdcharMaxWriteOperationsSupported) = .ok entry ∧
      entry.buffptr = some block ∧ machine.heap.block block = some command ∧
      entry.size = command.length := by
  obtain ⟨entry, atEntry, block, pointer, contents, size⟩ := stored_getElem? ledger.stored atIndex
  obtain ⟨stored, _same⟩ := List.getElem?_eq_some_iff.mp atEntry
  refine ⟨entry, block, ?_, pointer, contents, size⟩
  rw [ledger.ring.entryAt_step (Nat.lt_of_lt_of_le stored ledger.ring.bounded),
    walked_of_getElem? atEntry]

/-- aesd_read hands out the next slice of the stored commands and changes
nothing but the position. -/
theorem Settled.aesdRead_eq (settled : Settled machine entries commands pending lost)
    (count : Nat) (fPos : Int) (uncopied : Nat) :
    machine.aesdRead count fPos uncopied =
      .ok (let bytes := slice commands (sizeOfLoff fPos) count
        if bytes = [] then (0, [], fPos, machine)
        else if uncopied ≠ 0 then
          (-efault, bytes.take (bytes.length - uncopied), fPos, machine)
        else ((bytes.length : Int), bytes, loffT (sizeOfLoff fPos + bytes.length), machine)) := by
  have ledger := settled.toLedger
  have unlock := Machine.relock_unlock settled.unlocked
  have lockTaken := lock_taken settled.unlocked
  cases found : locate (commands.map List.length) (sizeOfLoff fPos) with
  | none =>
      have nothing : slice commands (sizeOfLoff fPos) count = [] := by
        rw [slice, found]
      simp only [Machine.aesdRead, lockTaken, ok_bind, Machine.locked_buffer, ledger.find_eq,
        found, Option.map_none, nothing, if_true, unlock]
      rfl
  | some place =>
      obtain ⟨index, offset⟩ := place
      obtain ⟨command, atIndex, inside, _back⟩ := located_segment found
      have bytesEq := slice_of_locate found atIndex count
      by_cases noCount : count = 0
      · have nothing : slice commands (sizeOfLoff fPos) count = [] := by
          rw [bytesEq, noCount, List.take_zero]
        simp only [Machine.aesdRead, lockTaken, ok_bind, Machine.locked_buffer, ledger.find_eq,
          found, Option.map_some, if_pos noCount, nothing, if_true, unlock]
        rfl
      obtain ⟨entry, block, entryAt, pointer, contents, size⟩ := ledger.entry_of_command atIndex
      have commandSmall : command.length < 2 ^ 64 := by
        have total := ledger.total_lt
        have within := List.Sublist.length_le
          (List.sublist_flatten_of_mem (List.mem_of_getElem? atIndex))
        omega
      have available : sizeTSub entry.size offset = command.length - offset := by
        rw [size]
        exact sizeTSub_of_le (Nat.le_of_lt inside) commandSmall
      have bytesLength : (slice commands (sizeOfLoff fPos) count).length =
          if command.length - offset < count then command.length - offset else count := by
        rw [bytesEq, List.length_take, List.length_drop]
        split <;> omega
      have something : slice commands (sizeOfLoff fPos) count ≠ [] := by
        apply List.ne_nil_of_length_pos
        rw [bytesLength]
        split <;> omega
      have copy := copyToUser_inside contents
        (show offset + (slice commands (sizeOfLoff fPos) count).length ≤ command.length by
          rw [bytesLength]; split <;> omega) uncopied
      have copiedBytes : (command.drop offset).take
          (slice commands (sizeOfLoff fPos) count).length =
            slice commands (sizeOfLoff fPos) count := by
        rw [bytesEq, List.length_take, ← List.take_take, List.take_length]
      rw [copiedBytes] at copy
      simp only [Machine.aesdRead, lockTaken, ok_bind, Machine.locked_buffer, ledger.find_eq,
        found, Option.map_some, if_neg noCount, Machine.locked_heap, entryAt, available,
        ← bytesLength, pointer, copy, if_neg something, unlock]
      by_cases complete : uncopied = 0
      · rw [complete, Nat.zero_min, Nat.sub_zero, List.take_length]
        simp only [ne_eq, not_true_eq_false, if_false]
        rfl
      · have positive := List.length_pos_iff.mpr something
        rw [if_pos (by omega), if_pos complete]
        rfl

/-! ### write(2), read(2) and lseek(2) -/

theorem Settled.write_spec (settled : Settled machine entries commands pending lost)
    (call : WriteCall) :
    let written := Stored.write ⟨commands, pending⟩
      (machine.allocates call.buf.bytes.length call.outcome.allocation) call.buf.bytes
      call.outcome.uncopied
    ∃ after added leftover, machine.write call = .ok (⟨written.1, []⟩, after) ∧
      Settled after added written.2.commands written.2.pending leftover ∧
      WriteEffect machine call.buf.bytes call.outcome lost after leftover := by
  intro written
  obtain ⟨after, added, leftover, made, kept, effect⟩ :=
    settled.aesdWrite_spec call.buf (machine.fPos call.file) call.outcome
  refine ⟨after, added, leftover, ?_, kept, effect⟩
  have unmoved : after.setFPos call.file (machine.fPos call.file) = after := by
    rw [← effect.samePos, Machine.setFPos_fPos_self]
  unfold Machine.write
  rw [made, ok_bind]
  change Except.ok _ = _
  rw [unmoved, ite_self]

/-- One read of the stored commands: the reply and the position afterwards. -/
def readAt (commands : List (List Byte)) (position : Int) (count uncopied : Nat) : Reply × Int :=
  let bytes := slice commands (sizeOfLoff position) count
  if bytes = [] then (⟨0, []⟩, position)
  else if uncopied ≠ 0 then (⟨-efault, bytes.take (bytes.length - uncopied)⟩, position)
  else (⟨(bytes.length : Int), bytes⟩, loffT (sizeOfLoff position + bytes.length))

theorem Settled.read_eq (settled : Settled machine entries commands pending lost)
    (call : ReadCall) :
    machine.read call =
      .ok ((readAt commands (machine.fPos call.file) call.count call.uncopied).1,
        machine.setFPos call.file
          (readAt commands (machine.fPos call.file) call.count call.uncopied).2) := by
  unfold Machine.read readAt
  rw [settled.aesdRead_eq, ok_bind]
  by_cases nothing : slice commands (sizeOfLoff (machine.fPos call.file)) call.count = []
  · simp only [if_pos nothing, ge_iff_le, le_refl, if_true]
    rfl
  · by_cases complete : call.uncopied = 0
    · simp only [if_neg nothing, complete, ne_eq, not_true_eq_false, if_false, ge_iff_le,
        Int.natCast_nonneg, if_true]
      rfl
    · have failed : ¬(-efault ≥ 0) := by decide
      simp only [if_neg nothing, ne_eq, complete, not_false_eq_true, if_true, if_neg failed,
        Machine.setFPos_fPos_self]
      rfl

theorem readAt_data_isInfix (commands : List (List Byte)) (position : Int) (count uncopied : Nat) :
    (readAt commands position count uncopied).1.data <:+: commands.flatten := by
  have inside : slice commands (sizeOfLoff position) count <:+: commands.flatten :=
    (slice_isPrefix _ _ _).isInfix.trans (List.drop_suffix _ _).isInfix
  unfold readAt
  dsimp only
  split
  · exact List.nil_infix
  · split
    · exact (List.take_prefix _ _).isInfix.trans inside
    · exact inside

theorem Settled.llseek_eq (settled : Settled machine entries commands pending lost) (file : Nat)
    (offset : Int) (whence : Whence) :
    machine.llseek file offset whence =
      .ok ((fixedSizeLlseek (machine.fPos file) offset whence commands.flatten.length).1,
        machine.setFPos file
          (fixedSizeLlseek (machine.fPos file) offset whence commands.flatten.length).2) := by
  have total := settled.toLedger.total_lt
  have size : machine.dev.buffer.getSize = .ok commands.flatten.length := by
    rw [settled.ring.getSize_eq, stored_sizes settled.stored, ← List.length_flatten,
      sizeT_of_lt (by omega)]
  unfold Machine.llseek
  rw [size, ok_bind, loffT_natCast total]
  rfl

theorem Settled.call_llseek (settled : Settled machine entries commands pending lost) (file : Nat)
    (offset : Int) (whence : Whence) :
    ∃ ret fPos, machine.call (.llseek file offset whence) =
      .ok (⟨ret, []⟩, machine.setFPos file fPos) := by
  refine ⟨(fixedSizeLlseek (machine.fPos file) offset whence commands.flatten.length).1,
    (fixedSizeLlseek (machine.fPos file) offset whence commands.flatten.length).2, ?_⟩
  simp only [Machine.call, settled.llseek_eq, ok_bind]
  rfl

/-- The machine has a ledger, and nobody holds the lock. -/
def Machine.Accounted (machine : Machine) : Prop :=
  ∃ entries commands pending lost, Settled machine entries commands pending lost

theorem Machine.initialized_accounted (fPos : Nat → Int) : (initialized fPos).Accounted :=
  ⟨[], [], [], [], initialized_settled fPos⟩

/-- The ioctl changes at most the file's position, and only where it returns 0. -/
theorem Machine.unlockedIoctl_moves {machine after : Machine} {file cmd uncopied : Nat}
    {arg : AesdSeekto} {ret : Int}
    (result : machine.unlockedIoctl file cmd arg uncopied = .ok (ret, after)) :
    after = machine ∨ (ret = 0 ∧ ∃ fPos, after = machine.setFPos file fPos) := by
  unfold Machine.unlockedIoctl Machine.aesdAdjustFileOffset at result
  dsimp only at result
  split at result
  · cases result
    exact Or.inl rfl
  split at result
  · cases result
    exact Or.inl rfl
  split at result
  · split at result
    · cases result
      exact Or.inl rfl
    split at result
    · cases result
      exact Or.inl rfl
    obtain ⟨entry, _found, behind⟩ := ok_of_bind result
    split at behind
    · cases behind
      exact Or.inl rfl
    obtain ⟨newPos, _placed, last⟩ := ok_of_bind behind
    cases newPos with
    | none =>
        cases last
        exact Or.inl rfl
    | some newPos =>
        cases last
        exact Or.inr ⟨rfl, _, rfl⟩
  · cases result
    exact Or.inl rfl

/-- Writes, reads and seeks by llseek; the ioctl is left out. -/
def Call.Access : Call → Prop
  | .ioctl .. => False
  | _ => True

/-- No such call faults, and each keeps the ledger. -/
theorem Machine.Accounted.access {machine : Machine} {call : Call}
    (accounted : machine.Accounted) (access : call.Access) :
    ∃ reply after, machine.call call = .ok (reply, after) ∧ after.Accounted := by
  obtain ⟨entries, commands, pending, lost, settled⟩ := accounted
  cases call with
  | write call =>
      obtain ⟨after, added, leftover, made, kept, _effect⟩ := settled.write_spec call
      exact ⟨_, after, made, added, _, _, leftover, kept⟩
  | read call =>
      exact ⟨_, _, settled.read_eq call, entries, commands, pending, lost,
        settled.setFPos call.file _⟩
  | llseek file offset whence =>
      obtain ⟨ret, fPos, made⟩ := settled.call_llseek file offset whence
      exact ⟨_, _, made, entries, commands, pending, lost, settled.setFPos file fPos⟩
  | ioctl file cmd arg uncopied => exact False.elim access

/-- Whatever call returned, the machine still has a ledger. -/
theorem Machine.Accounted.returned {machine after : Machine} {call : Call} {reply : Reply}
    (accounted : machine.Accounted) (made : machine.call call = .ok (reply, after)) :
    after.Accounted := by
  by_cases access : call.Access
  · obtain ⟨_reply, _after, same, kept⟩ := accounted.access access
    rw [made] at same
    cases same
    exact kept
  · obtain ⟨entries, commands, pending, lost, settled⟩ := accounted
    cases call with
    | write call => exact absurd True.intro access
    | read call => exact absurd True.intro access
    | llseek file offset whence => exact absurd True.intro access
    | ioctl file cmd arg uncopied =>
        have moved : after = machine ∨
            (reply.ret = 0 ∧ ∃ fPos, after = machine.setFPos file fPos) := by
          simp only [Machine.call] at made
          obtain ⟨⟨ret, reached⟩, result, same⟩ := ok_of_bind made
          cases same
          exact Machine.unlockedIoctl_moves result
        rcases moved with same | ⟨_zero, fPos, same⟩
        · rw [same]
          exact ⟨entries, commands, pending, lost, settled⟩
        · rw [same]
          exact ⟨entries, commands, pending, lost, settled.setFPos file fPos⟩

theorem Machine.reachable_accounted {fPos : Nat → Int} {calls : List Call} {replies : List Reply}
    {machine : Machine} (reachable : (initialized fPos).run calls = .ok (replies, machine)) :
    machine.Accounted := by
  let Known (machine : Machine) (_earlier : List Call) : Prop := machine.Accounted
  have one : ∀ machine earlier call reply after, Known machine earlier → True →
      machine.call call = .ok (reply, after) → Known after (earlier ++ [call]) :=
    fun _machine _earlier _call _reply _after known _any made => known.returned made
  have start : Known (initialized fPos) [] := initialized_accounted fPos
  exact runCalls_follows [] one start
    (runMeets_of_forall (fun _machine _call _member => True.intro) _)
    reachable

theorem Machine.Accounted.write {machine : Machine} (accounted : machine.Accounted)
    (call : WriteCall) :
    ∃ reply after, machine.write call = .ok (reply, after) ∧ after.Accounted := by
  obtain ⟨entries, commands, pending, lost, settled⟩ := accounted
  obtain ⟨after, added, leftover, made, kept, _effect⟩ := settled.write_spec call
  exact ⟨_, after, made, added, _, _, leftover, kept⟩

end Logical

end Aesd.Driver
