/-
AESDCHAR_IOCSEEKTO, the seek to a byte of a command.

Commands are counted from the oldest one, slots from the start of the array.
The ioctl adds `out_offs` without going back to slot 0 behind the last one, so
it is right exactly for the commands that lie in front of the array's end.
-/

import Aesd.Driver.WriteRefinement

set_option autoImplicit false

namespace Aesd.Driver

open BlockHeap BoundedLoop CallRun EndedGroups KernelMemory RecentWindow SegmentedBytes
open AesdCircularBuffer

/-- A read of one file that asks for something and is copied completely. -/
def ReadCall.Complete (file : Nat) (call : ReadCall) : Prop :=
  call.file = file ∧ 0 < call.count ∧ call.uncopied = 0

namespace Machine

/-- Repeated complete reads return exactly `expected`, piece by piece, and 0
from its end on. -/
def ReadsGive (machine : Machine) (file : Nat) (expected : List Byte) : Prop :=
  ∀ reads, (∀ call, call ∈ reads → call.Complete file) →
    ∃ replies after, runCalls Machine.read machine reads = .ok (replies, after) ∧
      (∀ reply, reply ∈ replies → reply.ret = (reply.data.length : Int)) ∧
      (replies.map Reply.data).flatten <+: expected ∧
      (expected.length ≤ reads.length → (replies.map Reply.data).flatten = expected) ∧
      ∀ call, call.Complete file → ∃ reply last, after.read call = .ok (reply, last) ∧
        (reply.ret = 0 ↔ (replies.map Reply.data).flatten = expected)

/-- What the seek to byte `writeCmdOffset` of command `writeCmd` is to do.  That
the ioctl returns at all means that no index left the array. -/
def SeekCorrect (machine : Machine) (file writeCmd writeCmdOffset : Nat) : Prop :=
  ∃ ret after,
    machine.unlockedIoctl file aesdcharIocseekto ⟨writeCmd, writeCmdOffset⟩ 0 = .ok (ret, after) ∧
    (ret = 0 ∨ ret = -einval) ∧
    (ret = 0 ↔ ∃ command, machine.storedCommands[writeCmd]? = some command ∧
      writeCmdOffset < command.length) ∧
    (ret = 0 →
      after = machine.setFPos file
        ((((machine.storedCommands.take writeCmd).map List.length).sum + writeCmdOffset : Nat) :
          Int) ∧
      after.ReadsGive file (((machine.storedCommands.getD writeCmd []).drop writeCmdOffset) ++
        (machine.storedCommands.drop (writeCmd + 1)).flatten)) ∧
    (ret = -einval → after = machine)

end Machine

section Seek

variable {machine : Machine} {entries : List AesdBufferEntry} {commands : List (List Byte)}
  {pending : List Byte} {lost : List Nat}

/-! ### Reading on from a position -/

private theorem slice_end_lt (ledger : Ledger machine entries commands pending lost)
    {position : Nat} (small : position < 2 ^ 63) (count : Nat) :
    position + (slice commands position count).length < 2 ^ 63 := by
  have total := ledger.total_lt
  have within := (slice_isPrefix commands position count).length_le
  rw [List.length_drop] at within
  omega

theorem Settled.read_complete (settled : Settled machine entries commands pending lost)
    {file position : Nat} (here : machine.fPos file = (position : Int))
    (small : position < 2 ^ 63) {call : ReadCall} (complete : call.Complete file) :
    machine.read call =
      .ok (⟨((slice commands position call.count).length : Int),
          slice commands position call.count⟩,
        machine.setFPos file
          ((position + (slice commands position call.count).length : Nat) : Int)) := by
  obtain ⟨sameFile, _positive, copied⟩ := complete
  have moved := slice_end_lt settled.toLedger small call.count
  rw [settled.read_eq call, sameFile, here, copied, readAt, sizeOfLoff_natCast (by omega)]
  by_cases nothing : slice commands position call.count = []
  · simp only [nothing, if_true, List.length_nil, Nat.cast_zero, Nat.add_zero]
  · simp only [if_neg nothing, ne_eq, not_true_eq_false, if_false]
    rw [← Nat.cast_add, loffT_natCast moved]

theorem Settled.reads_complete (settled : Settled machine entries commands pending lost)
    {file position : Nat} (here : machine.fPos file = (position : Int))
    (small : position < 2 ^ 63) {reads : List ReadCall}
    (complete : ∀ call, call ∈ reads → call.Complete file) :
    ∃ replies after, runCalls Machine.read machine reads = .ok (replies, after) ∧
      Settled after entries commands pending lost ∧
      (∀ reply, reply ∈ replies → reply.ret = (reply.data.length : Int)) ∧
      (replies.map Reply.data).flatten = slices commands position (reads.map ReadCall.count) ∧
      after.fPos file = ((position +
        (slices commands position (reads.map ReadCall.count)).length : Nat) : Int) ∧
      position + (slices commands position (reads.map ReadCall.count)).length < 2 ^ 63 := by
  induction reads generalizing machine position with
  | nil =>
      exact ⟨[], machine, rfl, settled, List.forall_mem_nil _, rfl, here, small⟩
  | cons call reads ih =>
      have first := settled.read_complete here small (complete call List.mem_cons_self)
      have moved := slice_end_lt settled.toLedger small call.count
      obtain ⟨replies, after, ran, kept, counted, gathered, reached, bound⟩ :=
        ih (settled.setFPos file _) (machine.setFPos_at file _) moved
          (fun other member => complete other (List.mem_cons_of_mem call member))
      refine ⟨_, after, runCalls_cons first ran, kept, ?_, ?_, ?_, ?_⟩
      · intro reply member
        rcases List.mem_cons.mp member with same | later
        · rw [same]
        · exact counted reply later
      · rw [List.map_cons, List.flatten_cons, gathered, List.map_cons, slices]
      · rw [List.map_cons, slices, List.length_append, ← Nat.add_assoc]
        exact reached
      · rw [List.map_cons, slices, List.length_append, ← Nat.add_assoc]
        exact bound

/-- From any position the reads give the rest of the stored bytes. -/
theorem Settled.readsGive (settled : Settled machine entries commands pending lost)
    {file position : Nat} (here : machine.fPos file = (position : Int))
    (small : position < 2 ^ 63) :
    machine.ReadsGive file (commands.flatten.drop position) := by
  intro reads complete
  obtain ⟨replies, after, ran, kept, counted, gathered, reached, bound⟩ :=
    settled.reads_complete here small complete
  have front := slices_isPrefix commands position (reads.map ReadCall.count)
  refine ⟨replies, after, ran, counted, ?_, ?_, ?_⟩
  · rw [gathered]
    exact front
  · intro enough
    rw [gathered]
    apply slices_complete
    · intro count member
      obtain ⟨call, present, rfl⟩ := List.mem_map.mp member
      exact (complete call present).2.1
    · rwa [List.length_map]
  · intro call last
    refine ⟨_, _, kept.read_complete reached bound last, ?_⟩
    have lengths := front.length_le
    rw [List.length_drop] at lengths
    rw [gathered, Nat.cast_eq_zero, List.length_eq_zero_iff, slice_eq_nil_iff,
      or_iff_right (Nat.ne_of_gt last.2.1)]
    constructor
    · intro atEnd
      apply front.eq_of_length
      rw [List.length_drop]
      omega
    · intro everything
      have same := congrArg List.length everything
      rw [List.length_drop] at same
      omega

/-! ### The seek -/

theorem unlockedIoctl_seekto (machine : Machine) (file writeCmd writeCmdOffset : Nat) :
    machine.unlockedIoctl file Machine.aesdcharIocseekto ⟨writeCmd, writeCmdOffset⟩ 0 =
      machine.aesdAdjustFileOffset file writeCmd writeCmdOffset := by
  unfold Machine.unlockedIoctl
  rw [if_neg (by decide), if_neg (by decide), if_pos rfl, if_neg (by decide)]

theorem Ledger.seekEntry_eq (ledger : Ledger machine entries commands pending lost)
    {writeCmd : Nat} (stored : writeCmd < commands.length) :
    machine.seekEntry writeCmd = machine.dev.buffer.outOffs + writeCmd := by
  have bounded := ledger.commands_bounded
  have outLt := ledger.ring.outLt
  simp only [aesdcharMaxWriteOperationsSupported] at bounded outLt
  unfold Machine.seekEntry
  rw [Nat.mod_eq_of_lt (by omega)]

/-- A command behind the end of the array makes the ioctl leave the array. -/
theorem Ledger.adjust_beyond (ledger : Ledger machine entries commands pending lost)
    {writeCmd : Nat} (stored : writeCmd < commands.length)
    (beyond : aesdcharMaxWriteOperationsSupported ≤ machine.dev.buffer.outOffs + writeCmd)
    (file writeCmdOffset : Nat) :
    machine.aesdAdjustFileOffset file writeCmd writeCmdOffset =
      .error (.entryIndex (machine.dev.buffer.outOffs + writeCmd)) := by
  have nothing : machine.dev.buffer.entry[machine.dev.buffer.outOffs + writeCmd]? = none :=
    Vector.getElem?_eq_none beyond
  unfold Machine.aesdAdjustFileOffset
  dsimp only
  rw [ledger.count_eq, if_neg (Nat.not_le.mpr stored), ledger.seekEntry_eq stored,
    AesdCircularBuffer.entryAt, nothing]
  rfl

/-- In front of the end the slot is the right one. -/
theorem Ledger.adjust_within (ledger : Ledger machine entries commands pending lost)
    {writeCmd : Nat} {command : List Byte} (stored : commands[writeCmd]? = some command)
    (within : machine.dev.buffer.outOffs + writeCmd < aesdcharMaxWriteOperationsSupported)
    (file writeCmdOffset : Nat) :
    machine.aesdAdjustFileOffset file writeCmd writeCmdOffset =
      .ok (if writeCmdOffset < command.length then
        (0, machine.setFPos file
          ((positionOf (commands.map List.length) writeCmd writeCmdOffset : Nat) : Int))
      else (-einval, machine)) := by
  obtain ⟨inside, _same⟩ := List.getElem?_eq_some_iff.mp stored
  obtain ⟨entry, atEntry, _block, _pointer, _contents, size⟩ := stored_getElem? ledger.stored stored
  have slot : (machine.dev.buffer.outOffs + writeCmd) % aesdcharMaxWriteOperationsSupported =
      machine.dev.buffer.outOffs + writeCmd := Nat.mod_eq_of_lt within
  have entryAt := ledger.ring.entryAt_step
    (Nat.lt_of_le_of_lt (Nat.le_add_left writeCmd machine.dev.buffer.outOffs) within)
  rw [slot, walked_of_getElem? atEntry] at entryAt
  have position := ledger.ring.fpos_eq atEntry writeCmdOffset
  rw [slot, stored_sizes ledger.stored] at position
  unfold Machine.aesdAdjustFileOffset
  dsimp only
  rw [ledger.count_eq, if_neg (Nat.not_le.mpr inside), ledger.seekEntry_eq inside, entryAt,
    ok_bind, size]
  by_cases offsetIn : writeCmdOffset < command.length
  · have before := positionOf_lt_flatten stored offsetIn
    have total := ledger.total_lt
    rw [if_neg (Nat.not_le.mpr offsetIn), position, size, if_pos offsetIn, if_pos offsetIn, ok_bind]
    dsimp only
    rw [sizeT_of_lt (by omega), loffT_natCast (by omega)]
    rfl
  · rw [if_pos (Nat.le_of_not_lt offsetIn), if_neg offsetIn]
    rfl

theorem Settled.seekCorrect_iff (settled : Settled machine entries commands pending lost)
    (file writeCmd writeCmdOffset : Nat) :
    machine.SeekCorrect file writeCmd writeCmdOffset ↔
      machine.dev.buffer.getCount ≤ writeCmd ∨
        machine.dev.buffer.outOffs + writeCmd < aesdcharMaxWriteOperationsSupported := by
  have ledger := settled.toLedger
  have notZero : -einval ≠ 0 := by decide
  unfold Machine.SeekCorrect
  rw [ledger.count_eq, ledger.storedCommands_eq, unlockedIoctl_seekto]
  rcases Nat.lt_or_ge writeCmd commands.length with stored | absent
  · have atIndex := List.getElem?_eq_getElem stored
    rw [or_iff_right (Nat.not_le.mpr stored)]
    rcases Nat.lt_or_ge (machine.dev.buffer.outOffs + writeCmd)
      aesdcharMaxWriteOperationsSupported with within | beyond
    · refine iff_of_true ?_ within
      rw [ledger.adjust_within atIndex within]
      by_cases offsetIn : writeCmdOffset < commands[writeCmd].length
      · have place : commands.getD writeCmd [] = commands[writeCmd] :=
          List.getD_eq_getElem _ _ stored
        have before := positionOf_lt_flatten atIndex offsetIn
        have total := ledger.total_lt
        have rest := flatten_drop_positionOf atIndex (Nat.le_of_lt offsetIn)
        have gives := (settled.setFPos file
          ((positionOf (commands.map List.length) writeCmd writeCmdOffset : Nat) : Int)).readsGive
            (machine.setFPos_at file _) (Nat.lt_trans before total)
        rw [if_pos offsetIn]
        refine ⟨0, _, rfl, Or.inl rfl, iff_of_true rfl ⟨_, atIndex, offsetIn⟩, ?_,
          fun impossible => absurd impossible.symm notZero⟩
        intro _zero
        rw [place, ← rest, List.map_take]
        exact ⟨rfl, gives⟩
      · rw [if_neg offsetIn]
        refine ⟨-einval, machine, rfl, Or.inr rfl, iff_of_false notZero ?_,
          fun impossible => absurd impossible notZero, fun _failed => rfl⟩
        rintro ⟨command, found, bound⟩
        rw [atIndex] at found
        cases found
        exact offsetIn bound
    · refine iff_of_false ?_ (Nat.not_lt.mpr beyond)
      rintro ⟨ret, after, returned, _rest⟩
      rw [ledger.adjust_beyond stored beyond] at returned
      cases returned
  · refine iff_of_true ?_ (Or.inl absent)
    have refused : machine.aesdAdjustFileOffset file writeCmd writeCmdOffset =
        .ok (-einval, machine) := by
      unfold Machine.aesdAdjustFileOffset
      dsimp only
      rw [ledger.count_eq, if_pos absent]
      rfl
    refine ⟨-einval, machine, refused, Or.inr rfl, iff_of_false notZero ?_,
      fun impossible => absurd impossible notZero, fun _failed => rfl⟩
    rintro ⟨command, found, _bound⟩
    rw [List.getElem?_eq_none absent] at found
    cases found

end Seek

namespace Machine

/-- On every device that successful writes can reach, the seek is correct
exactly when the command is not stored or lies in front of the array's end. -/
theorem seekto_correct_iff (fPos : Nat → Int) (writes : List WriteCall)
    (succeed : RunMeets Machine.write WriteSucceeds (initialized fPos) writes) :
    ∃ replies machine, runCalls Machine.write (initialized fPos) writes = .ok (replies, machine) ∧
      machine.storedCommands = recent aesdcharMaxWriteOperationsSupported
        (commandsOf (writes.map (fun call => call.buf.bytes))) ∧
      ∀ file writeCmd writeCmdOffset,
        machine.SeekCorrect file writeCmd writeCmdOffset ↔
          machine.dev.buffer.getCount ≤ writeCmd ∨
            machine.dev.buffer.outOffs + writeCmd < aesdcharMaxWriteOperationsSupported := by
  obtain ⟨machine, ran, ⟨entries, lost, settled⟩, _samePos⟩ :=
    (initialized_remembers fPos).writes succeed
  rw [List.nil_append] at settled
  exact ⟨_, machine, ran, settled.toLedger.storedCommands_eq, settled.seekCorrect_iff⟩

theorem seekto_correct_iff_one_line : ∃ replies machine,
    runCalls Machine.write (initialized fun _ => 0)
        [⟨0, ⟨[97, newline], by decide⟩, ⟨⟨true, fun _ => 0⟩, 0⟩⟩] = .ok (replies, machine) ∧
      ∀ file writeCmd writeCmdOffset,
        machine.SeekCorrect file writeCmd writeCmdOffset ↔
          machine.dev.buffer.getCount ≤ writeCmd ∨
            machine.dev.buffer.outOffs + writeCmd < aesdcharMaxWriteOperationsSupported := by
  obtain ⟨replies, machine, ran, _stored, decided⟩ :=
    seekto_correct_iff (fun _ => 0) [⟨0, ⟨[97, newline], by decide⟩, ⟨⟨true, fun _ => 0⟩, 0⟩⟩]
      ⟨Or.inr ⟨rfl, rfl⟩, fun _ _ _ => True.intro⟩
  exact ⟨replies, machine, ran, decided⟩

/-- After eleven commands the last of the ten stored ones is in slot 0, and the
ioctl looks for it in slot 10. -/
theorem seekto_leaves_array :
    ((runCalls Machine.write (initialized fun _ => 0) (List.replicate 11
        ⟨0, ⟨[97, newline], by decide⟩, ⟨⟨true, fun _ => 0⟩, 0⟩⟩)).map (fun ran =>
      (ran.2.storedCommands[9]?,
        (ran.2.unlockedIoctl 0 aesdcharIocseekto ⟨9, 0⟩ 0).map Prod.fst))) =
    .ok (some [97, newline], .error (.entryIndex 10)) := by
  decide +kernel

end Machine

end Aesd.Driver
