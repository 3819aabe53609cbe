/-
What a history of writes leaves behind.

The abstract device keeps the last ten commands of the history and the bytes
of the command that is still open.  Writes that succeed refine it, and so does
a write that fails in the one way that leaves no trace: a kmalloc that is
refused.  A refused krealloc drops the pending bytes, and a failed copy leaves
bytes in the pending command that nobody wrote.
-/

import Aesd.Driver.DeviceCalls
import Aesd.EndedGroups

set_option autoImplicit false

namespace Aesd.Driver

open BlockHeap CallRun EndedGroups KernelMemory RecentWindow

/-! ### The commands of a history -/

abbrev Completes (bytes : List Byte) : Prop := bytes.getLast? = some newline

def nonempty (writes : List (List Byte)) : List (List Byte) := writes.filter (· ≠ [])

/-- Each command is the concatenation of a group of writes. -/
def commandsOf (writes : List (List Byte)) : List (List Byte) :=
  (groups Completes [] (nonempty writes)).map List.flatten

def unfinishedOf (writes : List (List Byte)) : List Byte :=
  (remainder Completes [] (nonempty writes)).flatten

/-- The abstract device. -/
def storedAfter (writes : List (List Byte)) : Stored where
  commands := recent aesdcharMaxWriteOperationsSupported (commandsOf writes)
  pending := unfinishedOf writes

theorem commandsOf_unfinishedOf (writes : List (List Byte)) :
    (commandsOf writes).flatten ++ unfinishedOf writes = writes.flatten := by
  have cut := congrArg List.flatten (groups_flatten Completes [] (nonempty writes))
  rw [List.flatten_append, List.nil_append, List.flatten_flatten] at cut
  rw [commandsOf, unfinishedOf, cut, nonempty, List.flatten_filter_ne_nil]

theorem recent_commandsOf_isInfix (writes : List (List Byte)) :
    (recent aesdcharMaxWriteOperationsSupported (commandsOf writes)).flatten <:+:
      writes.flatten := by
  obtain ⟨older, whole⟩ := recent_suffix aesdcharMaxWriteOperationsSupported (commandsOf writes)
  refine ⟨older.flatten, unfinishedOf writes, ?_⟩
  rw [← List.flatten_append, whole, commandsOf_unfinishedOf]

theorem storedAfter_concat_empty (writes : List (List Byte)) :
    storedAfter (writes ++ [[]]) = storedAfter writes := by
  have same : nonempty (writes ++ [[]]) = nonempty writes := by
    rw [nonempty, List.filter_append]
    exact List.append_nil _
  rw [storedAfter, storedAfter, commandsOf, commandsOf, unfinishedOf, unfinishedOf, same]

/-- A successful write does to the abstract device what it does to the history. -/
theorem write_storedAfter (writes : List (List Byte)) (bytes : List Byte) :
    Stored.write (storedAfter writes) true bytes 0 =
      ((bytes.length : Int), storedAfter (writes ++ [bytes])) := by
  by_cases empty : bytes = []
  · subst empty
    rw [storedAfter_concat_empty]
    rfl
  · have split : nonempty (writes ++ [bytes]) = nonempty writes ++ [bytes] := by
      rw [nonempty, List.filter_append, nonempty]
      congr 1
      exact List.filter_cons_of_pos (decide_eq_true empty)
    rw [Stored.write, if_neg empty, if_neg (by decide), if_neg (by decide)]
    by_cases ended : bytes.getLast? = some newline
    · have closed : (commandsOf (writes ++ [bytes])) =
          commandsOf writes ++ [unfinishedOf writes ++ bytes] := by
        rw [commandsOf, split, groups_append, List.map_append, commandsOf, unfinishedOf, groups,
          if_pos ended, groups_nil, List.map_cons, List.map_nil, List.flatten_append,
          List.flatten_singleton]
      have nothing : unfinishedOf (writes ++ [bytes]) = [] := by
        rw [unfinishedOf, split, remainder_append, remainder, if_pos ended]
        rfl
      rw [if_pos ended, storedAfter, storedAfter, closed, nothing, recent_concat]
    · have same : commandsOf (writes ++ [bytes]) = commandsOf writes := by
        rw [commandsOf, split, groups_append, groups, if_neg ended, groups_nil, List.append_nil,
          commandsOf]
      have longer : unfinishedOf (writes ++ [bytes]) = unfinishedOf writes ++ bytes := by
        rw [unfinishedOf, split, remainder_append, remainder, if_neg ended, remainder_nil,
          List.flatten_append, List.flatten_singleton, unfinishedOf]
      rw [if_neg ended, storedAfter, storedAfter, same, longer]

theorem Stored.write_traceless_iff (stored : Stored) (allocated : Bool) (bytes : List Byte)
    (uncopied : Nat) :
    ((stored.write allocated bytes uncopied).1 = -enomem ∨
        (stored.write allocated bytes uncopied).1 = -efault →
      (stored.write allocated bytes uncopied).2 = stored) ↔
    (bytes = [] ∨ (allocated = true ∧ uncopied = 0)) ∨
      (allocated = false ∧ stored.pending = []) := by
  obtain ⟨commands, pending⟩ := stored
  by_cases empty : bytes = []
  · rw [Stored.write, if_pos empty]
    exact iff_of_true (fun _failed => rfl) (Or.inl (Or.inl empty))
  have positive := List.length_pos_iff.mpr empty
  cases allocated with
  | false =>
      rw [Stored.write, if_neg empty, if_pos rfl]
      constructor
      · intro traceless
        have same := congrArg Stored.pending (traceless (Or.inl rfl))
        exact Or.inr ⟨rfl, same.symm⟩
      · rintro ((impossible | ⟨impossible, _complete⟩) | ⟨_refused, nothing⟩) _failed
        · exact absurd impossible empty
        · cases impossible
        · exact congrArg (Stored.mk commands) nothing.symm
  | true =>
      by_cases complete : uncopied = 0
      · refine iff_of_true ?_ (Or.inl (Or.inr ⟨rfl, complete⟩))
        have counted : (Stored.write ⟨commands, pending⟩ true bytes uncopied).1 =
            (bytes.length : Int) := by
          rw [Stored.write, if_neg empty, if_neg (by decide), if_neg (by rw [complete]; decide)]
          split <;> rfl
        rw [counted]
        unfold enomem efault
        intro failed
        omega
      · rw [Stored.write, if_neg empty, if_neg (by decide), if_pos complete]
        refine iff_of_false ?_ ?_
        · intro traceless
          have same := congrArg Stored.pending (traceless (Or.inr rfl))
          have nothing := congrArg List.length (List.append_right_eq_self.mp same)
          rw [copied_length, List.length_nil] at nothing
          omega
        · rintro ((nothing | ⟨_allocated, zero⟩) | ⟨impossible, _nothing⟩)
          · exact empty nothing
          · exact complete zero
          · cases impossible

/-! ### Writes that succeed -/

namespace Machine

/-- Every kernel service the write needs succeeds. -/
def WriteSucceeds (machine : Machine) (call : WriteCall) : Prop :=
  call.buf.bytes = [] ∨
    (machine.allocates call.buf.bytes.length call.outcome.allocation = true ∧
      call.outcome.uncopied = 0)

/-- The write is one that leaves the logical state alone if it fails. -/
def TracelessWrite (machine : Machine) (call : WriteCall) : Prop :=
  machine.WriteSucceeds call ∨
    (machine.allocates call.buf.bytes.length call.outcome.allocation = false ∧
      machine.dev.currentEntry.buffptr = none)

/-- Reads, seeks by llseek and traceless writes. -/
def LeavesNoTrace (machine : Machine) : Call → Prop
  | .write call => machine.TracelessWrite call
  | .read _ => True
  | .llseek .. => True
  | .ioctl .. => False

/-- The logical state is the one that a history of successful writes leaves. -/
def Remembers (machine : Machine) (writes : List (List Byte)) : Prop :=
  ∃ entries lost, Settled machine entries (storedAfter writes).commands
    (storedAfter writes).pending lost

theorem initialized_remembers (fPos : Nat → Int) : (initialized fPos).Remembers [] :=
  ⟨[], [], initialized_settled fPos⟩

theorem Remembers.write {machine : Machine} {writes : List (List Byte)}
    (remembers : machine.Remembers writes) {call : WriteCall}
    (succeeds : machine.WriteSucceeds call) :
    ∃ after, machine.write call = .ok (⟨(call.buf.bytes.length : Int), []⟩, after) ∧
      after.Remembers (writes ++ [call.buf.bytes]) ∧ after.fPos = machine.fPos := by
  obtain ⟨entries, lost, settled⟩ := remembers
  obtain ⟨after, added, leftover, made, kept, effect⟩ := settled.write_spec call
  have written : Stored.write (storedAfter writes)
      (machine.allocates call.buf.bytes.length call.outcome.allocation) call.buf.bytes
      call.outcome.uncopied =
        ((call.buf.bytes.length : Int), storedAfter (writes ++ [call.buf.bytes])) := by
    rcases succeeds with empty | ⟨allocates, complete⟩
    · rw [empty, storedAfter_concat_empty]
      rfl
    · rw [allocates, complete]
      exact write_storedAfter writes call.buf.bytes
  change machine.write call = .ok (⟨(Stored.write (storedAfter writes) _ _ _).1, []⟩, after) at made
  change Settled after added (Stored.write (storedAfter writes) _ _ _).2.commands
    (Stored.write (storedAfter writes) _ _ _).2.pending leftover at kept
  rw [written] at made kept
  exact ⟨after, made, ⟨added, leftover, kept⟩, effect.samePos⟩

theorem Remembers.logical_eq {machine : Machine} {writes : List (List Byte)}
    (remembers : machine.Remembers writes) : machine.logical = storedAfter writes := by
  obtain ⟨entries, lost, settled⟩ := remembers
  exact settled.toLedger.logical_eq

/-- Successful writes, one after another. -/
theorem Remembers.writes {machine : Machine} {earlier : List (List Byte)}
    (remembers : machine.Remembers earlier) {writes : List WriteCall}
    (succeed : RunMeets Machine.write WriteSucceeds machine writes) :
    ∃ after, runCalls Machine.write machine writes =
        .ok (writes.map (fun call => ⟨(call.buf.bytes.length : Int), []⟩), after) ∧
      after.Remembers (earlier ++ writes.map (fun call => call.buf.bytes)) ∧
      after.fPos = machine.fPos := by
  induction writes generalizing machine earlier with
  | nil => exact ⟨machine, rfl, by rwa [List.map_nil, List.append_nil], rfl⟩
  | cons call writes ih =>
      obtain ⟨here, later⟩ := succeed
      obtain ⟨middle, made, kept, samePos⟩ := remembers.write here
      obtain ⟨after, ran, reached, stillSame⟩ := ih kept (later _ middle made)
      refine ⟨after, runCalls_cons made ran, ?_, stillSame.trans samePos⟩
      rw [List.map_cons, ← List.singleton_append, ← List.append_assoc]
      exact reached

/-- Successful writes from aesd_init_module on keep the last ten commands. -/
theorem writes_keep_recent_commands (fPos : Nat → Int) (writes : List WriteCall)
    (succeed : RunMeets Machine.write WriteSucceeds (initialized fPos) writes) :
    ∃ replies after,
      runCalls Machine.write (initialized fPos) writes = .ok (replies, after) ∧
      after.dev.buffer.getCount = min aesdcharMaxWriteOperationsSupported
        (commandsOf (writes.map (fun call => call.buf.bytes))).length ∧
      after.storedCommands = recent aesdcharMaxWriteOperationsSupported
        (commandsOf (writes.map (fun call => call.buf.bytes))) ∧
      after.pendingBytes = unfinishedOf (writes.map (fun call => call.buf.bytes)) ∧
      (after.dev.currentEntry.buffptr = none ↔
        unfinishedOf (writes.map (fun call => call.buf.bytes)) = []) ∧
      replies = writes.map (fun call => ⟨(call.buf.bytes.length : Int), []⟩) ∧
      after.fPos = fPos := by
  obtain ⟨after, ran, ⟨entries, lost, settled⟩, samePos⟩ :=
    (initialized_remembers fPos).writes succeed
  rw [List.nil_append] at settled
  refine ⟨_, after, ran, ?_, settled.toLedger.storedCommands_eq,
    settled.toLedger.pendingBytes_eq, settled.toLedger.buffptr_none_iff, rfl, samePos⟩
  rw [settled.toLedger.count_eq]
  exact recent_length _ _

/-- One write of two bytes that completes a command. -/
theorem writes_keep_recent_commands_one_line : ∃ replies after,
    runCalls Machine.write (initialized fun _ => 0)
        [⟨0, ⟨[97, newline], by decide⟩, ⟨⟨true, fun _ => 0⟩, 0⟩⟩] = .ok (replies, after) ∧
      after.storedCommands = [[97, newline]] := by
  obtain ⟨replies, after, ran, _count, stored, _rest⟩ :=
    writes_keep_recent_commands (fun _ => 0)
      [⟨0, ⟨[97, newline], by decide⟩, ⟨⟨true, fun _ => 0⟩, 0⟩⟩]
      ⟨Or.inr ⟨rfl, rfl⟩, fun _ _ _ => True.intro⟩
  exact ⟨replies, after, ran, stored⟩

/-! ### Writes that fail -/

/-- Whether a failed write leaves the logical state alone is decided before it. -/
theorem write_failure_iff {machine : Machine} {entries : List AesdBufferEntry}
    {commands : List (List Byte)} {pending : List Byte} {lost : List Nat}
    (settled : Settled machine entries commands pending lost) (call : WriteCall) :
    ∃ reply after, machine.write call = .ok (reply, after) ∧
      ((reply.ret = -enomem ∨ reply.ret = -efault → after.logical = machine.logical) ↔
        machine.TracelessWrite call) := by
  obtain ⟨after, added, leftover, made, kept, _effect⟩ := settled.write_spec call
  refine ⟨_, after, made, ?_⟩
  rw [kept.toLedger.logical_eq, settled.toLedger.logical_eq]
  unfold TracelessWrite WriteSucceeds
  rw [settled.toLedger.buffptr_none_iff]
  exact Stored.write_traceless_iff ⟨commands, pending⟩ _ _ _

/-- What a call adds to the history: the bytes of a write that returned its count. -/
def acknowledged : Call × Reply → List (List Byte)
  | (.write call, reply) =>
      if reply.ret = (call.buf.bytes.length : Int) then [call.buf.bytes] else []
  | _ => []

theorem Remembers.refused_write {machine : Machine} {writes : List (List Byte)}
    (remembers : machine.Remembers writes) {call : WriteCall}
    (refused : machine.allocates call.buf.bytes.length call.outcome.allocation = false)
    (null : machine.dev.currentEntry.buffptr = none) (something : call.buf.bytes ≠ []) :
    ∃ after, machine.write call = .ok (⟨-enomem, []⟩, after) ∧ after.Remembers writes := by
  obtain ⟨entries, lost, settled⟩ := remembers
  obtain ⟨after, added, leftover, made, kept, _effect⟩ := settled.write_spec call
  have nothingOpen : (storedAfter writes).pending = [] := settled.toLedger.buffptr_none_iff.mp null
  rw [Stored.write, if_neg something, if_pos refused] at made kept
  refine ⟨after, made, added, leftover, ?_⟩
  rw [nothingOpen]
  exact kept

theorem Remembers.call {machine : Machine} {writes : List (List Byte)}
    (remembers : machine.Remembers writes) {call : Call} (traceless : machine.LeavesNoTrace call) :
    ∃ reply after, machine.call call = .ok (reply, after) ∧
      after.Remembers (writes ++ acknowledged (call, reply)) ∧ reply.data <:+: writes.flatten := by
  cases call with
  | write call =>
      by_cases succeeds : machine.WriteSucceeds call
      · obtain ⟨after, made, kept, _samePos⟩ := remembers.write succeeds
        refine ⟨_, after, made, ?_, List.nil_infix⟩
        rw [acknowledged, if_pos rfl]
        exact kept
      · obtain ⟨refused, null⟩ := traceless.resolve_left succeeds
        have something : call.buf.bytes ≠ [] := fun empty => succeeds (Or.inl empty)
        obtain ⟨after, made, kept⟩ := remembers.refused_write refused null something
        have notCount : ¬(-enomem = (call.buf.bytes.length : Int)) := by
          unfold enomem
          omega
        refine ⟨_, after, made, ?_, List.nil_infix⟩
        rw [acknowledged, if_neg notCount, List.append_nil]
        exact kept
  | read call =>
      obtain ⟨entries, lost, settled⟩ := remembers
      refine ⟨_, _, settled.read_eq call, ?_, ?_⟩
      · change Remembers _ (writes ++ [])
        rw [List.append_nil]
        exact ⟨entries, lost, settled.setFPos call.file _⟩
      · exact (readAt_data_isInfix _ _ _ _).trans (recent_commandsOf_isInfix writes)
  | llseek file offset whence =>
      obtain ⟨entries, lost, settled⟩ := remembers
      obtain ⟨ret, fPos, made⟩ := settled.call_llseek file offset whence
      refine ⟨_, _, made, ?_, List.nil_infix⟩
      change Remembers _ (writes ++ [])
      rw [List.append_nil]
      exact ⟨entries, lost, settled.setFPos file fPos⟩
  | ioctl file cmd arg uncopied => exact False.elim traceless

theorem Remembers.run {machine : Machine} {writes : List (List Byte)}
    (remembers : machine.Remembers writes) {calls : List Call}
    (traceless : RunMeets Machine.call LeavesNoTrace machine calls) :
    ∃ replies after, machine.run calls = .ok (replies, after) ∧
      after.Remembers (writes ++ (calls.zip replies).flatMap acknowledged) ∧
      ∀ reply, reply ∈ replies →
        reply.data <:+: (writes ++ (calls.zip replies).flatMap acknowledged).flatten := by
  induction calls generalizing machine writes with
  | nil =>
      refine ⟨[], machine, rfl, ?_, fun reply impossible => by cases impossible⟩
      rw [List.zip_nil_left, List.flatMap_nil, List.append_nil]
      exact remembers
  | cons call calls ih =>
      obtain ⟨here, later⟩ := traceless
      obtain ⟨reply, middle, made, kept, supplied⟩ := remembers.call here
      obtain ⟨replies, after, ran, reached, allSupplied⟩ := ih kept (later reply middle made)
      have history : writes ++ ((call :: calls).zip (reply :: replies)).flatMap acknowledged =
          (writes ++ acknowledged (call, reply)) ++ (calls.zip replies).flatMap acknowledged := by
        rw [List.zip_cons_cons, List.flatMap_cons, List.append_assoc]
      refine ⟨reply :: replies, after, runCalls_cons made ran, ?_, ?_⟩
      · rw [history]
        exact reached
      · rw [history]
        intro other member
        rcases List.mem_cons.mp member with same | behind
        · rw [same, List.append_assoc, List.flatten_append]
          exact supplied.trans (List.prefix_append _ _).isInfix
        · exact allSupplied other behind

/-- A failed write leaves no trace exactly when it is a refused kmalloc; in a
run whose failures are all of this kind the device holds what the acknowledged
writes gave it, and reads hand out nothing else. -/
theorem failed_writes_leave_no_trace (fPos : Nat → Int) (writes : List WriteCall)
    (call : WriteCall) (calls : List Call)
    (traceless : RunMeets Machine.call LeavesNoTrace (initialized fPos) calls) :
    (∃ replies machine reply after,
      runCalls Machine.write (initialized fPos) writes = .ok (replies, machine) ∧
      machine.write call = .ok (reply, after) ∧
      ((reply.ret = -enomem ∨ reply.ret = -efault → after.logical = machine.logical) ↔
        machine.TracelessWrite call)) ∧
    ∃ replies after, (initialized fPos).run calls = .ok (replies, after) ∧
      after.logical = storedAfter ((calls.zip replies).flatMap acknowledged) ∧
      ∀ reply, reply ∈ replies →
        reply.data <:+: ((calls.zip replies).flatMap acknowledged).flatten := by
  constructor
  · obtain ⟨replies, machine, ran, entries, commands, pending, lost, settled⟩ :=
      runCalls_invariant (fun _machine call accounted _any => accounted.write call)
        (initialized_accounted fPos)
        (runMeets_of_forall (fun _machine _call (_member : _ ∈ writes) => True.intro) _)
    obtain ⟨reply, after, made, decided⟩ := write_failure_iff settled call
    exact ⟨replies, machine, reply, after, ran, made, decided⟩
  · obtain ⟨replies, after, ran, remembers, supplied⟩ :=
      (initialized_remembers fPos).run traceless
    exact ⟨replies, after, ran, remembers.logical_eq, supplied⟩

/-- The first write of a run is refused its kmalloc. -/
theorem failed_writes_leave_no_trace_refused_kmalloc : ∃ replies after,
    (initialized fun _ => 0).run [.write ⟨0, ⟨[97], by decide⟩, ⟨⟨false, fun _ => 0⟩, 0⟩⟩] =
        .ok (replies, after) ∧
      after.logical = storedAfter (([Call.write ⟨0, ⟨[97], by decide⟩,
        ⟨⟨false, fun _ => 0⟩, 0⟩⟩].zip replies).flatMap acknowledged) := by
  obtain ⟨_each, replies, after, ran, remembered, _supplied⟩ :=
    failed_writes_leave_no_trace (fun _ => 0) [] ⟨0, ⟨[97], by decide⟩, ⟨⟨false, fun _ => 0⟩, 0⟩⟩
      [.write ⟨0, ⟨[97], by decide⟩, ⟨⟨false, fun _ => 0⟩, 0⟩⟩]
      ⟨Or.inr ⟨rfl, rfl⟩, fun _ _ _ => True.intro⟩
  exact ⟨replies, after, ran, remembered⟩

/-- After a write that returned 1, a refused krealloc returns -ENOMEM and drops
the byte; and a half failed copy gives a read bytes that nobody wrote. -/
theorem failed_writes_leave_traces :
    (∃ machine after,
      (initialized fun _ => 0).write ⟨0, ⟨[97], by decide⟩, ⟨⟨true, fun _ => 0⟩, 0⟩⟩ =
        .ok (⟨1, []⟩, machine) ∧
      machine.write ⟨0, ⟨[98], by decide⟩, ⟨⟨false, fun _ => 0⟩, 0⟩⟩ =
        .ok (⟨-enomem, []⟩, after) ∧
      machine.logical = ⟨[], [97]⟩ ∧ after.logical = ⟨[], []⟩) ∧
    ((initialized fun _ => 0).run
        [.write ⟨0, ⟨[97, 98], by decide⟩, ⟨⟨true, fun _ => 0⟩, 1⟩⟩,
          .write ⟨0, ⟨[newline], by decide⟩, ⟨⟨true, fun _ => 0⟩, 0⟩⟩,
          .read ⟨0, 10, 0⟩]).map Prod.fst =
        .ok [⟨-efault, []⟩, ⟨1, []⟩, ⟨3, [97, 0, newline]⟩] := by
  refine ⟨⟨_, _, rfl, rfl, rfl, rfl⟩, ?_⟩
  decide +kernel

end Machine

end Aesd.Driver
