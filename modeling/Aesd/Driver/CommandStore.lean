/-
The device as its users see it.

A command store is the list of all commands that were ever completed, of which
the last ten are visible, the bytes gathered behind them, and the position of
each file.  Slots, blocks and the lock do not occur in it.  Every call of the
driver is a call of the command store, with the same answer, whatever the
kernel makes of the call; where the ioctl leaves the array, the store says so.
-/

import Aesd.Driver.SeekCommand

set_option autoImplicit false

namespace Aesd.Driver

open BlockHeap BoundedLoop CallRun KernelMemory RecentWindow SegmentedBytes AesdCircularBuffer

structure CommandStore where
  completed : List (List Byte)
  pending : List Byte
  fPos : Nat → Int

namespace CommandStore

def empty (fPos : Nat → Int) : CommandStore where
  completed := []
  pending := []
  fPos := fPos

def visible (store : CommandStore) : List (List Byte) :=
  recent aesdcharMaxWriteOperationsSupported store.completed

/-- How many commands had to make room. -/
def dropped (store : CommandStore) : Nat :=
  store.completed.length - aesdcharMaxWriteOperationsSupported

def setFPos (store : CommandStore) (file : Nat) (fPos : Int) : CommandStore :=
  { store with fPos := Function.update store.fPos file fPos }

/-- `granted` tells whether the allocation, if there is one, succeeds. -/
def write (store : CommandStore) (granted : Bool) (call : WriteCall) : Reply × CommandStore :=
  let bytes := call.buf.bytes
  if bytes = [] then (⟨0, []⟩, store)
  else if granted = false then (⟨-enomem, []⟩, { store with pending := [] })
  else if call.outcome.uncopied ≠ 0 then
    (⟨-efault, []⟩,
      { store with pending := store.pending ++ copied bytes call.outcome.uncopied })
  else if bytes.getLast? = some newline then
    (⟨(bytes.length : Int), []⟩,
      { store with completed := store.completed ++ [store.pending ++ bytes], pending := [] })
  else (⟨(bytes.length : Int), []⟩, { store with pending := store.pending ++ bytes })

def read (store : CommandStore) (call : ReadCall) : Reply × CommandStore :=
  let (reply, fPos) := readAt store.visible (store.fPos call.file) call.count call.uncopied
  (reply, store.setFPos call.file fPos)

def llseek (store : CommandStore) (file : Nat) (offset : Int) (whence : Whence) :
    Int × CommandStore :=
  let (ret, fPos) :=
    fixedSizeLlseek (store.fPos file) offset whence store.visible.flatten.length
  (ret, store.setFPos file fPos)

/-- The seek to a byte of a visible command.  The command of number `writeCmd`
is found as long as its slot is counted without going round the ring. -/
def seekto (store : CommandStore) (file writeCmd writeCmdOffset : Nat) :
    Except Fault (Int × CommandStore) :=
  match store.visible[writeCmd]? with
  | none => .ok (-einval, store)
  | some command =>
      let slot := store.dropped % aesdcharMaxWriteOperationsSupported + writeCmd
      if aesdcharMaxWriteOperationsSupported ≤ slot then .error (.entryIndex slot)
      else if writeCmdOffset < command.length then
        .ok (0, store.setFPos file
          (positionOf (store.visible.map List.length) writeCmd writeCmdOffset : Nat))
      else .ok (-einval, store)

def ioctl (store : CommandStore) (file cmd : Nat) (arg : AesdSeekto) (uncopied : Nat) :
    Except Fault (Int × CommandStore) :=
  if cmd = Machine.aesdcharIocseekto then
    if uncopied ≠ 0 then .ok (-efault, store)
    else store.seekto file arg.writeCmd arg.writeCmdOffset
  else .ok (-enotty, store)

def call (store : CommandStore) : Bool × Call → Except Fault (Reply × CommandStore)
  | (granted, .write call) => .ok (store.write granted call)
  | (_, .read call) => .ok (store.read call)
  | (_, .llseek file offset whence) =>
      let (ret, after) := store.llseek file offset whence
      .ok (⟨ret, []⟩, after)
  | (_, .ioctl file cmd arg uncopied) => do
      let (ret, after) ← store.ioctl file cmd arg uncopied
      return (⟨ret, []⟩, after)

def run (store : CommandStore) (requests : List (Bool × Call)) :
    Except Fault (List Reply × CommandStore) :=
  runCalls call store requests

end CommandStore

/-- The machine holds what is visible of the store, rotated by what was dropped. -/
structure Refines (machine : Machine) (store : CommandStore) : Prop where
  settled : ∃ entries lost, Settled machine entries store.visible store.pending lost
  rotated : machine.dev.buffer.outOffs = store.dropped % aesdcharMaxWriteOperationsSupported
  samePos : machine.fPos = store.fPos

/-- A request of the store stands for the same call. -/
def SameCall (call : Call) (request : Bool × Call) : Prop := request.2 = call

theorem initialized_refines (fPos : Nat → Int) :
    Refines (.initialized fPos) (.empty fPos) where
  settled := ⟨[], [], initialized_settled fPos⟩
  rotated := rfl
  samePos := rfl

section Steps

variable {machine : Machine} {store : CommandStore}

theorem Refines.setFPos (refines : Refines machine store) (file : Nat) (fPos : Int) :
    Refines (machine.setFPos file fPos) (store.setFPos file fPos) where
  settled := by
    obtain ⟨entries, lost, settled⟩ := refines.settled
    exact ⟨entries, lost, settled.setFPos file fPos⟩
  rotated := refines.rotated
  samePos := by
    change Function.update machine.fPos file fPos = Function.update store.fPos file fPos
    rw [refines.samePos]

/-! ### Writing -/

theorem reserve_buffer {insertPos count : Nat} {allocation : Allocation} {after : Machine}
    (reserved : machine.reserve count allocation = .ok (insertPos, after)) :
    after.dev.buffer = machine.dev.buffer := by
  unfold Machine.reserve at reserved
  cases pointer : machine.dev.currentEntry.buffptr with
  | none =>
      simp only [pointer] at reserved
      cases reserved
      rfl
  | some block =>
      simp only [pointer] at reserved
      obtain ⟨⟨buffptr, heap⟩, _moved, same⟩ := ok_of_bind reserved
      cases same
      rfl

theorem finishWrite_ret {block insertPos count : Nat} {fPos ret : Int} {place : Int}
    {after : Machine}
    (finished : machine.finishWrite block insertPos count fPos = .ok (ret, place, after)) :
    ret = count := by
  unfold Machine.finishWrite at finished
  obtain ⟨last, _loaded, behind⟩ := ok_of_bind finished
  split at behind
  · obtain ⟨committed, _made, same⟩ := ok_of_bind behind
    cases same
    rfl
  · cases behind
    rfl

/-- A write that fails leaves the ring alone. -/
theorem aesdWrite_failed {buf : UserBuffer} {fPos ret place : Int} {outcome : WriteOutcome}
    {after : Machine} (made : machine.aesdWrite buf fPos outcome = .ok (ret, place, after))
    (failed : ret < 0) : after.dev.buffer = machine.dev.buffer := by
  unfold Machine.aesdWrite at made
  obtain ⟨taken, locked, onward⟩ := ok_of_bind made
  have sameBuffer : taken.dev.buffer = machine.dev.buffer := by
    unfold Machine.mutexLock at locked
    split at locked
    · cases locked
    · cases locked
      rfl
  dsimp only at onward
  split at onward
  · cases onward
    exact absurd failed (lt_irrefl 0)
  obtain ⟨⟨insertPos, reserved⟩, result, onward⟩ := ok_of_bind onward
  have kept := (reserve_buffer result).trans sameBuffer
  dsimp only at onward
  split at onward
  · cases onward
    exact kept
  obtain ⟨⟨uncopied, heap⟩, _copied, onward⟩ := ok_of_bind onward
  dsimp only at onward
  split at onward
  · cases onward
    exact kept
  · have counted := finishWrite_ret onward
    omega

/-- A new entry moves `out_offs` on once all slots are in use. -/
theorem AesdCircularBuffer.Holds.addEntry_outOffs {buffer added : AesdCircularBuffer}
    {entries : List AesdBufferEntry} {entry : AesdBufferEntry} (holds : buffer.Holds entries)
    (result : buffer.addEntry entry = .ok added) :
    added.outOffs =
      if entries.length < aesdcharMaxWriteOperationsSupported then buffer.outOffs
      else (buffer.outOffs + 1) % aesdcharMaxWriteOperationsSupported := by
  have inAt := holds.inAt
  have bounded := holds.bounded
  simp only [aesdcharMaxWriteOperationsSupported] at inAt bounded ⊢
  unfold addEntry setEntry at result
  simp only [if_pos holds.inLt, ok_bind, holds.getCount_eq] at result
  simp only [aesdcharMaxWriteOperationsSupported] at result
  by_cases spare : entries.length < 10
  · rw [if_pos spare] at result ⊢
    split at result <;> cases result <;> rfl
  · rw [if_neg spare] at result ⊢
    cases result
    dsimp only
    omega

theorem CommandStore.visible_length (store : CommandStore) :
    store.visible.length = min aesdcharMaxWriteOperationsSupported store.completed.length :=
  recent_length _ _

/-- The rotation of the ring after one more command. -/
theorem rotated_concat {buffer added : AesdCircularBuffer} {entries : List AesdBufferEntry}
    {entry : AesdBufferEntry} (holds : buffer.Holds entries)
    (result : buffer.addEntry entry = .ok added)
    (rotated : buffer.outOffs = store.dropped % aesdcharMaxWriteOperationsSupported)
    (sameLength : entries.length = store.visible.length) (command : List Byte) :
    added.outOffs = ((store.completed ++ [command]).length -
      aesdcharMaxWriteOperationsSupported) % aesdcharMaxWriteOperationsSupported := by
  have length := store.visible_length
  rw [holds.addEntry_outOffs result, rotated, sameLength, length, List.length_append,
    List.length_singleton]
  unfold CommandStore.dropped
  simp only [aesdcharMaxWriteOperationsSupported]
  split <;> omega

theorem CommandStore.write_data (store : CommandStore) (granted : Bool) (call : WriteCall) :
    (store.write granted call).1.data = [] := by
  unfold CommandStore.write
  dsimp only
  split_ifs <;> rfl

/-- The store writes what aesd_write does, whichever position it is handed. -/
theorem Refines.aesdWrite (refines : Refines machine store) (call : WriteCall) (fPos : Int) :
    ∃ granted after, machine.aesdWrite call.buf fPos call.outcome =
        .ok ((store.write granted call).1.ret, fPos, after) ∧
      after.fPos = machine.fPos ∧ Refines after (store.write granted call).2 := by
  obtain ⟨entries, lost, settled⟩ := refines.settled
  obtain ⟨after, added, leftover, made, kept, effect⟩ :=
    settled.aesdWrite_spec call.buf fPos call.outcome
  refine ⟨machine.allocates call.buf.bytes.length call.outcome.allocation, after, ?_⟩
  have unmoved := aesdWrite_failed made
  have ring := effect.ring
  have samePos := effect.samePos.trans refines.samePos
  have sameLength := stored_length settled.stored
  generalize machine.allocates call.buf.bytes.length call.outcome.allocation = granted
    at made kept ring unmoved ⊢
  unfold CommandStore.write
  unfold Stored.write at made kept unmoved
  by_cases empty : call.buf.bytes = []
  · simp only [if_pos empty] at made kept ⊢
    have same : after.dev.buffer = machine.dev.buffer := by
      rcases ring with ⟨same, _why⟩ | ⟨ended, _added⟩
      · exact same
      · rw [empty] at ended
        cases ended
    exact ⟨made, effect.samePos, ⟨added, leftover, kept⟩, same ▸ refines.rotated, samePos⟩
  simp only [if_neg empty] at made kept unmoved ⊢
  by_cases refused : granted = false
  · simp only [if_pos refused] at made kept unmoved ⊢
    have same := unmoved (by decide)
    exact ⟨made, effect.samePos, ⟨added, leftover, kept⟩, same ▸ refines.rotated, samePos⟩
  simp only [if_neg refused] at made kept unmoved ⊢
  by_cases partly : call.outcome.uncopied ≠ 0
  · simp only [if_pos partly] at made kept unmoved ⊢
    have same := unmoved (by decide)
    exact ⟨made, effect.samePos, ⟨added, leftover, kept⟩, same ▸ refines.rotated, samePos⟩
  simp only [if_neg partly] at made kept ⊢
  by_cases ended : call.buf.bytes.getLast? = some newline
  · simp only [if_pos ended] at made kept ⊢
    rcases ring with ⟨_same, why⟩ | ⟨_ended, entry, result⟩
    · exact absurd (why ended) (fun either => either.elim refused partly)
    · refine ⟨made, effect.samePos, ⟨added, leftover, ?_⟩, ?_, samePos⟩
      · change Settled after added (recent _ (store.completed ++ [store.pending ++ _])) [] leftover
        rw [← recent_concat]
        exact kept
      · exact rotated_concat settled.ring result refines.rotated sameLength _
  · simp only [if_neg ended] at made kept ⊢
    have same : after.dev.buffer = machine.dev.buffer := by
      rcases ring with ⟨same, _why⟩ | ⟨newlineLast, _added⟩
      · exact same
      · exact absurd newlineLast ended
    exact ⟨made, effect.samePos, ⟨added, leftover, kept⟩, same ▸ refines.rotated, samePos⟩

theorem Refines.write (refines : Refines machine store) (call : WriteCall) :
    ∃ granted after, machine.write call = .ok ((store.write granted call).1, after) ∧
      Refines after (store.write granted call).2 := by
  obtain ⟨granted, after, made, samePos, kept⟩ :=
    refines.aesdWrite call (machine.fPos call.file)
  refine ⟨granted, after, ?_, kept⟩
  have unmoved : after.setFPos call.file (machine.fPos call.file) = after := by
    rw [← samePos, Machine.setFPos_fPos_self]
  unfold Machine.write
  rw [made, ok_bind]
  change Except.ok _ = _
  rw [unmoved, ite_self, ← store.write_data granted call]

/-! ### Reading and seeking -/

theorem Refines.read (refines : Refines machine store) (call : ReadCall) :
    ∃ after, machine.read call = .ok ((store.read call).1, after) ∧
      Refines after (store.read call).2 := by
  obtain ⟨entries, lost, settled⟩ := refines.settled
  have made := settled.read_eq call
  rw [refines.samePos] at made
  exact ⟨_, made, refines.setFPos call.file _⟩

theorem Refines.llseek (refines : Refines machine store) (file : Nat) (offset : Int)
    (whence : Whence) :
    ∃ after, machine.llseek file offset whence = .ok ((store.llseek file offset whence).1, after) ∧
      Refines after (store.llseek file offset whence).2 := by
  obtain ⟨entries, lost, settled⟩ := refines.settled
  have made := settled.llseek_eq file offset whence
  rw [refines.samePos] at made
  exact ⟨_, made, refines.setFPos file _⟩

/-- A lookup behind the array's end stops both, at the same slot. -/
theorem Refines.seekto (refines : Refines machine store) (file writeCmd writeCmdOffset : Nat) :
    Alike Refines (machine.aesdAdjustFileOffset file writeCmd writeCmdOffset)
      (store.seekto file writeCmd writeCmdOffset) := by
  obtain ⟨entries, lost, settled⟩ := refines.settled
  have ledger := settled.toLedger
  unfold CommandStore.seekto
  cases found : store.visible[writeCmd]? with
  | none =>
      have absent : store.visible.length ≤ writeCmd := List.getElem?_eq_none_iff.mp found
      have refused : machine.aesdAdjustFileOffset file writeCmd writeCmdOffset =
          .ok (-einval, machine) := by
        unfold Machine.aesdAdjustFileOffset
        dsimp only
        rw [ledger.count_eq, if_pos absent]
        rfl
      rw [refused]
      exact .answered (-einval) refines
  | some command =>
      obtain ⟨stored, _same⟩ := List.getElem?_eq_some_iff.mp found
      have rotated := refines.rotated
      dsimp only
      by_cases beyond : aesdcharMaxWriteOperationsSupported ≤
          store.dropped % aesdcharMaxWriteOperationsSupported + writeCmd
      · rw [if_pos beyond, ledger.adjust_beyond stored (by rw [rotated]; exact beyond), rotated]
        exact .stopped _
      · rw [if_neg beyond, ledger.adjust_within found (by rw [rotated]; exact Nat.not_le.mp beyond)]
        by_cases inside : writeCmdOffset < command.length
        · rw [if_pos inside, if_pos inside]
          exact .answered 0 (refines.setFPos file _)
        · rw [if_neg inside, if_neg inside]
          exact .answered (-einval) refines

theorem Refines.ioctl (refines : Refines machine store) (file cmd : Nat) (arg : AesdSeekto)
    (uncopied : Nat) :
    Alike Refines (machine.unlockedIoctl file cmd arg uncopied)
      (store.ioctl file cmd arg uncopied) := by
  unfold Machine.unlockedIoctl CommandStore.ioctl
  by_cases seekto : cmd = Machine.aesdcharIocseekto
  · subst seekto
    rw [if_neg (by decide), if_neg (by decide), if_pos rfl, if_pos rfl]
    by_cases failed : uncopied ≠ 0
    · rw [if_pos failed, if_pos failed]
      exact .answered (-efault) refines
    · rw [if_neg failed, if_neg failed]
      exact refines.seekto file arg.writeCmd arg.writeCmdOffset
  · -- Whatever test fails first, the answer is the same.
    simp only [if_neg seekto, ite_self]
    exact .answered (-enotty) refines

/-! ### Calls and runs -/

theorem Refines.call (refines : Refines machine store) (call : Call) :
    ∃ request, SameCall call request ∧ Alike Refines (machine.call call) (store.call request) := by
  cases call with
  | write call =>
      obtain ⟨granted, after, made, kept⟩ := refines.write call
      refine ⟨(granted, .write call), rfl, ?_⟩
      rw [Machine.call, made]
      exact .answered _ kept
  | read call =>
      obtain ⟨after, made, kept⟩ := refines.read call
      refine ⟨(true, .read call), rfl, ?_⟩
      rw [Machine.call, made]
      exact .answered _ kept
  | llseek file offset whence =>
      obtain ⟨after, made, kept⟩ := refines.llseek file offset whence
      refine ⟨(true, .llseek file offset whence), rfl, ?_⟩
      rw [Machine.call, made]
      exact .answered _ kept
  | ioctl file cmd arg uncopied =>
      refine ⟨(true, .ioctl file cmd arg uncopied), rfl, ?_⟩
      have alike := refines.ioctl file cmd arg uncopied
      unfold Machine.call CommandStore.call
      dsimp only
      generalize machine.unlockedIoctl file cmd arg uncopied = mine at alike ⊢
      generalize store.ioctl file cmd arg uncopied = theirs at alike ⊢
      cases alike with
      | stopped fault => exact .stopped fault
      | answered ret kept => exact .answered _ kept

theorem Refines.run (refines : Refines machine store) (calls : List Call) :
    ∃ requests, requests.map Prod.snd = calls ∧
      Alike Refines (machine.run calls) (store.run requests) := by
  obtain ⟨requests, same, alike⟩ :=
    runCalls_alike (fun _machine _store call related => Refines.call related call) calls refines
  exact ⟨requests, matching_map same, alike⟩

end Steps

namespace Machine

/-- Whatever is called and whatever the kernel makes of it, the device answers
as a command store and holds what is visible of it. -/
theorem device_is_command_store (fPos : Nat → Int) (calls : List Call) :
    ∃ requests, requests.map Prod.snd = calls ∧
      ((initialized fPos).run calls).map Prod.fst =
        ((CommandStore.empty fPos).run requests).map Prod.fst ∧
      ∀ replies machine, (initialized fPos).run calls = .ok (replies, machine) →
        ∃ store, (CommandStore.empty fPos).run requests = .ok (replies, store) ∧
          machine.storedCommands = store.visible ∧ machine.pendingBytes = store.pending ∧
          machine.fPos = store.fPos ∧
          machine.dev.buffer.outOffs = store.dropped % aesdcharMaxWriteOperationsSupported := by
  obtain ⟨requests, same, alike⟩ := (initialized_refines fPos).run calls
  refine ⟨requests, same, alike.replies_eq, ?_⟩
  intro replies machine ran
  rw [ran] at alike
  obtain ⟨store, matched, refines⟩ := alike.of_ok
  obtain ⟨entries, lost, settled⟩ := refines.settled
  exact ⟨store, matched, settled.toLedger.storedCommands_eq, settled.toLedger.pendingBytes_eq,
    refines.samePos, refines.rotated⟩

end Machine

/-! ### Faults -/

/-- The ioctl asks for a stored command that lies behind the end of the array. -/
def Machine.SeeksBeyond (machine : Machine) (call : Call) (fault : Fault) : Prop :=
  ∃ file arg, call = .ioctl file Machine.aesdcharIocseekto arg 0 ∧
    arg.writeCmd < machine.dev.buffer.getCount ∧
    aesdcharMaxWriteOperationsSupported ≤ machine.dev.buffer.outOffs + arg.writeCmd ∧
    fault = .entryIndex (machine.dev.buffer.outOffs + arg.writeCmd)

/-- Only the lookup can fault, and only the seek command gets there. -/
theorem unlockedIoctl_error {machine : Machine} {file cmd uncopied : Nat} {arg : AesdSeekto}
    {fault : Fault} (stopped : machine.unlockedIoctl file cmd arg uncopied = .error fault) :
    cmd = Machine.aesdcharIocseekto ∧ uncopied = 0 ∧
      machine.aesdAdjustFileOffset file arg.writeCmd arg.writeCmdOffset = .error fault := by
  unfold Machine.unlockedIoctl at stopped
  split at stopped
  · cases stopped
  split at stopped
  · cases stopped
  split at stopped
  · rename_i seekto
    split at stopped
    · cases stopped
    · rename_i copied
      exact ⟨seekto, not_not.mp copied, stopped⟩
  · cases stopped

theorem Ledger.adjust_error {machine : Machine} {entries : List AesdBufferEntry}
    {commands : List (List Byte)} {pending : List Byte} {lost : List Nat}
    (ledger : Ledger machine entries commands pending lost) {file writeCmd writeCmdOffset : Nat}
    {fault : Fault}
    (stopped : machine.aesdAdjustFileOffset file writeCmd writeCmdOffset = .error fault) :
    writeCmd < machine.dev.buffer.getCount ∧
      aesdcharMaxWriteOperationsSupported ≤ machine.dev.buffer.outOffs + writeCmd ∧
      fault = .entryIndex (machine.dev.buffer.outOffs + writeCmd) := by
  rw [ledger.count_eq]
  rcases Nat.lt_or_ge writeCmd commands.length with stored | absent
  · rcases Nat.lt_or_ge (machine.dev.buffer.outOffs + writeCmd)
      aesdcharMaxWriteOperationsSupported with within | beyond
    · rw [ledger.adjust_within (List.getElem?_eq_getElem stored) within] at stopped
      cases stopped
    · rw [ledger.adjust_beyond stored beyond] at stopped
      cases stopped
      exact ⟨stored, beyond, rfl⟩
  · unfold Machine.aesdAdjustFileOffset at stopped
    dsimp only at stopped
    rw [ledger.count_eq, if_pos absent] at stopped
    cases stopped

theorem Machine.Accounted.call_error_iff {machine : Machine} (accounted : machine.Accounted)
    (call : Call) (fault : Fault) :
    machine.call call = .error fault ↔ machine.SeeksBeyond call fault := by
  constructor
  · intro stopped
    by_cases access : call.Access
    · obtain ⟨reply, after, made, _kept⟩ := accounted.access access
      rw [stopped] at made
      cases made
    · obtain ⟨entries, commands, pending, lost, settled⟩ := accounted
      cases call with
      | write call => exact absurd True.intro access
      | read call => exact absurd True.intro access
      | llseek file offset whence => exact absurd True.intro access
      | ioctl file cmd arg uncopied =>
          have refused : machine.unlockedIoctl file cmd arg uncopied = .error fault := by
            cases result : machine.unlockedIoctl file cmd arg uncopied with
            | error other =>
                simp only [Machine.call, result] at stopped
                cases stopped
                rfl
            | ok answer =>
                simp only [Machine.call, result] at stopped
                cases stopped
          obtain ⟨seekto, copied, adjusted⟩ := unlockedIoctl_error refused
          subst seekto copied
          obtain ⟨stored, beyond, same⟩ := settled.toLedger.adjust_error adjusted
          exact ⟨file, arg, rfl, stored, beyond, same⟩
  · rintro ⟨file, arg, rfl, stored, beyond, rfl⟩
    obtain ⟨entries, commands, pending, lost, settled⟩ := accounted
    have ledger := settled.toLedger
    rw [ledger.count_eq] at stored
    have left := ledger.adjust_beyond stored beyond file arg.writeCmdOffset
    rw [← unlockedIoctl_seekto] at left
    simp only [Machine.call]
    rw [left]
    rfl

/-- Of all runs exactly those stop in which an ioctl looks for a stored command
behind the end of the array, and they stop there. -/
theorem Machine.run_error_iff (fPos : Nat → Int) (calls : List Call) (fault : Fault) :
    (initialized fPos).run calls = .error fault ↔
      ∃ before call later replies machine, calls = before ++ call :: later ∧
        (initialized fPos).run before = .ok (replies, machine) ∧
        machine.SeeksBeyond call fault := by
  unfold Machine.run
  rw [runCalls_error_iff]
  constructor
  · rintro ⟨before, call, later, replies, machine, rfl, ran, stopped⟩
    exact ⟨before, call, later, replies, machine, rfl, ran,
      ((Machine.reachable_accounted ran).call_error_iff call fault).mp stopped⟩
  · rintro ⟨before, call, later, replies, machine, rfl, ran, beyond⟩
    exact ⟨before, call, later, replies, machine, rfl, ran,
      ((Machine.reachable_accounted ran).call_error_iff call fault).mpr beyond⟩

end Aesd.Driver
