/-
Seeks that run beside writes.

A write holds the device's lock and is one step.  The ioctl and llseek take no
lock: each check, each round of a walk around the ring and the assignment of
the position is a step of its own, and writes may come in between.  A seek
agrees with one made at a single moment as long as no write recycles a slot
the walk has still to pass, and no command goes behind the walk when a later
one goes ahead of it.
-/

import Aesd.Driver.SeekCommand

set_option autoImplicit false

namespace Aesd.Driver

open BlockHeap BoundedLoop CallRun KernelMemory RecentWindow SegmentedBytes AesdCircularBuffer

inductive SeekRequest where
  | seekto (writeCmd writeCmdOffset : Nat)
  | seekEnd (offset : Int)
  deriving DecidableEq, Repr

/-- Where a seek stands, with the local variables that are still needed. -/
inductive SeekPhase where
  | checkCount (writeCmd writeCmdOffset : Nat)
  | lookUp (writeCmd writeCmdOffset : Nat)
  | enterWalk (entry entryOffset : Nat)
  | walk (entry entryOffset posBytes index : Nat)
  | assign (newPos : Nat)
  | enterSum (offset : Int)
  | sum (offset : Int) (size index : Nat)
  | setEnd (offset : Int) (fullSize : Nat)
  | returned (ret : Int)
  deriving DecidableEq, Repr

/-- `missed` records that a command went into a slot the running sum had passed.
No step looks at it. -/
structure Window where
  machine : Machine
  phase : SeekPhase
  missed : Bool

inductive WindowEvent where
  | write (call : WriteCall)
  | seek

namespace Machine

/-- One round of the loop of aesd_circular_buffer_fpos_for_entry. -/
def walkRound (machine : Machine) (entry entryOffset posBytes index : Nat) :
    Except Fault SeekPhase := do
  match ← ringRound aesdcharMaxWriteOperationsSupported machine.dev.buffer.outOffs
      (machine.dev.buffer.fposVisit entry entryOffset) (fun _ => none) (posBytes, index) with
  | .next (posBytes, index) => return .walk entry entryOffset posBytes index
  | .leave none => return .returned (-einval)
  | .leave (some newPos) => return .assign newPos

/-- One round of the loop of aesd_circular_buffer_get_size. -/
def sumRound (machine : Machine) (offset : Int) (size index : Nat) : Except Fault SeekPhase := do
  match ← ringRound aesdcharMaxWriteOperationsSupported machine.dev.buffer.outOffs
      machine.dev.buffer.sizeVisit id (size, index) with
  | .next (size, index) => return .sum offset size index
  | .leave fullSize => return .setEnd offset fullSize

/-- The next step of a seek on `file`. -/
def advance (machine : Machine) (file : Nat) : SeekPhase → Except Fault (Machine × SeekPhase)
  | .checkCount writeCmd writeCmdOffset =>
      if writeCmd ≥ machine.dev.buffer.getCount then .ok (machine, .returned (-einval))
      else .ok (machine, .lookUp writeCmd writeCmdOffset)
  | .lookUp writeCmd writeCmdOffset => do
      let entry ← machine.dev.buffer.entryAt (machine.seekEntry writeCmd)
      if writeCmdOffset ≥ entry.size then return (machine, .returned (-einval))
      else return (machine, .enterWalk (machine.seekEntry writeCmd) writeCmdOffset)
  | .enterWalk entry entryOffset => do
      return (machine, ← machine.walkRound entry entryOffset 0 machine.dev.buffer.outOffs)
  | .walk entry entryOffset posBytes index => do
      return (machine, ← machine.walkRound entry entryOffset posBytes index)
  | .assign newPos => .ok (machine.setFPos file (loffT newPos), .returned 0)
  | .enterSum offset => do
      return (machine, ← machine.sumRound offset 0 machine.dev.buffer.outOffs)
  | .sum offset size index => do
      return (machine, ← machine.sumRound offset size index)
  | .setEnd offset fullSize =>
      let (ret, fPos) := fixedSizeLlseek (machine.fPos file) offset .seekEnd (loffT fullSize)
      .ok (machine.setFPos file fPos, .returned ret)
  | .returned ret => .ok (machine, .returned ret)

end Machine

/-- The whole seek at one moment: its return value and the position it leaves. -/
def SeekRequest.alone (request : SeekRequest) (machine : Machine) (file : Nat) :
    Except Fault (Int × Int) := do
  match request with
  | .seekto writeCmd writeCmdOffset =>
      let (ret, after) ← machine.unlockedIoctl file Machine.aesdcharIocseekto
        ⟨writeCmd, writeCmdOffset⟩ 0
      return (ret, after.fPos file)
  | .seekEnd offset =>
      let (ret, after) ← machine.llseek file offset .seekEnd
      return (ret, after.fPos file)

namespace Window

def start (machine : Machine) : SeekRequest → Window
  | .seekto writeCmd writeCmdOffset => ⟨machine, .checkCount writeCmd writeCmdOffset, false⟩
  | .seekEnd offset => ⟨machine, .enterSum offset, false⟩

/-- The slot that a completed command would take lies behind the running sum. -/
def behindSum (window : Window) : Bool :=
  match window.phase with
  | .sum _ _ index => decide (window.machine.dev.buffer.inOffs < index)
  | _ => false

def step (file : Nat) (window : Window) : WindowEvent → Except Fault (Unit × Window)
  | .write call => do
      let (_, machine) ← window.machine.write call
      let completes := decide (Completes call.buf.bytes)
      return ((), ⟨machine, window.phase, window.missed || (completes && window.behindSum)⟩)
  | .seek => do
      let (machine, phase) ← window.machine.advance file window.phase
      return ((), ⟨machine, phase, window.missed⟩)

/-- A command may be completed now without harm to the seek. -/
def Spares (window : Window) : Prop :=
  let buffer := window.machine.dev.buffer
  let room := buffer.getCount < aesdcharMaxWriteOperationsSupported
  match window.phase with
  | .enterWalk _ _ => room
  | .walk _ _ _ index => room ∨ buffer.inOffs < index
  | .sum _ _ index => room ∧ (window.missed = true → buffer.inOffs < index)
  | _ => True

def Undisturbed (window : Window) : WindowEvent → Prop
  | .write call =>
      window.machine.WriteSucceeds call ∧ (Completes call.buf.bytes → window.Spares)
  | .seek => True

def writesOf (events : List WindowEvent) : List WriteCall :=
  events.filterMap (fun event => match event with
    | .write call => some call
    | .seek => none)

end Window

/-- The seek made at one moment between the writes gives this result. -/
def Linearized (first : Machine) (file : Nat) (request : SeekRequest) (writes : List WriteCall)
    (result : Int × Int) : Prop :=
  ∃ earlier replies machine, earlier <+: writes ∧
    runCalls Machine.write first earlier = .ok (replies, machine) ∧
    request.alone machine file = .ok result

def Reached (first : Machine) (writes : List WriteCall) (machine : Machine) : Prop :=
  ∃ replies, runCalls Machine.write first writes = .ok (replies, machine)

section Moments

variable {first machine after : Machine} {file : Nat} {request : SeekRequest}
  {writes : List WriteCall} {result : Int × Int}

theorem Linearized.later (found : Linearized first file request writes result)
    (call : WriteCall) : Linearized first file request (writes ++ [call]) result := by
  obtain ⟨earlier, replies, machine, before, ran, alone⟩ := found
  exact ⟨earlier, replies, machine, before.trans (List.prefix_append _ _), ran, alone⟩

theorem Reached.write (reached : Reached first writes machine) {call : WriteCall} {reply : Reply}
    (made : machine.write call = .ok (reply, after)) : Reached first (writes ++ [call]) after := by
  obtain ⟨replies, ran⟩ := reached
  exact ⟨_, runCalls_append ran (runCalls_cons made (runCalls_nil after))⟩

theorem Reached.linearized (reached : Reached first writes machine)
    (alone : request.alone machine file = .ok result) :
    Linearized first file request writes result := by
  obtain ⟨replies, ran⟩ := reached
  exact ⟨writes, replies, machine, List.prefix_refl _, ran, alone⟩

/-- What a successful write does to the ring. -/
theorem Machine.Accounted.write_ring (accounted : machine.Accounted) {call : WriteCall}
    (succeeds : machine.WriteSucceeds call) :
    ∃ reply after, machine.write call = .ok (reply, after) ∧ after.Accounted ∧
      after.fPos = machine.fPos ∧
      ((¬Completes call.buf.bytes ∧ after.dev.buffer = machine.dev.buffer) ∨
        (Completes call.buf.bytes ∧
          ∃ entry, machine.dev.buffer.addEntry entry = .ok after.dev.buffer)) := by
  obtain ⟨entries, commands, pending, lost, settled⟩ := accounted
  obtain ⟨after, added, leftover, made, kept, effect⟩ := settled.write_spec call
  refine ⟨_, after, made, ⟨added, _, _, leftover, kept⟩, effect.samePos, ?_⟩
  rcases effect.ring with ⟨same, failed⟩ | ⟨completes, entry, result⟩
  · refine Or.inl ⟨?_, same⟩
    intro completes
    rcases succeeds with empty | ⟨allocates, complete⟩
    · rw [Completes, empty] at completes
      cases completes
    · rcases failed completes with refused | faulted
      · rw [allocates] at refused
        cases refused
      · exact faulted complete
  · exact Or.inr ⟨completes, entry, result⟩

end Moments

/-! ### Slots by their sizes -/

/-- The size in a slot of the array. -/
def slotSize (buffer : AesdCircularBuffer) (slot : Nat) : Nat :=
  match buffer.entry[slot]? with
  | some entry => entry.size
  | none => 0

/-- What the first steps of a walk from `out_offs` on add up to. -/
def ringSum (buffer : AesdCircularBuffer) (steps : Nat) : Nat :=
  ((List.range' 0 steps).map (fun step =>
    slotSize buffer ((buffer.outOffs + step) % aesdcharMaxWriteOperationsSupported))).sum

section Slots

variable {buffer added : AesdCircularBuffer} {entries : List AesdBufferEntry}

theorem entryAt_slotSize (buffer : AesdCircularBuffer) {slot : Nat}
    (inside : slot < aesdcharMaxWriteOperationsSupported) :
    ∃ entry, buffer.entryAt slot = .ok entry ∧ entry.size = slotSize buffer slot := by
  have present : buffer.entry[slot]? = some buffer.entry[slot] := Vector.getElem?_eq_getElem inside
  refine ⟨buffer.entry[slot], ?_, ?_⟩
  · unfold AesdCircularBuffer.entryAt
    rw [present]
  · unfold slotSize
    rw [present]

theorem AesdCircularBuffer.Holds.slotSize_step (holds : buffer.Holds entries) {step : Nat}
    (inside : step < aesdcharMaxWriteOperationsSupported) :
    slotSize buffer ((buffer.outOffs + step) % aesdcharMaxWriteOperationsSupported) =
      (walked entries step).size := by
  unfold slotSize
  rw [holds.slots step inside]

theorem AesdCircularBuffer.Holds.ringSum_eq (holds : buffer.Holds entries) {steps : Nat}
    (inside : steps ≤ aesdcharMaxWriteOperationsSupported) :
    ringSum buffer steps = ((sizes entries ++ List.replicate
      (aesdcharMaxWriteOperationsSupported - entries.length) 0).take steps).sum := by
  rw [← walked_sizes holds.bounded, ← List.map_take, List.take_range'_of_length_ge inside,
    ringSum]
  congr 1
  apply List.map_congr_left
  intro step member
  have bound := (List.mem_range'_1.mp member).2
  exact holds.slotSize_step (by omega)

theorem ringSum_succ (buffer : AesdCircularBuffer) (steps : Nat) :
    ringSum buffer (steps + 1) = ringSum buffer steps +
      slotSize buffer ((buffer.outOffs + steps) % aesdcharMaxWriteOperationsSupported) := by
  unfold ringSum
  rw [List.range'_concat, List.map_append, List.sum_append]
  simp only [Nat.zero_add, Nat.one_mul, List.map_cons, List.map_nil, List.sum_cons, List.sum_nil,
    Nat.add_zero]

/-- Behind the last entry nothing is added. -/
theorem AesdCircularBuffer.Holds.ringSum_all (holds : buffer.Holds entries) {steps : Nat}
    (all : entries.length ≤ steps) (inside : steps ≤ aesdcharMaxWriteOperationsSupported) :
    ringSum buffer steps = (sizes entries).sum := by
  have length : (sizes entries).length = entries.length := List.length_map _
  rw [holds.ringSum_eq inside, List.take_append, List.take_of_length_le (by omega),
    List.take_replicate, List.sum_append, List.sum_replicate, nsmul_zero, Nat.add_zero]

theorem slotSize_addEntry {entry : AesdBufferEntry} (result : buffer.addEntry entry = .ok added)
    {slot : Nat} (other : slot ≠ buffer.inOffs) : slotSize added slot = slotSize buffer slot := by
  unfold slotSize
  rw [(addEntry_frame result).1 slot other]

/-- A ring that is not full begins at slot 0 and ends at `in_offs`. -/
theorem AesdCircularBuffer.Holds.straight (holds : buffer.Holds entries)
    (room : entries.length < aesdcharMaxWriteOperationsSupported) :
    buffer.outOffs = 0 ∧ buffer.inOffs = entries.length := by
  have atZero := holds.unrotated room
  refine ⟨atZero, ?_⟩
  rw [holds.inAt, atZero, Nat.zero_add, Nat.mod_eq_of_lt room]

theorem AesdCircularBuffer.Holds.straight_slot (holds : buffer.Holds entries)
    (room : entries.length < aesdcharMaxWriteOperationsSupported) {step : Nat}
    (inside : step < aesdcharMaxWriteOperationsSupported) :
    (buffer.outOffs + step) % aesdcharMaxWriteOperationsSupported = step := by
  rw [(holds.straight room).1, Nat.zero_add, Nat.mod_eq_of_lt inside]

theorem AesdCircularBuffer.Holds.getCount_addEntry (holds : buffer.Holds entries)
    {entry : AesdBufferEntry} (result : buffer.addEntry entry = .ok added) :
    added.getCount = min aesdcharMaxWriteOperationsSupported (entries.length + 1) := by
  obtain ⟨other, sameResult, content⟩ := holds.addEntry_recent entry
  rw [result] at sameResult
  cases sameResult
  rw [content.getCount_eq, recent_length, List.length_append, List.length_singleton]

/-- A new entry that the walk has not come to does not change its sum. -/
theorem AesdCircularBuffer.Holds.ringSum_addEntry (holds : buffer.Holds entries)
    (room : entries.length < aesdcharMaxWriteOperationsSupported) {entry : AesdBufferEntry}
    (result : buffer.addEntry entry = .ok added) (outKept : added.outOffs = buffer.outOffs)
    {steps : Nat} (before : steps ≤ buffer.inOffs) : ringSum added steps = ringSum buffer steps := by
  unfold ringSum
  rw [outKept]
  congr 1
  apply List.map_congr_left
  intro step member
  have below := (List.mem_range'_1.mp member).2
  have atEnd := (holds.straight room).2
  apply slotSize_addEntry result
  rw [holds.straight_slot room (by omega)]
  omega

end Slots

/-! ### The walk to an entry -/

/-- From `index` on the walk meets `entry` with the sum that leads to `target`. -/
structure WalkAhead (buffer : AesdCircularBuffer) (entry entryOffset posBytes index target : Nat) :
    Prop where
  behind : index ≤ entry
  inside : entry < aesdcharMaxWriteOperationsSupported
  started : buffer.outOffs ≤ index
  live : buffer.getCount < aesdcharMaxWriteOperationsSupported → entry < buffer.inOffs
  bound : entryOffset < slotSize buffer entry
  reaches : posBytes + ((List.range' index (entry - index)).map (slotSize buffer)).sum +
    entryOffset = target
  small : target < 2 ^ 63

section Walk

variable {buffer added : AesdCircularBuffer} {entries : List AesdBufferEntry}
  {entry entryOffset posBytes index target : Nat}

/-- A command that goes into a slot in front of the walk or behind its target
does not disturb it. -/
theorem WalkAhead.addEntry (ahead : WalkAhead buffer entry entryOffset posBytes index target)
    (holds : buffer.Holds entries) {command : AesdBufferEntry}
    (result : buffer.addEntry command = .ok added)
    (spares : buffer.getCount < aesdcharMaxWriteOperationsSupported ∨ buffer.inOffs < index) :
    WalkAhead added entry entryOffset posBytes index target ∧
      (buffer.getCount < aesdcharMaxWriteOperationsSupported →
        added.outOffs = buffer.outOffs) := by
  have behind := ahead.behind
  have inside := ahead.inside
  have started := ahead.started
  obtain ⟨_others, outAfter⟩ := addEntry_frame result
  have outKept : buffer.getCount < aesdcharMaxWriteOperationsSupported →
      added.outOffs = buffer.outOffs := fun room => by rw [outAfter, if_pos room]
  have apart : ∀ slot, index ≤ slot → slot ≤ entry → slot ≠ buffer.inOffs := by
    intro slot above below same
    rcases spares with room | passed
    · have beyond := ahead.live room
      omega
    · omega
  have sameSize : ∀ slot, index ≤ slot → slot ≤ entry → slotSize added slot = slotSize buffer slot :=
    fun slot above below => slotSize_addEntry result (apart slot above below)
  have startedAfter : added.outOffs ≤ index := by
    by_cases room : buffer.getCount < aesdcharMaxWriteOperationsSupported
    · rw [outKept room]
      exact started
    · have passed := spares.resolve_left room
      rw [outAfter, if_neg room, Nat.mod_eq_of_lt (by omega)]
      omega
  have liveAfter : added.getCount < aesdcharMaxWriteOperationsSupported →
      entry < added.inOffs := by
    obtain ⟨other, sameResult, content⟩ := holds.addEntry_recent command
    rw [result] at sameResult
    cases sameResult
    intro roomAfter
    rw [content.getCount_eq] at roomAfter
    obtain ⟨_zero, inAfter⟩ := content.straight roomAfter
    rw [inAfter]
    rw [recent_length, List.length_append, List.length_singleton] at roomAfter ⊢
    have room : entries.length < aesdcharMaxWriteOperationsSupported := by omega
    have beyond := ahead.live (holds.getCount_eq ▸ room)
    rw [(holds.straight room).2] at beyond
    omega
  refine ⟨⟨behind, inside, startedAfter, liveAfter, ?_, ?_, ahead.small⟩, outKept⟩
  · rw [sameSize entry behind (Nat.le_refl _)]
    exact ahead.bound
  · rw [← ahead.reaches]
    congr 3
    apply List.map_congr_left
    intro slot member
    have bounds := List.mem_range'_1.mp member
    exact sameSize slot bounds.1 (by omega)

/-- One round of the walk finds the entry or comes one slot closer. -/
theorem WalkAhead.round {machine : Machine}
    (ahead : WalkAhead machine.dev.buffer entry entryOffset posBytes index target) :
    machine.walkRound entry entryOffset posBytes index = .ok (.assign target) ∨
      ∃ gathered, machine.walkRound entry entryOffset posBytes index =
          .ok (.walk entry entryOffset gathered (index + 1)) ∧
        WalkAhead machine.dev.buffer entry entryOffset gathered (index + 1) target := by
  have behind := ahead.behind
  have inside := ahead.inside
  have started := ahead.started
  have reaches := ahead.reaches
  have small := ahead.small
  by_cases found : index = entry
  · left
    obtain ⟨visited, entryAt, size⟩ := entryAt_slotSize machine.dev.buffer inside
    have bound : ¬entryOffset ≥ visited.size := by
      rw [size]
      exact Nat.not_le.mpr ahead.bound
    rw [found, Nat.sub_self] at reaches
    have sum : posBytes + entryOffset = target := reaches
    unfold Machine.walkRound
    simp only [ringRound, fposVisit, if_pos found, entryAt, ok_bind, if_neg bound, sum]
    rw [sizeT_of_lt (by omega)]
    rfl
  · right
    have indexIn : index < aesdcharMaxWriteOperationsSupported := by omega
    obtain ⟨visited, entryAt, size⟩ := entryAt_slotSize machine.dev.buffer indexIn
    have split : entry - index = (entry - (index + 1)) + 1 := by omega
    rw [split, List.range'_succ, List.map_cons, List.sum_cons, ← size] at reaches
    have onward : (index + 1) % aesdcharMaxWriteOperationsSupported = index + 1 :=
      Nat.mod_eq_of_lt (by omega)
    have goesOn : index + 1 ≠ machine.dev.buffer.outOffs := by omega
    refine ⟨posBytes + visited.size, ?_, ?_⟩
    · unfold Machine.walkRound
      simp only [ringRound, fposVisit, if_neg found, entryAt, ok_bind, onward]
      rw [sizeT_of_lt (by omega)]
      simp only [pure, Except.pure, if_pos goesOn]
      rfl
    · exact ⟨by omega, inside, by omega, ahead.live, ahead.bound, by omega, small⟩

end Walk

/-! ### The running sum -/

theorem sumRound_eq {machine : Machine} {size steps : Nat} (offset : Int)
    (outLt : machine.dev.buffer.outOffs < aesdcharMaxWriteOperationsSupported)
    (inside : steps < aesdcharMaxWriteOperationsSupported)
    (small : size + slotSize machine.dev.buffer ((machine.dev.buffer.outOffs + steps) %
      aesdcharMaxWriteOperationsSupported) < 2 ^ 64) :
    machine.sumRound offset size
        ((machine.dev.buffer.outOffs + steps) % aesdcharMaxWriteOperationsSupported) =
      .ok (if steps + 1 = aesdcharMaxWriteOperationsSupported then
          .setEnd offset (size + slotSize machine.dev.buffer
            ((machine.dev.buffer.outOffs + steps) % aesdcharMaxWriteOperationsSupported))
        else .sum offset (size + slotSize machine.dev.buffer
            ((machine.dev.buffer.outOffs + steps) % aesdcharMaxWriteOperationsSupported))
          ((machine.dev.buffer.outOffs + (steps + 1)) % aesdcharMaxWriteOperationsSupported)) := by
  have slotLt : (machine.dev.buffer.outOffs + steps) % aesdcharMaxWriteOperationsSupported <
      aesdcharMaxWriteOperationsSupported := Nat.mod_lt _ (by decide)
  obtain ⟨visited, entryAt, sameSize⟩ := entryAt_slotSize machine.dev.buffer slotLt
  have back := ring_index_back outLt inside
  unfold Machine.sumRound
  simp only [ringRound, sizeVisit, entryAt, ok_bind, sameSize, sizeT_of_lt small, pure,
    Except.pure]
  rw [ring_index_succ]
  by_cases last : steps + 1 = aesdcharMaxWriteOperationsSupported
  · rw [if_pos last, if_neg (not_not_intro (back.mpr last))]
    rfl
  · rw [if_neg last, if_pos (fun same => last (back.mp same))]
    rfl

section Alone

variable {machine : Machine} {entries : List AesdBufferEntry} {commands : List (List Byte)}
  {pending : List Byte} {lost : List Nat}

theorem Settled.alone_seekEnd (settled : Settled machine entries commands pending lost)
    (file : Nat) (offset : Int) :
    (SeekRequest.seekEnd offset).alone machine file =
      .ok (fixedSizeLlseek (machine.fPos file) offset .seekEnd commands.flatten.length) := by
  unfold SeekRequest.alone
  dsimp only
  rw [settled.llseek_eq, ok_bind]
  dsimp only
  rw [Machine.setFPos_at]
  rfl

theorem Ledger.total_eq (ledger : Ledger machine entries commands pending lost) :
    (sizes entries).sum = commands.flatten.length := by
  rw [stored_sizes ledger.stored, List.length_flatten]

theorem Ledger.ringSum_le (ledger : Ledger machine entries commands pending lost) {steps : Nat}
    (inside : steps ≤ aesdcharMaxWriteOperationsSupported) :
    ringSum machine.dev.buffer steps ≤ commands.flatten.length := by
  have whole := ledger.ring.ringSum_all ledger.ring.bounded (Nat.le_refl _)
  rw [ledger.total_eq] at whole
  rw [← whole, ledger.ring.ringSum_eq inside, ledger.ring.ringSum_eq (Nat.le_refl _)]
  exact (List.take_sublist_take_left inside).sum_le_sum (fun _size _member => Nat.zero_le _)

theorem Ledger.sumRound (ledger : Ledger machine entries commands pending lost) {steps : Nat}
    (inside : steps < aesdcharMaxWriteOperationsSupported) (offset : Int) :
    machine.sumRound offset (ringSum machine.dev.buffer steps)
        ((machine.dev.buffer.outOffs + steps) % aesdcharMaxWriteOperationsSupported) =
      .ok (if steps + 1 = aesdcharMaxWriteOperationsSupported then
          .setEnd offset (ringSum machine.dev.buffer (steps + 1))
        else .sum offset (ringSum machine.dev.buffer (steps + 1))
          ((machine.dev.buffer.outOffs + (steps + 1)) % aesdcharMaxWriteOperationsSupported)) := by
  have total := ledger.total_lt
  have next := ledger.ringSum_le (Nat.succ_le_of_lt inside)
  have split := ringSum_succ machine.dev.buffer steps
  rw [Nat.succ_eq_add_one] at next
  rw [split] at next ⊢
  exact sumRound_eq offset ledger.ring.outLt inside (by omega)

theorem alone_seekto (machine : Machine) (file writeCmd writeCmdOffset : Nat) :
    (SeekRequest.seekto writeCmd writeCmdOffset).alone machine file =
      (machine.aesdAdjustFileOffset file writeCmd writeCmdOffset).map
        (fun answer => (answer.1, answer.2.fPos file)) := by
  unfold SeekRequest.alone
  dsimp only
  rw [unlockedIoctl_seekto]
  cases machine.aesdAdjustFileOffset file writeCmd writeCmdOffset with
  | error fault => rfl
  | ok answer => rfl

/-- A look-up in front of the array's end finds the start of the walk to the
position that the seek has at this moment. -/
theorem Ledger.lookUp_found (ledger : Ledger machine entries commands pending lost)
    {writeCmd writeCmdOffset : Nat} (stored : writeCmd < commands.length)
    (within : machine.dev.buffer.outOffs + writeCmd < aesdcharMaxWriteOperationsSupported)
    (bound : writeCmdOffset < commands[writeCmd].length) :
    WalkAhead machine.dev.buffer (machine.dev.buffer.outOffs + writeCmd) writeCmdOffset 0
      machine.dev.buffer.outOffs
      (positionOf (commands.map List.length) writeCmd writeCmdOffset) := by
  have atIndex := List.getElem?_eq_getElem stored
  obtain ⟨entry, atEntry, _block, _pointer, _contents, size⟩ := stored_getElem? ledger.stored atIndex
  have slot : (machine.dev.buffer.outOffs + writeCmd) % aesdcharMaxWriteOperationsSupported =
      machine.dev.buffer.outOffs + writeCmd := Nat.mod_eq_of_lt within
  have stepIn : writeCmd < aesdcharMaxWriteOperationsSupported :=
    Nat.lt_of_le_of_lt (Nat.le_add_left _ _) within
  have bounded := ledger.ring.bounded
  have entriesLength := stored_length ledger.stored
  have before := positionOf_lt_flatten atIndex bound
  have total := ledger.total_lt
  refine ⟨Nat.le_add_right _ _, within, Nat.le_refl _, ?_, ?_, ?_, Nat.lt_trans before total⟩
  · intro room
    rw [ledger.ring.getCount_eq] at room
    obtain ⟨atZero, atEnd⟩ := ledger.ring.straight room
    omega
  · rw [← slot, ledger.ring.slotSize_step stepIn, walked_of_getElem? atEntry, size]
    exact bound
  · have slots : (List.range' machine.dev.buffer.outOffs writeCmd).map
        (slotSize machine.dev.buffer) = (sizes entries).take writeCmd := by
      rw [← walked_sizes_take bounded (by omega), List.range'_eq_map_range, List.map_map,
        List.range_eq_range']
      apply List.map_congr_left
      intro step member
      have below := (List.mem_range'_1.mp member).2
      have straight : (machine.dev.buffer.outOffs + step) % aesdcharMaxWriteOperationsSupported =
          machine.dev.buffer.outOffs + step := Nat.mod_eq_of_lt (by omega)
      change slotSize machine.dev.buffer (machine.dev.buffer.outOffs + step) = _
      rw [← straight]
      exact ledger.ring.slotSize_step (by omega)
    rw [Nat.add_sub_cancel_left, slots, stored_sizes ledger.stored, Nat.zero_add]
    rfl

end Alone

/-! ### The whole window -/

/-- What is known of a seek in each phase, after the given writes. -/
inductive Following (first : Machine) (file : Nat) (request : SeekRequest)
    (writes : List WriteCall) : Window → Prop where
  | checkCount {machine : Machine} {writeCmd writeCmdOffset : Nat}
      (asked : request = .seekto writeCmd writeCmdOffset)
      (reached : Reached first writes machine) :
      Following first file request writes ⟨machine, .checkCount writeCmd writeCmdOffset, false⟩
  | lookUp {machine : Machine} {writeCmd writeCmdOffset : Nat}
      (asked : request = .seekto writeCmd writeCmdOffset)
      (reached : Reached first writes machine)
      (counted : writeCmd < machine.dev.buffer.getCount) :
      Following first file request writes ⟨machine, .lookUp writeCmd writeCmdOffset, false⟩
  | enterWalk {machine : Machine} {entry entryOffset target : Nat}
      (found : Linearized first file request writes (0, (target : Int)))
      (ahead : WalkAhead machine.dev.buffer entry entryOffset 0 machine.dev.buffer.outOffs
        target) :
      Following first file request writes ⟨machine, .enterWalk entry entryOffset, false⟩
  | walk {machine : Machine} {entry entryOffset posBytes index target : Nat}
      (found : Linearized first file request writes (0, (target : Int)))
      (ahead : WalkAhead machine.dev.buffer entry entryOffset posBytes index target) :
      Following first file request writes ⟨machine, .walk entry entryOffset posBytes index, false⟩
  | assign {machine : Machine} {target : Nat}
      (found : Linearized first file request writes (0, (target : Int)))
      (small : target < 2 ^ 63) :
      Following first file request writes ⟨machine, .assign target, false⟩
  | enterSum {machine : Machine} {offset : Int} (asked : request = .seekEnd offset)
      (reached : Reached first writes machine) :
      Following first file request writes ⟨machine, .enterSum offset, false⟩
  | sumCurrent {machine : Machine} {offset : Int} {steps : Nat}
      (asked : request = .seekEnd offset) (reached : Reached first writes machine)
      (inside : steps < aesdcharMaxWriteOperationsSupported) :
      Following first file request writes ⟨machine, .sum offset
        (ringSum machine.dev.buffer steps)
        ((machine.dev.buffer.outOffs + steps) % aesdcharMaxWriteOperationsSupported), false⟩
  | sumPast {machine : Machine} {offset : Int} {size steps : Nat}
      (found : Linearized first file request writes
        (fixedSizeLlseek (machine.fPos file) offset .seekEnd size))
      (small : size < 2 ^ 63) (inside : steps < aesdcharMaxWriteOperationsSupported)
      (rest : machine.dev.buffer.getCount ≤ steps) :
      Following first file request writes ⟨machine, .sum offset size
        ((machine.dev.buffer.outOffs + steps) % aesdcharMaxWriteOperationsSupported), true⟩
  | setEnd {machine : Machine} {offset : Int} {size : Nat} {missed : Bool}
      (found : Linearized first file request writes
        (fixedSizeLlseek (machine.fPos file) offset .seekEnd size))
      (small : size < 2 ^ 63) :
      Following first file request writes ⟨machine, .setEnd offset size, missed⟩
  | returned {machine : Machine} {ret : Int} {missed : Bool}
      (found : Linearized first file request writes (ret, machine.fPos file)) :
      Following first file request writes ⟨machine, .returned ret, missed⟩

section Window

variable {first : Machine} {file : Nat} {request : SeekRequest} {writes : List WriteCall}
  {window : Window}

/-- A round of a sum that has missed nothing. -/
private theorem Following.current {machine : Machine} {entries : List AesdBufferEntry}
    {commands : List (List Byte)} {pending : List Byte} {lost : List Nat}
    (settled : Settled machine entries commands pending lost) (file : Nat) {offset : Int}
    (asked : request = .seekEnd offset) (reached : Reached first writes machine) {steps : Nat}
    (inside : steps < aesdcharMaxWriteOperationsSupported) :
    ∃ phase, machine.sumRound offset (ringSum machine.dev.buffer steps)
        ((machine.dev.buffer.outOffs + steps) % aesdcharMaxWriteOperationsSupported) = .ok phase ∧
      Following first file request writes ⟨machine, phase, false⟩ := by
  have ledger := settled.toLedger
  refine ⟨_, ledger.sumRound inside offset, ?_⟩
  by_cases last : steps + 1 = aesdcharMaxWriteOperationsSupported
  · have whole : ringSum machine.dev.buffer (steps + 1) = commands.flatten.length := by
      rw [last, ledger.ring.ringSum_all ledger.ring.bounded (Nat.le_refl _), ledger.total_eq]
    rw [if_pos last, whole]
    refine .setEnd (reached.linearized ?_) ledger.total_lt
    rw [asked]
    exact settled.alone_seekEnd file offset
  · rw [if_neg last]
    exact .sumCurrent asked reached (by omega)

/-- A round of a sum behind which a command has gone in. -/
private theorem Following.past {machine : Machine} {entries : List AesdBufferEntry}
    {commands : List (List Byte)} {pending : List Byte} {lost : List Nat}
    (ledger : Ledger machine entries commands pending lost) {offset : Int} {size steps : Nat}
    (found : Linearized first file request writes
      (fixedSizeLlseek (machine.fPos file) offset .seekEnd size))
    (small : size < 2 ^ 63) (inside : steps < aesdcharMaxWriteOperationsSupported)
    (rest : machine.dev.buffer.getCount ≤ steps) :
    ∃ phase, machine.sumRound offset size
        ((machine.dev.buffer.outOffs + steps) % aesdcharMaxWriteOperationsSupported) = .ok phase ∧
      Following first file request writes ⟨machine, phase, true⟩ := by
  have nothing : slotSize machine.dev.buffer ((machine.dev.buffer.outOffs + steps) %
      aesdcharMaxWriteOperationsSupported) = 0 := by
    rw [ledger.ring.slotSize_step inside, walked_beyond (ledger.ring.getCount_eq ▸ rest)]
    rfl
  have sumSmall : size + slotSize machine.dev.buffer ((machine.dev.buffer.outOffs + steps) %
      aesdcharMaxWriteOperationsSupported) < 2 ^ 64 := by
    rw [nothing]
    omega
  have round := sumRound_eq offset ledger.ring.outLt inside sumSmall
  rw [nothing, Nat.add_zero] at round
  refine ⟨_, round, ?_⟩
  by_cases last : steps + 1 = aesdcharMaxWriteOperationsSupported
  · rw [if_pos last]
    exact .setEnd found small
  · rw [if_neg last]
    exact .sumPast found small (by omega) (Nat.le_succ_of_le rest)

/-- A round of the walk. -/
private theorem Following.closer {machine : Machine} {entry entryOffset posBytes index target : Nat}
    (found : Linearized first file request writes (0, (target : Int)))
    (ahead : WalkAhead machine.dev.buffer entry entryOffset posBytes index target) :
    ∃ phase, machine.walkRound entry entryOffset posBytes index = .ok phase ∧
      Following first file request writes ⟨machine, phase, false⟩ := by
  rcases ahead.round with arrived | ⟨gathered, onward, closer⟩
  · exact ⟨_, arrived, .assign found ahead.small⟩
  · exact ⟨_, onward, .walk found closer⟩

/-- The look-up in the array, which is the moment of the seek. -/
private theorem Following.lookedUp {machine : Machine} {entries : List AesdBufferEntry}
    {commands : List (List Byte)} {pending : List Byte} {lost : List Nat}
    (ledger : Ledger machine entries commands pending lost) (file : Nat)
    {writeCmd writeCmdOffset : Nat} (asked : request = .seekto writeCmd writeCmdOffset)
    (reached : Reached first writes machine)
    (counted : writeCmd < machine.dev.buffer.getCount) :
    (∃ fault, machine.advance file (.lookUp writeCmd writeCmdOffset) = .error fault) ∨
      ∃ phase, machine.advance file (.lookUp writeCmd writeCmdOffset) = .ok (machine, phase) ∧
        Following first file request writes ⟨machine, phase, false⟩ := by
  have stored : writeCmd < commands.length := ledger.count_eq ▸ counted
  have atIndex := List.getElem?_eq_getElem stored
  rcases Nat.lt_or_ge (machine.dev.buffer.outOffs + writeCmd)
    aesdcharMaxWriteOperationsSupported with within | beyond
  · right
    have adjusted := ledger.adjust_within atIndex within file writeCmdOffset
    obtain ⟨entry, _block, entryAt, _pointer, _contents, size⟩ := ledger.entry_of_command atIndex
    rw [Nat.mod_eq_of_lt within] at entryAt
    simp only [Machine.advance, ledger.seekEntry_eq stored, entryAt, ok_bind, size]
    by_cases bound : writeCmdOffset < commands[writeCmd].length
    · rw [if_neg (Nat.not_le.mpr bound)]
      rw [if_pos bound] at adjusted
      have alone : request.alone machine file = .ok (0,
          ((positionOf (commands.map List.length) writeCmd writeCmdOffset : Nat) : Int)) := by
        rw [asked, alone_seekto, adjusted]
        exact congrArg (fun position => Except.ok (0, position)) (machine.setFPos_at file _)
      exact ⟨_, rfl, .enterWalk (reached.linearized alone) (ledger.lookUp_found stored within bound)⟩
    · rw [if_pos (Nat.le_of_not_lt bound)]
      rw [if_neg bound] at adjusted
      refine ⟨_, rfl, .returned (reached.linearized ?_)⟩
      rw [asked, alone_seekto, adjusted]
      rfl
  · left
    have nothing : machine.dev.buffer.entry[machine.dev.buffer.outOffs + writeCmd]? = none :=
      Vector.getElem?_eq_none beyond
    simp only [Machine.advance, ledger.seekEntry_eq stored, AesdCircularBuffer.entryAt, nothing,
      error_bind]
    exact ⟨_, rfl⟩

/-- A step of the seek. -/
theorem Following.seek (following : Following first file request writes window)
    (accounted : window.machine.Accounted) {after : Window}
    (made : window.step file .seek = .ok ((), after)) :
    Following first file request writes after ∧ after.machine.Accounted := by
  obtain ⟨entries, commands, pending, lost, settled⟩ := id accounted
  have ledger := settled.toLedger
  cases following with
  | @checkCount machine writeCmd writeCmdOffset asked reached =>
      by_cases absent : writeCmd ≥ machine.dev.buffer.getCount
      · simp only [Window.step, Machine.advance, if_pos absent, ok_bind] at made
        cases made
        refine ⟨.returned (reached.linearized ?_), accounted⟩
        rw [asked, alone_seekto, Machine.aesdAdjustFileOffset]
        dsimp only
        rw [if_pos absent]
        rfl
      · simp only [Window.step, Machine.advance, if_neg absent, ok_bind] at made
        cases made
        exact ⟨.lookUp asked reached (Nat.lt_of_not_le absent), accounted⟩
  | lookUp asked reached counted =>
      rcases Following.lookedUp ledger file asked reached counted with
        ⟨fault, left⟩ | ⟨phase, looked, onward⟩
      · simp only [Window.step, left, error_bind] at made
        cases made
      · simp only [Window.step, looked, ok_bind] at made
        cases made
        exact ⟨onward, accounted⟩
  | enterWalk found ahead =>
      obtain ⟨phase, round, onward⟩ := Following.closer found ahead
      simp only [Window.step, Machine.advance, round, ok_bind] at made
      cases made
      exact ⟨onward, accounted⟩
  | walk found ahead =>
      obtain ⟨phase, round, onward⟩ := Following.closer found ahead
      simp only [Window.step, Machine.advance, round, ok_bind] at made
      cases made
      exact ⟨onward, accounted⟩
  | @assign machine target found small =>
      simp only [Window.step, Machine.advance, ok_bind] at made
      cases made
      refine ⟨.returned ?_, entries, commands, pending, lost, settled.setFPos file _⟩
      rw [loffT_natCast small, machine.setFPos_at file]
      exact found
  | @enterSum machine offset asked reached =>
      have zero : (machine.dev.buffer.outOffs + 0) % aesdcharMaxWriteOperationsSupported =
          machine.dev.buffer.outOffs := by
        rw [Nat.add_zero, Nat.mod_eq_of_lt ledger.ring.outLt]
      obtain ⟨phase, round, onward⟩ :=
        Following.current settled file asked reached
          (show 0 < aesdcharMaxWriteOperationsSupported by decide)
      rw [zero] at round
      change machine.sumRound offset 0 machine.dev.buffer.outOffs = .ok phase at round
      simp only [Window.step, Machine.advance, round, ok_bind] at made
      cases made
      exact ⟨onward, accounted⟩
  | sumCurrent asked reached inside =>
      obtain ⟨phase, round, onward⟩ := Following.current settled file asked reached inside
      simp only [Window.step, Machine.advance, round, ok_bind] at made
      cases made
      exact ⟨onward, accounted⟩
  | sumPast found small inside rest =>
      obtain ⟨phase, round, onward⟩ := Following.past ledger found small inside rest
      simp only [Window.step, Machine.advance, round, ok_bind] at made
      cases made
      exact ⟨onward, accounted⟩
  | @setEnd machine offset size missed found small =>
      simp only [Window.step, Machine.advance, ok_bind, loffT_natCast small] at made
      cases made
      refine ⟨.returned ?_, entries, commands, pending, lost, settled.setFPos file _⟩
      rw [machine.setFPos_at file]
      exact found
  | returned found =>
      simp only [Window.step, Machine.advance, ok_bind] at made
      cases made
      exact ⟨.returned found, accounted⟩

/-- A write that completes no command leaves the ring alone. -/
private theorem Following.quiet (following : Following first file request writes window)
    {call : WriteCall} {reply : Reply} {after : Machine}
    (written : window.machine.write call = .ok (reply, after))
    (samePos : after.fPos = window.machine.fPos)
    (sameRing : after.dev.buffer = window.machine.dev.buffer) :
    Following first file request (writes ++ [call]) ⟨after, window.phase, window.missed⟩ := by
  cases following with
  | checkCount asked reached => exact .checkCount asked (reached.write written)
  | lookUp asked reached counted =>
      refine .lookUp asked (reached.write written) ?_
      rw [sameRing]
      exact counted
  | enterWalk found ahead =>
      refine .enterWalk (found.later call) ?_
      rw [sameRing]
      exact ahead
  | walk found ahead =>
      refine .walk (found.later call) ?_
      rw [sameRing]
      exact ahead
  | assign found small => exact .assign (found.later call) small
  | enterSum asked reached => exact .enterSum asked (reached.write written)
  | sumCurrent asked reached inside =>
      change Following _ _ _ _ ⟨after, .sum _ (ringSum _ _) _, false⟩
      rw [← sameRing]
      exact .sumCurrent asked (reached.write written) inside
  | sumPast found small inside rest =>
      rw [← samePos] at found
      change Following _ _ _ _ ⟨after, .sum _ _ _, true⟩
      rw [← sameRing] at rest ⊢
      exact .sumPast (found.later call) small inside rest
  | setEnd found small =>
      rw [← samePos] at found
      exact .setEnd (found.later call) small
  | returned found =>
      rw [← samePos] at found
      exact .returned (found.later call)

/-- A command that goes in ahead of the running sum is counted; with one that goes
in behind it the sum stays at the moment before the write. -/
private theorem Following.commitCurrent {machine after : Machine} {entries : List AesdBufferEntry}
    {commands : List (List Byte)} {pending : List Byte} {lost : List Nat}
    (settled : Settled machine entries commands pending lost) {offset : Int} {steps : Nat}
    (asked : request = .seekEnd offset) (reached : Reached first writes machine)
    (inside : steps < aesdcharMaxWriteOperationsSupported) {call : WriteCall} {reply : Reply}
    (written : machine.write call = .ok (reply, after)) (samePos : after.fPos = machine.fPos)
    {command : AesdBufferEntry} (result : machine.dev.buffer.addEntry command = .ok after.dev.buffer)
    (room : entries.length < aesdcharMaxWriteOperationsSupported) :
    Following first file request (writes ++ [call]) ⟨after, .sum offset
      (ringSum machine.dev.buffer steps)
      ((machine.dev.buffer.outOffs + steps) % aesdcharMaxWriteOperationsSupported),
      decide (machine.dev.buffer.inOffs <
        (machine.dev.buffer.outOffs + steps) % aesdcharMaxWriteOperationsSupported)⟩ := by
  have holds := settled.ring
  have atEnd := (holds.straight room).2
  have countAfter := holds.getCount_addEntry result
  have outAfter : after.dev.buffer.outOffs = machine.dev.buffer.outOffs := by
    rw [(addEntry_frame result).2, if_pos (holds.getCount_eq.symm ▸ room)]
  rw [holds.straight_slot room inside]
  by_cases passed : machine.dev.buffer.inOffs < steps
  · rw [decide_eq_true passed, holds.ringSum_all (by omega) (Nat.le_of_lt inside),
      settled.toLedger.total_eq]
    have alone := settled.alone_seekEnd file offset
    rw [← asked] at alone
    have found := (reached.linearized alone).later call
    rw [← samePos] at found
    have past := Following.sumPast found settled.toLedger.total_lt inside
      (by rw [countAfter]; omega)
    rw [outAfter, holds.straight_slot room inside] at past
    exact past
  · rw [decide_eq_false passed]
    have sameSum := holds.ringSum_addEntry room result outAfter (Nat.le_of_not_lt passed)
    have current : Following first file request (writes ++ [call]) _ :=
      .sumCurrent asked (reached.write written) inside
    rw [sameSum, outAfter, holds.straight_slot room inside] at current
    exact current

/-- A write that completes a command the seek is spared from. -/
private theorem Following.commit (following : Following first file request writes window)
    {entries : List AesdBufferEntry} {commands : List (List Byte)} {pending : List Byte}
    {lost : List Nat} (settled : Settled window.machine entries commands pending lost)
    {call : WriteCall} {reply : Reply} {after : Machine}
    (written : window.machine.write call = .ok (reply, after))
    (samePos : after.fPos = window.machine.fPos) {command : AesdBufferEntry}
    (result : window.machine.dev.buffer.addEntry command = .ok after.dev.buffer)
    (spares : window.Spares) :
    Following first file request (writes ++ [call])
      ⟨after, window.phase, window.missed || window.behindSum⟩ := by
  have holds := settled.ring
  have countAfter := holds.getCount_addEntry result
  cases following with
  | checkCount asked reached => exact .checkCount asked (reached.write written)
  | @lookUp machine writeCmd writeCmdOffset asked reached counted =>
      refine .lookUp asked (reached.write written) ?_
      have bounded := holds.bounded
      rw [holds.getCount_eq] at counted
      rw [countAfter]
      omega
  | enterWalk found ahead =>
      obtain ⟨kept, outKept⟩ := ahead.addEntry holds result (Or.inl spares)
      refine .enterWalk (found.later call) ?_
      rw [outKept spares]
      exact kept
  | walk found ahead => exact .walk (found.later call) (ahead.addEntry holds result spares).1
  | assign found small => exact .assign (found.later call) small
  | enterSum asked reached => exact .enterSum asked (reached.write written)
  | sumCurrent asked reached inside =>
      exact .commitCurrent settled asked reached inside written samePos result
        (holds.getCount_eq ▸ spares.1)
  | @sumPast machine offset size steps found small inside rest =>
      obtain ⟨room, passed⟩ := spares
      have shortRing : entries.length < aesdcharMaxWriteOperationsSupported :=
        holds.getCount_eq ▸ room
      have atEnd : machine.dev.buffer.inOffs = entries.length := (holds.straight shortRing).2
      have outAfter := (addEntry_frame result).2
      rw [if_pos room] at outAfter
      have beyond : machine.dev.buffer.inOffs <
          (machine.dev.buffer.outOffs + steps) % aesdcharMaxWriteOperationsSupported := passed rfl
      rw [holds.straight_slot shortRing inside] at beyond
      rw [← samePos] at found
      have past := Following.sumPast (found.later call) small inside
        (show after.dev.buffer.getCount ≤ steps by rw [countAfter]; omega)
      rw [outAfter] at past
      exact past
  | @setEnd machine offset size missed found small =>
      rw [← samePos] at found
      exact .setEnd (found.later call) small
  | @returned machine ret missed found =>
      rw [← samePos] at found
      exact .returned (found.later call)

theorem Following.write (following : Following first file request writes window)
    (accounted : window.machine.Accounted) {call : WriteCall}
    (undisturbed : window.Undisturbed (.write call)) {after : Window}
    (made : window.step file (.write call) = .ok ((), after)) :
    Following first file request (writes ++ [call]) after ∧ after.machine.Accounted := by
  obtain ⟨succeeds, spares⟩ := undisturbed
  obtain ⟨reply, machine, written, kept, samePos, ring⟩ := accounted.write_ring succeeds
  obtain ⟨entries, commands, pending, lost, settled⟩ := accounted
  simp only [Window.step, written, ok_bind] at made
  cases made
  refine ⟨?_, kept⟩
  rcases ring with ⟨quiet, sameRing⟩ | ⟨completes, command, result⟩
  · rw [decide_eq_false quiet, Bool.false_and, Bool.or_false]
    exact following.quiet written samePos sameRing
  · rw [decide_eq_true completes, Bool.true_and]
    exact following.commit settled written samePos result (spares completes)

/-- Every window without a disturbing write keeps to one moment. -/
theorem Following.run {machine : Machine} (accounted : machine.Accounted) (file : Nat)
    (request : SeekRequest) {events : List WindowEvent}
    (undisturbed : RunMeets (Window.step file) Window.Undisturbed (.start machine request) events)
    {replies : List Unit} {last : Window}
    (ran : runCalls (Window.step file) (.start machine request) events = .ok (replies, last)) :
    Following machine file request (Window.writesOf events) last := by
  have begun : Following machine file request [] (.start machine request) ∧
      (Window.start machine request).machine.Accounted := by
    have reached : Reached machine [] machine := ⟨[], runCalls_nil machine⟩
    cases request with
    | seekto writeCmd writeCmdOffset => exact ⟨.checkCount rfl reached, accounted⟩
    | seekEnd offset => exact ⟨.enterSum rfl reached, accounted⟩
  let Known (window : Window) (earlier : List WindowEvent) : Prop :=
    Following machine file request (Window.writesOf earlier) window ∧ window.machine.Accounted
  have one : ∀ window earlier event reply after, Known window earlier →
      window.Undisturbed event → window.step file event = .ok (reply, after) →
      Known after (earlier ++ [event]) := by
    intro window earlier event reply after known spared made
    change Following machine file request (Window.writesOf (earlier ++ [event])) after ∧ _
    rw [Window.writesOf, List.filterMap_append]
    cases event with
    | seek =>
        rw [List.filterMap_cons_none rfl, List.filterMap_nil, List.append_nil]
        exact known.1.seek known.2 made
    | write call => exact known.1.write known.2 spared made
  have start : Known (.start machine request) [] := begun
  exact (runCalls_follows [] one start undisturbed ran).1

end Window

/-- On every reachable device a seek beside writes that spare it returns what the
whole seek returns at some moment between the writes, and leaves its position. -/
theorem seeks_linearize {fPos : Nat → Int} {calls : List Call} {replies : List Reply}
    {machine : Machine} (reachable : (Machine.initialized fPos).run calls = .ok (replies, machine))
    (file : Nat) (request : SeekRequest) {events : List WindowEvent}
    (undisturbed : RunMeets (Window.step file) Window.Undisturbed (.start machine request) events)
    {ticks : List Unit} {window : Window} {ret : Int}
    (ran : runCalls (Window.step file) (.start machine request) events = .ok (ticks, window))
    (returned : window.phase = .returned ret) :
    Linearized machine file request (Window.writesOf events) (ret, window.machine.fPos file) := by
  have following := Following.run (Machine.reachable_accounted reachable) file request
    undisturbed ran
  obtain ⟨last, phase, missed⟩ := window
  change phase = .returned ret at returned
  subst returned
  cases following with
  | returned found => exact found

/-- A command arrives before the seek looks for it. -/
theorem seeks_linearize_one_write :
    let events : List WindowEvent := [.write ⟨0, ⟨[97, newline], by decide⟩,
      ⟨⟨true, fun _ => 0⟩, 0⟩⟩, .seek, .seek, .seek, .seek]
    ∃ ticks window, runCalls (Window.step 1) (.start (.initialized fun _ => 0) (.seekto 0 1))
        events = .ok (ticks, window) ∧
      window.phase = .returned 0 ∧
      Linearized (.initialized fun _ => 0) 1 (.seekto 0 1) (Window.writesOf events)
        (0, window.machine.fPos 1) := by
  intro events
  have undisturbed : RunMeets (Window.step 1) Window.Undisturbed
      (.start (.initialized fun _ => 0) (.seekto 0 1)) events :=
    ⟨⟨Or.inr ⟨rfl, rfl⟩, fun _ => True.intro⟩, fun _ _ _ => ⟨True.intro, fun _ _ _ =>
      ⟨True.intro, fun _ _ _ => ⟨True.intro, fun _ _ _ => ⟨True.intro, fun _ _ _ =>
        True.intro⟩⟩⟩⟩⟩
  refine ⟨_, _, runCalls_cons rfl (runCalls_cons rfl (runCalls_cons rfl (runCalls_cons rfl
    (runCalls_cons rfl (runCalls_nil _))))), rfl, ?_⟩
  exact seeks_linearize (runCalls_nil _) 1 (.seekto 0 1) undisturbed
    (runCalls_cons rfl (runCalls_cons rfl (runCalls_cons rfl (runCalls_cons rfl
      (runCalls_cons rfl (runCalls_nil _)))))) rfl

/-- A successful write of a command of one byte. -/
def newlineWrite : WriteCall := ⟨0, ⟨[newline], by decide⟩, ⟨⟨true, fun _ => 0⟩, 0⟩⟩

/-- Ten commands of one byte, and an eleventh that comes in between.  SEEK_END
gives 11, although the device never holds more than 10 bytes; and the seek to
command 1 ends at position 0, although that command always begins at 1. -/
theorem seeks_see_no_moment :
    (do
      let (_, machine) ← runCalls Machine.write (.initialized fun _ => 0)
        (List.replicate 10 newlineWrite)
      let (_, later) ← machine.write newlineWrite
      let (_, window) ← runCalls (Window.step 1) (.start machine (.seekEnd 0))
        ([WindowEvent.seek, WindowEvent.write newlineWrite] ++ List.replicate 11 WindowEvent.seek)
      let before ← (SeekRequest.seekEnd 0).alone machine 1
      let after ← (SeekRequest.seekEnd 0).alone later 1
      return (window.phase, window.machine.fPos 1, before, after)) =
      .ok (.returned 11, 11, (10, 10), (10, 10)) ∧
    (do
      let (_, machine) ← runCalls Machine.write (.initialized fun _ => 0)
        (List.replicate 10 newlineWrite)
      let (_, later) ← machine.write newlineWrite
      let (_, window) ← runCalls (Window.step 1) (.start machine (.seekto 1 0))
        [WindowEvent.seek, .seek, .write newlineWrite, .seek, .seek]
      let before ← (SeekRequest.seekto 1 0).alone machine 1
      let after ← (SeekRequest.seekto 1 0).alone later 1
      return (window.phase, window.machine.fPos 1, before, after)) =
      .ok (.returned 0, 0, (0, 1), (0, 1)) := by
  constructor
  · decide +kernel
  · decide +kernel

end Aesd.Driver
