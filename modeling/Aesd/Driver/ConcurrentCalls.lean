/-
aesd_read and aesd_write beside each other.

Any number of threads are in the two calls at once.  One step is one access to
the device or to kernel memory and the decision that rests on it; steps of
different threads come in any order, and only the lock keeps them apart.  The
position of a file is an argument: VFS hands both calls a copy, so that llseek
and the ioctl, which write nothing but positions, do not meet them.
-/

import Aesd.Driver.CommandStore
import Aesd.LockedSections

set_option autoImplicit false

namespace Aesd.Driver

open BoundedLoop CallRun KernelMemory LockedSections SegmentedBytes AesdCircularBuffer

/-- The arguments of aesd_read; `uncopied` is the outcome of copy_to_user. -/
structure ReadArgs where
  count : Nat
  fPos : Int
  uncopied : Nat

structure WriteArgs where
  buf : UserBuffer
  fPos : Int
  outcome : WriteOutcome

inductive Request where
  | read (args : ReadArgs)
  | write (args : WriteArgs)

/-- The return value, what was copied to the user, and `*f_pos`. -/
structure Returned where
  reply : Reply
  fPos : Int
  deriving DecidableEq, Repr

/-- What a call does next, with the local variables that are still needed. -/
inductive Phase where
  | enterFind (args : ReadArgs)
  | find (args : ReadArgs) (posBytes index : Nat)
  | measure (args : ReadArgs) (index offset : Nat)
  | copyOut (args : ReadArgs) (index offset bytesToCopy : Nat)
  | checkCount (args : WriteArgs)
  | allocate (args : WriteArgs)
  | setSize (args : WriteArgs)
  | growSize (args : WriteArgs) (insertPos : Nat)
  | checkBuffptr (args : WriteArgs) (insertPos : Nat)
  | copyIn (args : WriteArgs) (insertPos : Nat)
  | checkNewline (args : WriteArgs) (insertPos : Nat)
  | checkFull (args : WriteArgs)
  | freeLast (args : WriteArgs)
  | clearBuffptr (args : WriteArgs) (lastEntry : Nat)
  | clearSize (args : WriteArgs) (lastEntry : Nat)
  | countEntries (args : WriteArgs)
  | addEntry (args : WriteArgs) (entryCount : Nat)
  | moveIn (args : WriteArgs) (entryCount : Nat)
  | moveOut (args : WriteArgs) (entryCount : Nat)
  | resetCurrent (args : WriteArgs)
  | unlock (returned : Returned)

namespace Machine

def setBuffer (machine : Machine) (buffer : AesdCircularBuffer) : Machine :=
  { machine with dev := { machine.dev with buffer } }

/-- Behind mutex_lock. -/
def enter (machine : Machine) : Request → Phase × Machine
  | .read args => (.enterFind args, machine.locked)
  | .write args => (.checkCount args, machine.locked)

/-- One step of a call: the one it makes next, or what it returns. -/
def advanceCall : Phase → Machine → Except Fault (Round Phase Returned × Machine)
  -- aesd_read
  | .enterFind args, machine =>
      .ok (.next (.find args 0 machine.dev.buffer.outOffs), machine)
  | .find args posBytes index, machine => do
      let round ← ringRound aesdcharMaxWriteOperationsSupported machine.dev.buffer.outOffs
        (machine.dev.buffer.findVisit (sizeOfLoff args.fPos)) (fun _ => none) (posBytes, index)
      match round with
      | .next (posBytes, index) => return (.next (.find args posBytes index), machine)
      | .leave none => return (.next (.unlock ⟨⟨0, []⟩, args.fPos⟩), machine)
      | .leave (some (index, offset)) => return (.next (.measure args index offset), machine)
  | .measure args index offset, machine =>
      if args.count = 0 then .ok (.next (.unlock ⟨⟨0, []⟩, args.fPos⟩), machine)
      else do
        let entry ← machine.dev.buffer.entryAt index
        let bytesToCopy :=
          if sizeTSub entry.size offset < args.count then sizeTSub entry.size offset
          else args.count
        return (.next (.copyOut args index offset bytesToCopy), machine)
  | .copyOut args index offset bytesToCopy, machine => do
      let entry ← machine.dev.buffer.entryAt index
      match entry.buffptr with
      | none => .error .nullPointer
      | some block =>
          let (uncopied, bytes) ←
            copyToUser machine.heap block offset bytesToCopy args.uncopied
          if uncopied ≠ 0 then
            return (.next (.unlock ⟨⟨-efault, bytes⟩, args.fPos⟩), machine)
          else
            return (.next (.unlock ⟨⟨(bytesToCopy : Int), bytes⟩,
              loffT (sizeOfLoff args.fPos + bytesToCopy)⟩), machine)
  -- aesd_write
  | .checkCount args, machine =>
      if args.buf.bytes.length = 0 then .ok (.next (.unlock ⟨⟨0, []⟩, args.fPos⟩), machine)
      else .ok (.next (.allocate args), machine)
  | .allocate args, machine =>
      let currentEntry := machine.dev.currentEntry
      let count := args.buf.bytes.length
      match currentEntry.buffptr with
      | none =>
          let (buffptr, heap) := kmalloc machine.heap count args.outcome.allocation
          .ok (.next (.setSize args),
            { machine with heap }.setCurrentEntry { currentEntry with buffptr })
      | some block => do
          let (buffptr, heap) ← krealloc machine.heap block (sizeT (currentEntry.size + count))
            args.outcome.allocation
          return (.next (.growSize args currentEntry.size),
            { machine with heap }.setCurrentEntry { currentEntry with buffptr })
  | .setSize args, machine =>
      .ok (.next (.checkBuffptr args 0), machine.setCurrentEntry
        { machine.dev.currentEntry with size := args.buf.bytes.length })
  | .growSize args insertPos, machine =>
      .ok (.next (.checkBuffptr args insertPos), machine.setCurrentEntry
        { machine.dev.currentEntry with
          size := sizeT (machine.dev.currentEntry.size + args.buf.bytes.length) })
  | .checkBuffptr args insertPos, machine =>
      match machine.dev.currentEntry.buffptr with
      | none => .ok (.next (.unlock ⟨⟨-enomem, []⟩, args.fPos⟩), machine)
      | some _block => .ok (.next (.copyIn args insertPos), machine)
  | .copyIn args insertPos, machine =>
      match machine.dev.currentEntry.buffptr with
      | none => .error .nullPointer
      | some block => do
          let (uncopied, heap) ←
            copyFromUser machine.heap block insertPos args.buf.bytes args.outcome.uncopied
          if uncopied ≠ 0 then
            return (.next (.unlock ⟨⟨-efault, []⟩, args.fPos⟩), { machine with heap })
          else return (.next (.checkNewline args insertPos), { machine with heap })
  | .checkNewline args insertPos, machine =>
      match machine.dev.currentEntry.buffptr with
      | none => .error .nullPointer
      | some block => do
          let last ← load machine.heap block
            (sizeTSub (sizeT (insertPos + args.buf.bytes.length)) 1) 1
          if last = [newline] then return (.next (.checkFull args), machine)
          else
            return (.next (.unlock ⟨⟨(args.buf.bytes.length : Int), []⟩, args.fPos⟩), machine)
  | .checkFull args, machine =>
      if machine.dev.buffer.getCount = aesdcharMaxWriteOperationsSupported then
        .ok (.next (.freeLast args), machine)
      else .ok (.next (.countEntries args), machine)
  | .freeLast args, machine => do
      let lastEntry ← machine.dev.buffer.entryAt machine.dev.buffer.inOffs
      let heap ← kfree machine.heap lastEntry.buffptr
      return (.next (.clearBuffptr args machine.dev.buffer.inOffs), { machine with heap })
  | .clearBuffptr args lastEntry, machine => do
      let entry ← machine.dev.buffer.entryAt lastEntry
      let buffer ← machine.dev.buffer.setEntry lastEntry { entry with buffptr := none }
      return (.next (.clearSize args lastEntry), machine.setBuffer buffer)
  | .clearSize args lastEntry, machine => do
      let entry ← machine.dev.buffer.entryAt lastEntry
      let buffer ← machine.dev.buffer.setEntry lastEntry { entry with size := 0 }
      return (.next (.countEntries args), machine.setBuffer buffer)
  -- aesd_circular_buffer_add_entry
  | .countEntries args, machine =>
      .ok (.next (.addEntry args machine.dev.buffer.getCount), machine)
  | .addEntry args entryCount, machine => do
      let buffer ← machine.dev.buffer.setEntry machine.dev.buffer.inOffs machine.dev.currentEntry
      return (.next (.moveIn args entryCount), machine.setBuffer buffer)
  | .moveIn args entryCount, machine =>
      let inOffs := (machine.dev.buffer.inOffs + 1) % aesdcharMaxWriteOperationsSupported
      .ok (.next (.moveOut args entryCount), machine.setBuffer { machine.dev.buffer with inOffs })
  | .moveOut args entryCount, machine =>
      let buffer := machine.dev.buffer
      if entryCount < aesdcharMaxWriteOperationsSupported then
        if entryCount + 1 = aesdcharMaxWriteOperationsSupported then
          .ok (.next (.resetCurrent args), machine.setBuffer { buffer with full := true })
        else .ok (.next (.resetCurrent args), machine)
      else
        .ok (.next (.resetCurrent args),
          machine.setBuffer { buffer with outOffs := buffer.inOffs })
  -- Back in aesd_write.
  | .resetCurrent args, machine =>
      .ok (.next (.unlock ⟨⟨(args.buf.bytes.length : Int), []⟩, args.fPos⟩),
        machine.setCurrentEntry .zero)
  | .unlock returned, machine => .ok (.leave returned, machine.mutexUnlock)

/-- The two calls, as threads make them. -/
def lockedCalls : Body Machine Request Phase Returned Fault where
  start := fun request machine => machine.enter request
  small := advanceCall

end Machine

section Alone

variable {machine after : Machine} {returned : Returned}

open Machine

theorem mutexLock_locked {taken : Machine} (locked : machine.mutexLock = .ok taken) :
    taken = machine.locked := by
  unfold Machine.mutexLock at locked
  split at locked <;> cases locked
  rfl

theorem unlock_ends (returned : Returned) (machine : Machine) :
    lockedCalls.Ends (.unlock returned, machine) returned machine.mutexUnlock :=
  .leave rfl

/-! ### aesd_write alone -/

/-- What aesd_write leaves behind a complete command. -/
def written (args : WriteArgs) : Returned := ⟨⟨(args.buf.bytes.length : Int), []⟩, args.fPos⟩

theorem countEntries_ends {args : WriteArgs} {added : AesdCircularBuffer}
    (made : machine.dev.buffer.addEntry machine.dev.currentEntry = .ok added) :
    lockedCalls.Ends (.countEntries args, machine) (written args)
      ((machine.setBuffer added).setCurrentEntry .zero).mutexUnlock := by
  unfold AesdCircularBuffer.addEntry at made
  obtain ⟨stored, set, made⟩ := ok_of_bind made
  have stores : advanceCall (.addEntry args machine.dev.buffer.getCount) machine =
      .ok (.next (.moveIn args machine.dev.buffer.getCount), machine.setBuffer stored) := by
    simp only [advanceCall, set, ok_bind]
    rfl
  have sameIn : stored.inOffs = machine.dev.buffer.inOffs := by
    unfold setEntry at set
    split at set <;> cases set
    rfl
  let inOffs := (machine.dev.buffer.inOffs + 1) % aesdcharMaxWriteOperationsSupported
  have moves : advanceCall (.moveIn args machine.dev.buffer.getCount) (machine.setBuffer stored) =
      .ok (.next (.moveOut args machine.dev.buffer.getCount),
        machine.setBuffer { stored with inOffs }) := by
    simp only [advanceCall, inOffs, ← sameIn]
    rfl
  have settles : advanceCall (.moveOut args machine.dev.buffer.getCount)
      (machine.setBuffer { stored with inOffs }) =
        .ok (.next (.resetCurrent args), machine.setBuffer added) := by
    simp only [advanceCall]
    split at made
    · rename_i spare
      rw [if_pos spare]
      split at made
      · rename_i last
        cases made
        rw [if_pos last]
        rfl
      · rename_i more
        cases made
        rw [if_neg more]
    · rename_i full
      cases made
      rw [if_neg full]
      rfl
  exact .further rfl (.further stores (.further moves (.further settles
    (.further rfl (unlock_ends _ _)))))

/-- The two stores to a slot that clear it. -/
theorem clear_entry {buffer cleared : AesdCircularBuffer} {index : Nat} (entry : AesdBufferEntry)
    (made : buffer.setEntry index .zero = .ok cleared) :
    ∃ middle, buffer.setEntry index { entry with buffptr := none } = .ok middle ∧
      middle.entryAt index = .ok { entry with buffptr := none } ∧
      middle.setEntry index ⟨none, 0⟩ = .ok cleared := by
  unfold setEntry at made ⊢
  by_cases inside : index < aesdcharMaxWriteOperationsSupported
  · rw [if_pos inside] at made ⊢
    cases made
    refine ⟨_, rfl, ?_, ?_⟩
    · unfold entryAt
      rw [Vector.getElem?_setIfInBounds, if_pos rfl, if_pos inside]
    · rw [if_pos inside, Vector.setIfInBounds_setIfInBounds]
      rfl
  · rw [if_neg inside] at made
    cases made

theorem checkFull_ends {args : WriteArgs} {committed : Machine}
    (made : machine.commit = .ok committed) :
    lockedCalls.Ends (.checkFull args, machine) (written args) committed.mutexUnlock := by
  unfold Machine.commit at made
  dsimp only at made
  split at made
  · rename_i full
    obtain ⟨lastEntry, found, made⟩ := ok_of_bind made
    obtain ⟨heap, freed, made⟩ := ok_of_bind made
    obtain ⟨cleared, set, made⟩ := ok_of_bind made
    obtain ⟨_pair, paired, made⟩ := ok_of_bind made
    cases paired
    obtain ⟨added, adds, same⟩ := ok_of_bind made
    cases same
    obtain ⟨middle, first, kept, second⟩ := clear_entry lastEntry set
    have checks : advanceCall (.checkFull args) machine =
        .ok (.next (.freeLast args), machine) := if_pos full
    have frees : advanceCall (.freeLast args) machine =
        .ok (.next (.clearBuffptr args machine.dev.buffer.inOffs), { machine with heap }) := by
      simp only [advanceCall, found, ok_bind, freed]
      rfl
    have clears : advanceCall (.clearBuffptr args machine.dev.buffer.inOffs)
        { machine with heap } = .ok (.next (.clearSize args machine.dev.buffer.inOffs),
          { machine with heap }.setBuffer middle) := by
      simp only [advanceCall, found, ok_bind, first]
      rfl
    have clearsSize : advanceCall (.clearSize args machine.dev.buffer.inOffs)
        ({ machine with heap }.setBuffer middle) = .ok (.next (.countEntries args),
          { machine with heap }.setBuffer cleared) := by
      simp only [advanceCall, setBuffer, kept, ok_bind, second]
      rfl
    exact .further checks (.further frees (.further clears (.further clearsSize
      (countEntries_ends adds))))
  · rename_i spare
    obtain ⟨_pair, paired, made⟩ := ok_of_bind made
    cases paired
    obtain ⟨added, adds, same⟩ := ok_of_bind made
    cases same
    have checks : advanceCall (.checkFull args) machine =
        .ok (.next (.countEntries args), machine) := if_neg spare
    exact .further checks (countEntries_ends adds)

theorem checkNewline_ends {args : WriteArgs} {insertPos block : Nat} {ret place : Int}
    (pointer : machine.dev.currentEntry.buffptr = some block)
    (made : machine.finishWrite block insertPos args.buf.bytes.length args.fPos =
      .ok (ret, place, after)) :
    lockedCalls.Ends (.checkNewline args insertPos, machine) ⟨⟨ret, []⟩, place⟩ after := by
  unfold Machine.finishWrite at made
  obtain ⟨last, loaded, made⟩ := ok_of_bind made
  split at made
  · rename_i newlineLast
    obtain ⟨committed, commits, same⟩ := ok_of_bind made
    cases same
    have checks : advanceCall (.checkNewline args insertPos) machine =
        .ok (.next (.checkFull args), machine) := by
      simp only [advanceCall, pointer, loaded, ok_bind, if_pos newlineLast]
      rfl
    exact .further checks (checkFull_ends commits)
  · rename_i unended
    cases made
    have checks : advanceCall (.checkNewline args insertPos) machine =
        .ok (.next (.unlock (written args)), machine) := by
      simp only [advanceCall, pointer, loaded, ok_bind, if_neg unended]
      rfl
    exact .further checks (unlock_ends _ _)

/-- From the test of the pointer on. -/
theorem checkBuffptr_ends {args : WriteArgs} {insertPos : Nat} {ret place : Int}
    (made : (match machine.dev.currentEntry.buffptr with
      | none => .ok (-enomem, args.fPos, machine.mutexUnlock)
      | some block => do
          let (uncopied, heap) ←
            copyFromUser machine.heap block insertPos args.buf.bytes args.outcome.uncopied
          let machine := { machine with heap }
          if uncopied ≠ 0 then
            return (-efault, args.fPos, machine.mutexUnlock)
          else
            machine.finishWrite block insertPos args.buf.bytes.length args.fPos :
      Except Fault (Int × Int × Machine)) = .ok (ret, place, after)) :
    lockedCalls.Ends (.checkBuffptr args insertPos, machine) ⟨⟨ret, []⟩, place⟩ after := by
  cases pointer : machine.dev.currentEntry.buffptr with
  | none =>
      rw [pointer] at made
      cases made
      have checks : advanceCall (.checkBuffptr args insertPos) machine =
          .ok (.next (.unlock ⟨⟨-enomem, []⟩, args.fPos⟩), machine) := by
        simp only [advanceCall, pointer]
      exact .further checks (unlock_ends _ _)
  | some block =>
      rw [pointer] at made
      obtain ⟨⟨uncopied, heap⟩, copied, made⟩ := ok_of_bind made
      have checks : advanceCall (.checkBuffptr args insertPos) machine =
          .ok (.next (.copyIn args insertPos), machine) := by
        simp only [advanceCall, pointer]
      refine .further checks ?_
      dsimp only at made
      split at made
      · rename_i partly
        cases made
        have copies : advanceCall (.copyIn args insertPos) machine =
            .ok (.next (.unlock ⟨⟨-efault, []⟩, args.fPos⟩), { machine with heap }) := by
          simp only [advanceCall, pointer, copied, ok_bind, if_pos partly]
          rfl
        exact .further copies (unlock_ends _ _)
      · rename_i wholly
        have copies : advanceCall (.copyIn args insertPos) machine =
            .ok (.next (.checkNewline args insertPos), { machine with heap }) := by
          simp only [advanceCall, pointer, copied, ok_bind, if_neg wholly]
          rfl
        exact .further copies (checkNewline_ends pointer made)

theorem allocate_ends {args : WriteArgs} {insertPos : Nat} {reserved : Machine}
    (made : machine.reserve args.buf.bytes.length args.outcome.allocation =
      .ok (insertPos, reserved))
    (ends : lockedCalls.Ends (.checkBuffptr args insertPos, reserved) returned after) :
    lockedCalls.Ends (.allocate args, machine) returned after := by
  unfold Machine.reserve at made
  cases pointer : machine.dev.currentEntry.buffptr with
  | none =>
      simp only [pointer] at made
      cases made
      let granted := kmalloc machine.heap args.buf.bytes.length args.outcome.allocation
      have allocates : advanceCall (.allocate args) machine = .ok (.next (.setSize args),
          { machine with heap := granted.2 }.setCurrentEntry
            { machine.dev.currentEntry with buffptr := granted.1 }) := by
        simp only [advanceCall, pointer]
        rfl
      exact .further allocates (.further rfl ends)
  | some block =>
      simp only [pointer] at made
      obtain ⟨⟨buffptr, heap⟩, moved, same⟩ := ok_of_bind made
      cases same
      have allocates : advanceCall (.allocate args) machine =
          .ok (.next (.growSize args machine.dev.currentEntry.size),
            { machine with heap }.setCurrentEntry
              { machine.dev.currentEntry with buffptr }) := by
        simp only [advanceCall, pointer, moved, ok_bind]
        rfl
      exact .further allocates (.further rfl ends)

/-- What aesd_write does at once, its steps do. -/
theorem aesdWrite_ends {args : WriteArgs} {ret place : Int}
    (made : machine.aesdWrite args.buf args.fPos args.outcome = .ok (ret, place, after)) :
    lockedCalls.Ends (machine.enter (.write args)) ⟨⟨ret, []⟩, place⟩ after := by
  unfold Machine.aesdWrite at made
  obtain ⟨taken, locked, made⟩ := ok_of_bind made
  have same := mutexLock_locked locked
  subst same
  dsimp only at made
  split at made
  · rename_i empty
    cases made
    have checks : advanceCall (.checkCount args) machine.locked =
        .ok (.next (.unlock ⟨⟨0, []⟩, args.fPos⟩), machine.locked) := if_pos empty
    exact .further checks (unlock_ends _ _)
  · rename_i something
    obtain ⟨⟨insertPos, reserved⟩, allocated, made⟩ := ok_of_bind made
    have checks : advanceCall (.checkCount args) machine.locked =
        .ok (.next (.allocate args), machine.locked) := if_neg something
    exact .further checks (allocate_ends allocated (checkBuffptr_ends made))

/-! ### aesd_read alone -/

theorem copyOut_ends {args : ReadArgs} {index offset bytesToCopy block uncopied : Nat}
    {entry : AesdBufferEntry} {bytes : List Byte}
    (found : machine.dev.buffer.entryAt index = .ok entry) (pointer : entry.buffptr = some block)
    (copied : copyToUser machine.heap block offset bytesToCopy args.uncopied =
      .ok (uncopied, bytes)) :
    lockedCalls.Ends (.copyOut args index offset bytesToCopy, machine)
      (if uncopied ≠ 0 then ⟨⟨-efault, bytes⟩, args.fPos⟩
        else ⟨⟨(bytesToCopy : Int), bytes⟩, loffT (sizeOfLoff args.fPos + bytesToCopy)⟩)
      machine.mutexUnlock := by
  split
  · rename_i partly
    have copies : advanceCall (.copyOut args index offset bytesToCopy) machine =
        .ok (.next (.unlock ⟨⟨-efault, bytes⟩, args.fPos⟩), machine) := by
      simp only [advanceCall, found, ok_bind, pointer, copied, if_pos partly]
      rfl
    exact .further copies (unlock_ends _ _)
  · rename_i wholly
    have copies : advanceCall (.copyOut args index offset bytesToCopy) machine =
        .ok (.next (.unlock ⟨⟨(bytesToCopy : Int), bytes⟩,
          loffT (sizeOfLoff args.fPos + bytesToCopy)⟩), machine) := by
      simp only [advanceCall, found, ok_bind, pointer, copied, if_neg wholly]
      rfl
    exact .further copies (unlock_ends _ _)

/-- Where aesd_read goes on behind the lookup. -/
def behindFind (args : ReadArgs) : Option (Nat × Nat) → Phase
  | none => .unlock ⟨⟨0, []⟩, args.fPos⟩
  | some (index, offset) => .measure args index offset

/-- The walk, round after round. -/
theorem find_ends {args : ReadArgs} {rounds posBytes index : Nat} {found : Option (Nat × Nat)}
    (walked : repeatRounds .endlessLoop
      (ringRound aesdcharMaxWriteOperationsSupported machine.dev.buffer.outOffs
        (machine.dev.buffer.findVisit (sizeOfLoff args.fPos)) (fun _ => none))
      rounds (posBytes, index) = .ok found)
    (ends : lockedCalls.Ends (behindFind args found, machine) returned after) :
    lockedCalls.Ends (.find args posBytes index, machine) returned after := by
  induction rounds generalizing posBytes index with
  | zero => cases walked
  | succ rounds ih =>
      unfold repeatRounds at walked
      cases round : ringRound aesdcharMaxWriteOperationsSupported machine.dev.buffer.outOffs
          (machine.dev.buffer.findVisit (sizeOfLoff args.fPos)) (fun _ => none)
          (posBytes, index) with
      | error fault =>
          rw [round] at walked
          cases walked
      | ok decided =>
          rw [round] at walked
          cases decided with
          | next following =>
              have visits : advanceCall (.find args posBytes index) machine =
                  .ok (.next (.find args following.1 following.2), machine) := by
                simp only [advanceCall, round, ok_bind]
                rfl
              exact .further visits (ih walked)
          | leave last =>
              cases walked
              have visits : advanceCall (.find args posBytes index) machine =
                  .ok (.next (behindFind args found), machine) := by
                simp only [advanceCall, round, ok_bind]
                cases found <;> rfl
              exact .further visits ends

theorem returned_inj {ret otherRet place otherPlace : Int} {bytes otherBytes : List Byte}
    (made : (pure (ret, bytes, place, machine) : Except Fault _) =
      .ok (otherRet, otherBytes, otherPlace, after)) :
    ret = otherRet ∧ bytes = otherBytes ∧ place = otherPlace ∧ machine = after := by
  cases made
  exact ⟨rfl, rfl, rfl, rfl⟩

/-- What aesd_read does at once, its steps do. -/
theorem aesdRead_ends {args : ReadArgs} {ret place : Int} {bytes : List Byte}
    (made : machine.aesdRead args.count args.fPos args.uncopied = .ok (ret, bytes, place, after)) :
    lockedCalls.Ends (machine.enter (.read args)) ⟨⟨ret, bytes⟩, place⟩ after := by
  unfold Machine.aesdRead at made
  obtain ⟨taken, locked, made⟩ := ok_of_bind made
  have same := mutexLock_locked locked
  subst same
  obtain ⟨found, walked, made⟩ := ok_of_bind made
  refine .further rfl (find_ends walked ?_)
  cases found with
  | none =>
      cases made
      exact unlock_ends _ _
  | some entryOffset =>
      obtain ⟨index, offset⟩ := entryOffset
      dsimp only at made
      split at made
      · rename_i nothing
        cases made
        have measures : advanceCall (.measure args index offset) machine.locked =
            .ok (.next (.unlock ⟨⟨0, []⟩, args.fPos⟩), machine.locked) := if_pos nothing
        exact .further measures (unlock_ends _ _)
      · rename_i something
        obtain ⟨entry, inside, made⟩ := ok_of_bind made
        let bytesToCopy :=
          if sizeTSub entry.size offset < args.count then sizeTSub entry.size offset
          else args.count
        have measures : advanceCall (.measure args index offset) machine.locked =
            .ok (.next (.copyOut args index offset bytesToCopy), machine.locked) := by
          simp only [advanceCall, if_neg something, inside, ok_bind]
          rfl
        refine .further measures ?_
        cases pointer : entry.buffptr with
        | none =>
            simp only [pointer] at made
            cases made
        | some block =>
            simp only [pointer] at made
            obtain ⟨⟨uncopied, copiedBytes⟩, copied, made⟩ := ok_of_bind made
            have ends := copyOut_ends inside pointer copied
            split at made
            · rename_i partly
              obtain ⟨rfl, rfl, rfl, rfl⟩ := returned_inj made
              rw [if_pos partly] at ends
              exact ends
            · rename_i wholly
              obtain ⟨rfl, rfl, rfl, rfl⟩ := returned_inj made
              rw [if_neg wholly] at ends
              exact ends

end Alone

/-! ### Against the command store -/

/-- The two calls on a store, with the position that VFS hands them. -/
def CommandStore.answer (store : CommandStore) : Bool × Request →
    Except Fault (Returned × CommandStore)
  | (_, .read args) =>
      let (reply, fPos) := readAt store.visible args.fPos args.count args.uncopied
      .ok (⟨reply, fPos⟩, store)
  | (granted, .write args) =>
      let (reply, after) := store.write granted ⟨0, args.buf, args.outcome⟩
      .ok (⟨reply, args.fPos⟩, after)

section Refinement

variable {machine : Machine} {store : CommandStore}

open Machine

theorem Refines.aesdRead (refines : Refines machine store) (args : ReadArgs) :
    let answer := readAt store.visible args.fPos args.count args.uncopied
    machine.aesdRead args.count args.fPos args.uncopied =
      .ok (answer.1.ret, answer.1.data, answer.2, machine) := by
  obtain ⟨entries, lost, settled⟩ := refines.settled
  rw [settled.aesdRead_eq]
  unfold readAt
  by_cases nothing : slice store.visible (sizeOfLoff args.fPos) args.count = []
  · simp only [if_pos nothing]
  · by_cases partly : args.uncopied ≠ 0
    · simp only [if_neg nothing, if_pos partly]
    · simp only [if_neg nothing, if_neg partly]

/-- A call that nobody else disturbs answers as the store does. -/
theorem Refines.ends (refines : Refines machine store) (request : Request) :
    ∃ granted result after reached, store.answer (granted, request) = .ok (result, reached) ∧
      lockedCalls.Ends (machine.enter request) result after ∧ Refines after reached := by
  cases request with
  | read args =>
      exact ⟨true, _, machine, store, rfl, aesdRead_ends (refines.aesdRead args), refines⟩
  | write args =>
      obtain ⟨granted, after, made, _samePos, kept⟩ :=
        refines.aesdWrite ⟨0, args.buf, args.outcome⟩ args.fPos
      have ends := aesdWrite_ends made
      rw [← store.write_data granted ⟨0, args.buf, args.outcome⟩] at ends
      exact ⟨granted, _, after, _, rfl, ends, kept⟩

theorem lockedCalls_total : lockedCalls.Total fun machine => ∃ store, Refines machine store := by
  rintro machine request ⟨store, refines⟩
  obtain ⟨_granted, result, after, reached, _answer, ends, kept⟩ := refines.ends request
  exact ⟨result, after, ends, reached, kept⟩

/-- Calls one after another answer as the store does. -/
theorem Refines.sequence {first : Machine} {start : CommandStore} (refines : Refines first start)
    {calls : List (Request × Returned)} (sequence : lockedCalls.Sequence first calls machine) :
    ∃ requests reached, requests.map Prod.snd = calls.map Prod.fst ∧
      runCalls CommandStore.answer start requests = .ok (calls.map Prod.snd, reached) ∧
      Refines machine reached := by
  induction sequence with
  | none => exact ⟨[], start, rfl, rfl, refines⟩
  | @later calls data after request result _earlier ends ih =>
      obtain ⟨requests, middle, same, ran, kept⟩ := ih
      obtain ⟨granted, otherResult, other, reached, answer, again, keptToo⟩ := kept.ends request
      obtain ⟨rfl, rfl⟩ := ends.unique again
      refine ⟨requests ++ [(granted, request)], reached, ?_, ?_, keptToo⟩
      · rw [List.map_append, List.map_append, same]
        rfl
      · rw [List.map_append]
        exact runCalls_append ran (runCalls_cons answer rfl)

end Refinement

section Threads

variable {Thread : Type} [DecidableEq Thread]

/-- However the steps of reads and writes fall, they return what a command store
answers to them one after another, in the order of their returns; the one inside
is on its way to what the store answers next. -/
theorem concurrent_calls_linearize (fPos : Nat → Int) (events : List (Event Thread Request))
    (replies : List (LockedSections.Reply Thread Request Returned))
    (world : World Thread Machine Request Phase)
    (ran : runCalls Machine.lockedCalls.step (.start (.initialized fPos)) events =
      .ok (replies, world)) :
    ∃ requests store, requests.map Prod.snd = (history replies).map Prod.fst ∧
      runCalls CommandStore.answer (.empty fPos) requests =
        .ok ((history replies).map Prod.snd, store) ∧
      ((∀ thread request phase, world.place thread ≠ .inside request phase) →
        world.data.storedCommands = store.visible ∧ world.data.pendingBytes = store.pending) ∧
      ∀ thread request phase, world.place thread = .inside request phase →
        ∃ granted result after reached, store.answer (granted, request) = .ok (result, reached) ∧
          Machine.lockedCalls.Ends (phase, world.data) result after ∧ Refines after reached := by
  have orderly := Body.orderly_run ran
  have initially := initialized_refines fPos
  cases holder : world.holder with
  | none =>
      obtain ⟨requests, store, same, answered, refines⟩ :=
        initially.sequence (orderly.free holder)
      obtain ⟨entries, lost, settled⟩ := refines.settled
      refine ⟨requests, store, same, answered, ?_, ?_⟩
      · intro _outside
        exact ⟨settled.toLedger.storedCommands_eq, settled.toLedger.pendingBytes_eq⟩
      · intro thread request phase inside
        have holds := orderly.outside thread request phase inside
        rw [holder] at holds
        cases holds
  | some thread =>
      obtain ⟨request, phase, begun, inside, sequence, path⟩ := orderly.held thread holder
      obtain ⟨requests, store, same, answered, refines⟩ := initially.sequence sequence
      refine ⟨requests, store, same, answered, ?_, ?_⟩
      · intro outside
        exact absurd inside (outside thread request phase)
      · intro other asked reached insideOther
        have holds := orderly.outside other asked reached insideOther
        rw [holder] at holds
        cases holds
        rw [inside] at insideOther
        cases insideOther
        obtain ⟨granted, result, after, following, answer, ends, kept⟩ := refines.ends request
        exact ⟨granted, result, after, following, answer, ends.rest path, kept⟩

/-- In every state one thread at most is inside, no step of a read or a write
meets a fault, and every call that was begun can be brought to its return. -/
theorem concurrent_calls_return (fPos : Nat → Int) (events : List (Event Thread Request))
    (replies : List (LockedSections.Reply Thread Request Returned))
    (world : World Thread Machine Request Phase)
    (ran : runCalls Machine.lockedCalls.step (.start (.initialized fPos)) events =
      .ok (replies, world)) :
    (∀ thread other request asked phase reached, world.place thread = .inside request phase →
      world.place other = .inside asked reached → thread = other) ∧
    (∀ event fault, Machine.lockedCalls.step world event ≠ .error (.fault fault)) ∧
    ∀ thread, world.place thread ≠ .away → Machine.lockedCalls.CanReturn world thread := by
  have orderly := Body.orderly_run ran
  have initially : ∃ store, Refines (.initialized fPos) store := ⟨_, initialized_refines fPos⟩
  refine ⟨?_, orderly.not_fault lockedCalls_total initially, ?_⟩
  · intro thread other request asked phase reached inside insideToo
    have holds := orderly.outside thread request phase inside
    rw [orderly.outside other asked reached insideToo] at holds
    exact (Option.some.inj holds).symm
  · intro thread begun
    exact orderly.canReturn lockedCalls_total initially begun

end Threads

/-- One thread comes to read while another one writes a line. -/
def readBesideWrite : List (Event Bool Request) :=
  [.call false (.write ⟨⟨[97, 10], by decide⟩, 0, ⟨⟨true, fun _ => 0⟩, 0⟩⟩), .lock false] ++
    List.replicate 6 (.work false) ++ [.call true (.read ⟨5, 0, 0⟩)]

/-- The write goes through, and then the read. -/
def bothReturn : List (Event Bool Request) :=
  readBesideWrite ++ List.replicate 7 (.work false) ++ [.lock true] ++
    List.replicate 5 (.work true)

theorem concurrent_calls_linearize_two : ∃ replies world requests store,
    runCalls Machine.lockedCalls.step (.start (.initialized fun _ => 0)) bothReturn =
        .ok (replies, world) ∧
      runCalls CommandStore.answer (.empty fun _ => 0) requests =
        .ok ([⟨⟨2, []⟩, 0⟩, ⟨⟨2, [97, 10]⟩, 2⟩], store) := by
  have computed : (runCalls Machine.lockedCalls.step (.start (.initialized fun _ => 0))
      bothReturn).map (fun result => (history result.1).map Prod.snd) =
    .ok [⟨⟨2, []⟩, 0⟩, ⟨⟨2, [97, 10]⟩, 2⟩] := by decide +kernel
  obtain ⟨⟨replies, world⟩, ran, results⟩ := ok_of_map computed
  obtain ⟨requests, store, _same, answered, _held, _inside⟩ :=
    concurrent_calls_linearize (fun _ => 0) bothReturn replies world ran
  rw [results] at answered
  exact ⟨replies, world, requests, store, ran, answered⟩

theorem concurrent_calls_return_waiting : ∃ replies world,
    runCalls Machine.lockedCalls.step (.start (.initialized fun _ => 0)) readBesideWrite =
        .ok (replies, world) ∧
      world.holder = some false ∧ Machine.lockedCalls.CanReturn world true := by
  have computed : (runCalls Machine.lockedCalls.step (.start (.initialized fun _ => 0))
      readBesideWrite).map (fun result => (result.2.holder, (result.2.place true).begun)) =
    .ok (some false, true) := by decide +kernel
  obtain ⟨⟨replies, world⟩, ran, shown⟩ := ok_of_map computed
  obtain ⟨holder, begun⟩ := Prod.mk.inj shown
  obtain ⟨_one, _faults, returns⟩ :=
    concurrent_calls_return (fun _ => 0) readBesideWrite replies world ran
  refine ⟨replies, world, ran, holder, returns true ?_⟩
  intro away
  dsimp only at begun
  rw [away] at begun
  cases begun

end Aesd.Driver
