/-
The character device, main.c.

A machine is the device, the kernel blocks and the position of every open
file.  Each call of the driver is one function; its return value, what it
copies to the user, the file position it writes back and the machine after it
are its result.  aesd_read and aesd_write take the device's lock; llseek and
the ioctl do not.  A file is named by a number and its position is an loff_t.
-/

import Aesd.CallRun
import Aesd.Driver.KernelMemory

set_option autoImplicit false

namespace Aesd.Driver

open BlockHeap BoundedLoop CallRun KernelMemory

def enomem : Int := 12
def efault : Int := 14
def einval : Int := 22
def enotty : Int := 25

/-- The value of an `loff_t` expression. -/
def loffT (value : Int) : Int := value.bmod (2 ^ 64)

/-- An `loff_t` converted to `size_t`. -/
def sizeOfLoff (value : Int) : Nat := (value % 2 ^ 64).toNat

structure AesdDev where
  buffer : AesdCircularBuffer
  currentEntry : AesdBufferEntry
  lock : Bool
  deriving DecidableEq, Repr

structure Machine where
  dev : AesdDev
  heap : Heap Byte
  fPos : Nat → Int

/-- The user's buffer of a write.  VFS has already cut its length to
MAX_RW_COUNT, which is below 2^31. -/
structure UserBuffer where
  bytes : List Byte
  capped : bytes.length < 2 ^ 31

/-- What the kernel makes of one aesd_write. -/
structure WriteOutcome where
  allocation : Allocation
  uncopied : Nat

/-- struct aesd_seekto; both members are uint32_t. -/
structure AesdSeekto where
  writeCmd : Nat
  writeCmdOffset : Nat
  deriving DecidableEq, Repr

namespace Machine

def mutexLock (machine : Machine) : Except Fault Machine :=
  if machine.dev.lock then .error .lockHeld
  else .ok { machine with dev := { machine.dev with lock := true } }

def mutexUnlock (machine : Machine) : Machine :=
  { machine with dev := { machine.dev with lock := false } }

def setCurrentEntry (machine : Machine) (entry : AesdBufferEntry) : Machine :=
  { machine with dev := { machine.dev with currentEntry := entry } }

/-! ### aesd_write -/

/-- Allocate or reallocate `current_entry`; the number is `insert_pos`. -/
def reserve (machine : Machine) (count : Nat) (allocation : Allocation) :
    Except Fault (Nat × Machine) :=
  let currentEntry := machine.dev.currentEntry
  match currentEntry.buffptr with
  | none =>
      let (buffptr, heap) := kmalloc machine.heap count allocation
      .ok (0, { machine with heap }.setCurrentEntry { buffptr, size := count })
  | some block => do
      let size := sizeT (currentEntry.size + count)
      let (buffptr, heap) ← krealloc machine.heap block size allocation
      return (currentEntry.size, { machine with heap }.setCurrentEntry { buffptr, size })

/-- Whether the allocation that a chunk of `count` bytes needs succeeds. -/
def allocates (machine : Machine) (count : Nat) (allocation : Allocation) : Bool :=
  match machine.dev.currentEntry.buffptr with
  | none => allocation.granted && admits machine.heap count
  | some block =>
      allocation.granted &&
        admits (machine.heap.release block) (sizeT (machine.dev.currentEntry.size + count))

/-- Hand `current_entry` over to the ring.  On a full ring the oldest command
is freed first; its slot is the one at `in_offs`. -/
def commit (machine : Machine) : Except Fault Machine := do
  let buffer := machine.dev.buffer
  let (buffer, heap) ←
    if buffer.getCount = aesdcharMaxWriteOperationsSupported then do
      let lastEntry ← buffer.entryAt buffer.inOffs
      let heap ← kfree machine.heap lastEntry.buffptr
      let buffer ← buffer.setEntry buffer.inOffs .zero
      pure (buffer, heap)
    else pure (buffer, machine.heap)
  let buffer ← buffer.addEntry machine.dev.currentEntry
  return { machine with heap, dev := { machine.dev with buffer, currentEntry := .zero } }

/-- The end of aesd_write, after a complete copy: a chunk that ends in a
newline completes the command. -/
def finishWrite (machine : Machine) (block insertPos count : Nat) (fPos : Int) :
    Except Fault (Int × Int × Machine) := do
  let last ← load machine.heap block (sizeTSub (sizeT (insertPos + count)) 1) 1
  if last = [newline] then
    let machine ← machine.commit
    return ((count : Int), fPos, machine.mutexUnlock)
  else
    return ((count : Int), fPos, machine.mutexUnlock)

/-- The return value, `*f_pos` and the machine afterwards. -/
def aesdWrite (machine : Machine) (buf : UserBuffer) (fPos : Int) (outcome : WriteOutcome) :
    Except Fault (Int × Int × Machine) := do
  let machine ← machine.mutexLock
  let count := buf.bytes.length
  if count = 0 then
    return (0, fPos, machine.mutexUnlock)
  else
    let (insertPos, machine) ← machine.reserve count outcome.allocation
    match machine.dev.currentEntry.buffptr with
    | none => return (-enomem, fPos, machine.mutexUnlock)
    | some block =>
        let (uncopied, heap) ←
          copyFromUser machine.heap block insertPos buf.bytes outcome.uncopied
        let machine := { machine with heap }
        if uncopied ≠ 0 then
          return (-efault, fPos, machine.mutexUnlock)
        else
          machine.finishWrite block insertPos count fPos

/-! ### aesd_read -/

/-- The return value, what was copied to the user, `*f_pos` and the machine
afterwards. -/
def aesdRead (machine : Machine) (count : Nat) (fPos : Int) (uncopied : Nat) :
    Except Fault (Int × List Byte × Int × Machine) := do
  let machine ← machine.mutexLock
  let found ← machine.dev.buffer.findEntryOffsetForFpos (sizeOfLoff fPos)
  match found with
  | none => return (0, [], fPos, machine.mutexUnlock)
  | some (index, offset) =>
      if count = 0 then
        return (0, [], fPos, machine.mutexUnlock)
      else
        let entry ← machine.dev.buffer.entryAt index
        let bytesToCopy :=
          if sizeTSub entry.size offset < count then sizeTSub entry.size offset else count
        match entry.buffptr with
        | none => .error .nullPointer
        | some block =>
            let (uncopied, bytes) ← copyToUser machine.heap block offset bytesToCopy uncopied
            if uncopied ≠ 0 then
              return (-efault, bytes, fPos, machine.mutexUnlock)
            else
              return ((bytesToCopy : Int), bytes, loffT (sizeOfLoff fPos + bytesToCopy),
                machine.mutexUnlock)

end Machine

/-! ### llseek -/

inductive Whence where
  | seekSet
  | seekCur
  | seekEnd
  | other
  deriving DecidableEq, Repr

/-- The kernel's vfs_setpos: the return value and `file->f_pos` afterwards. -/
def vfsSetpos (fPos offset maxsize : Int) : Int × Int :=
  if offset < 0 then (-einval, fPos)
  else if maxsize < offset then (-einval, fPos)
  else (offset, offset)

/-- The kernel's fixed_size_llseek: the return value and `file->f_pos` afterwards. -/
def fixedSizeLlseek (fPos offset : Int) (whence : Whence) (size : Int) : Int × Int :=
  match whence with
  | .seekEnd => vfsSetpos fPos (loffT (offset + size)) size
  | .seekCur => if offset = 0 then (fPos, fPos) else vfsSetpos fPos (loffT (fPos + offset)) size
  | .seekSet => vfsSetpos fPos offset size
  | .other => (-einval, fPos)

namespace Machine

def setFPos (machine : Machine) (file : Nat) (fPos : Int) : Machine :=
  { machine with fPos := Function.update machine.fPos file fPos }

def llseek (machine : Machine) (file : Nat) (offset : Int) (whence : Whence) :
    Except Fault (Int × Machine) := do
  let fullSize ← machine.dev.buffer.getSize
  let (ret, fPos) := fixedSizeLlseek (machine.fPos file) offset whence (loffT fullSize)
  return (ret, machine.setFPos file fPos)

/-! ### unlocked_ioctl -/

/-- The slot of the requested command, as the code computes it. -/
def seekEntry (machine : Machine) (writeCmd : Nat) : Nat :=
  (machine.dev.buffer.outOffs + writeCmd) % 2 ^ 32

def aesdAdjustFileOffset (machine : Machine) (file writeCmd writeCmdOffset : Nat) :
    Except Fault (Int × Machine) := do
  let buffer := machine.dev.buffer
  if writeCmd ≥ buffer.getCount then
    return (-einval, machine)
  else
    let index := machine.seekEntry writeCmd
    let entry ← buffer.entryAt index
    if writeCmdOffset ≥ entry.size then
      return (-einval, machine)
    else
      let newPos ← buffer.fposForEntry index writeCmdOffset
      match newPos with
      | none => return (-einval, machine)
      | some newPos => return (0, machine.setFPos file (loffT newPos))

def aesdIocMagic : Nat := 0x16
def aesdcharIocMaxnr : Nat := 1

/-- `_IOWR( AESD_IOC_MAGIC, 1, struct aesd_seekto )` with its eight bytes. -/
def aesdcharIocseekto : Nat := 3 <<< 30 ||| 8 <<< 16 ||| aesdIocMagic <<< 8 ||| 1

def iocType (cmd : Nat) : Nat := (cmd >>> 8) &&& 0xff
def iocNr (cmd : Nat) : Nat := cmd &&& 0xff

/-- `arg` is what the user's pointer points to, `uncopied` the outcome of
copying it. -/
def unlockedIoctl (machine : Machine) (file cmd : Nat) (arg : AesdSeekto) (uncopied : Nat) :
    Except Fault (Int × Machine) :=
  if iocType cmd ≠ aesdIocMagic then .ok (-enotty, machine)
  else if iocNr cmd > aesdcharIocMaxnr then .ok (-enotty, machine)
  else if cmd = aesdcharIocseekto then
    if uncopied ≠ 0 then .ok (-efault, machine)
    else machine.aesdAdjustFileOffset file arg.writeCmd arg.writeCmdOffset
  else .ok (-enotty, machine)

/-! ### aesd_init_module and aesd_cleanup_module -/

/-- `region` and `cdev` are the results of alloc_chrdev_region and cdev_add. -/
def aesdInitModule (machine : Machine) (region cdev : Int) : Int × Machine :=
  if region < 0 then (region, machine)
  else (cdev, { machine with
    dev := { buffer := .init, currentEntry := .zero, lock := false } })

/-- One round of the cleanup loop, with its `% ring_count`. -/
def cleanupSlot (ringCount : Nat) (machine : Machine) (i : Nat) : Except Fault Machine :=
  if ringCount = 0 then .error .divisionByZero
  else do
    let buffer := machine.dev.buffer
    let index := (buffer.outOffs + i) % ringCount
    let entry ← buffer.entryAt index
    let heap ← kfree machine.heap entry.buffptr
    let buffer ← buffer.setEntry index .zero
    return { machine with heap, dev := { machine.dev with buffer } }

def aesdCleanupModule (machine : Machine) : Except Fault Machine := do
  let heap ← kfree machine.heap machine.dev.currentEntry.buffptr
  let ringCount := machine.dev.buffer.getCount
  (List.range ringCount).foldlM (cleanupSlot ringCount) { machine with heap }

end Machine

/-! ### System calls -/

structure WriteCall where
  file : Nat
  buf : UserBuffer
  outcome : WriteOutcome

structure ReadCall where
  file : Nat
  count : Nat
  uncopied : Nat

inductive Call where
  | write (call : WriteCall)
  | read (call : ReadCall)
  | llseek (file : Nat) (offset : Int) (whence : Whence)
  | ioctl (file cmd : Nat) (arg : AesdSeekto) (uncopied : Nat)

/-- What the caller gets: the return value and, from a read, the bytes. -/
structure Reply where
  ret : Int
  data : List Byte
  deriving DecidableEq, Repr

namespace Machine

/-- write(2): VFS passes a copy of the position and stores it back on success. -/
def write (machine : Machine) (call : WriteCall) : Except Fault (Reply × Machine) := do
  let (ret, fPos, after) ← machine.aesdWrite call.buf (machine.fPos call.file) call.outcome
  return ({ ret, data := [] }, if ret ≥ 0 then after.setFPos call.file fPos else after)

/-- read(2), with the same handling of the position. -/
def read (machine : Machine) (call : ReadCall) : Except Fault (Reply × Machine) := do
  let (ret, data, fPos, after) ←
    machine.aesdRead call.count (machine.fPos call.file) call.uncopied
  return ({ ret, data }, if ret ≥ 0 then after.setFPos call.file fPos else after)

def call (machine : Machine) : Call → Except Fault (Reply × Machine)
  | .write call => machine.write call
  | .read call => machine.read call
  | .llseek file offset whence => do
      let (ret, after) ← machine.llseek file offset whence
      return ({ ret, data := [] }, after)
  | .ioctl file cmd arg uncopied => do
      let (ret, after) ← machine.unlockedIoctl file cmd arg uncopied
      return ({ ret, data := [] }, after)

/-- Calls one after another, with what each returned. -/
def run (machine : Machine) (calls : List Call) : Except Fault (List Reply × Machine) :=
  runCalls call machine calls

/-- The machine before the module is loaded: no block belongs to the driver. -/
def unloaded (fPos : Nat → Int) : Machine where
  dev := { buffer := .init, currentEntry := .zero, lock := false }
  heap := .empty
  fPos := fPos

/-- The machine after a successful aesd_init_module. -/
def initialized (fPos : Nat → Int) : Machine := ((unloaded fPos).aesdInitModule 0 0).2

end Machine

end Aesd.Driver
