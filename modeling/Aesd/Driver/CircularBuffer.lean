/-
The ring of write commands, aesd-circular-buffer.c.

A pointer to a slot of `entry` is the slot's index, `buffptr` is NULL or the
name of a kernel block, and `size_t` arithmetic is modulo 2^64.  An access
outside `entry` and a loop that does not end are faults: a run of the model
that meets one stands for undefined behaviour of the C code.  The three
traversals share their do-while walk; each keeps its own loop body.
-/

import Aesd.BoundedLoop
import Mathlib.Data.Vector.Basic

set_option autoImplicit false

namespace Aesd.Driver

open BoundedLoop

/-- Ways in which the C code could leave defined behaviour. -/
inductive Fault where
  | entryIndex (index : Nat)
  | endlessLoop
  | nullPointer
  | notAllocated (block : Nat)
  | outsideBlock (block offset count : Nat)
  | divisionByZero
  | lockHeld
  deriving DecidableEq, Repr

/-- The value of a `size_t` expression. -/
def sizeT (value : Nat) : Nat := value % 2 ^ 64

/-- Subtraction of two `size_t` values. -/
def sizeTSub (left right : Nat) : Nat := (left + (2 ^ 64 - right % 2 ^ 64)) % 2 ^ 64

theorem sizeT_of_lt {value : Nat} (small : value < 2 ^ 64) : sizeT value = value :=
  Nat.mod_eq_of_lt small

theorem sizeT_lt (value : Nat) : sizeT value < 2 ^ 64 := Nat.mod_lt _ (by norm_num)

theorem sizeTSub_of_le {left right : Nat} (ordered : right ≤ left) (small : left < 2 ^ 64) :
    sizeTSub left right = left - right := by
  unfold sizeTSub
  omega

abbrev aesdcharMaxWriteOperationsSupported : Nat := 10

structure AesdBufferEntry where
  buffptr : Option Nat
  size : Nat
  deriving DecidableEq, Repr

/-- A slot as memset leaves it: a NULL pointer and no bytes. -/
def AesdBufferEntry.zero : AesdBufferEntry := { buffptr := none, size := 0 }

structure AesdCircularBuffer where
  entry : Vector AesdBufferEntry aesdcharMaxWriteOperationsSupported
  inOffs : Nat
  outOffs : Nat
  full : Bool
  deriving DecidableEq, Repr

namespace AesdCircularBuffer

/-- `buffer->entry[index]` as a value. -/
def entryAt (buffer : AesdCircularBuffer) (index : Nat) : Except Fault AesdBufferEntry :=
  match buffer.entry[index]? with
  | some entry => .ok entry
  | none => .error (.entryIndex index)

/-- `buffer->entry[index] = entry`. -/
def setEntry (buffer : AesdCircularBuffer) (index : Nat) (entry : AesdBufferEntry) :
    Except Fault AesdCircularBuffer :=
  if index < aesdcharMaxWriteOperationsSupported then
    .ok { buffer with entry := buffer.entry.setIfInBounds index entry }
  else .error (.entryIndex index)

/-- The walk of the three traversals: from `out_offs` on, until `index` is back there. -/
def traverse {State Result : Type} (buffer : AesdCircularBuffer)
    (visit : State → Nat → Except Fault (Round State Result)) (finish : State → Result)
    (state : State) : Except Fault Result :=
  repeatRounds .endlessLoop
    (ringRound aesdcharMaxWriteOperationsSupported buffer.outOffs visit finish)
    aesdcharMaxWriteOperationsSupported (state, buffer.outOffs)

/-! ### aesd_circular_buffer_find_entry_offset_for_fpos -/

/-- The loop body; the state is `pos_bytes`. -/
def findVisit (buffer : AesdCircularBuffer) (charOffset : Nat) (posBytes index : Nat) :
    Except Fault (Round Nat (Option (Nat × Nat))) := do
  let entry ← buffer.entryAt index
  if charOffset < sizeT (posBytes + entry.size) then
    return .leave (some (index, sizeTSub charOffset posBytes))
  else
    return .next (sizeT (posBytes + entry.size))

/-- The slot and `*entry_offset_byte_rtn`, or `none` for NULL, when nothing is stored. -/
def findEntryOffsetForFpos (buffer : AesdCircularBuffer) (charOffset : Nat) :
    Except Fault (Option (Nat × Nat)) :=
  buffer.traverse (buffer.findVisit charOffset) (fun _ => none) 0

/-! ### aesd_circular_buffer_fpos_for_entry -/

/-- The loop body.  It leaves with `*fpos`, or with `none` for a return value
of 1, which leaves `*fpos` as it was. -/
def fposVisit (buffer : AesdCircularBuffer) (entry entryOffset : Nat) (posBytes index : Nat) :
    Except Fault (Round Nat (Option Nat)) := do
  if index = entry then
    let found ← buffer.entryAt entry
    if entryOffset ≥ found.size then
      return .leave none
    else
      return .leave (some (sizeT (posBytes + entryOffset)))
  else
    let visited ← buffer.entryAt index
    return .next (sizeT (posBytes + visited.size))

def fposForEntry (buffer : AesdCircularBuffer) (entry entryOffset : Nat) :
    Except Fault (Option Nat) :=
  buffer.traverse (buffer.fposVisit entry entryOffset) (fun _ => none) 0

/-! ### aesd_circular_buffer_get_count and aesd_circular_buffer_get_size -/

def getCount (buffer : AesdCircularBuffer) : Nat :=
  if buffer.full = false then
    if buffer.outOffs ≤ buffer.inOffs then buffer.inOffs - buffer.outOffs
    else (buffer.inOffs + aesdcharMaxWriteOperationsSupported) - buffer.outOffs
  else aesdcharMaxWriteOperationsSupported

/-- The loop body; the state is `size`. -/
def sizeVisit (buffer : AesdCircularBuffer) (size index : Nat) :
    Except Fault (Round Nat Nat) := do
  let entry ← buffer.entryAt index
  return .next (sizeT (size + entry.size))

def getSize (buffer : AesdCircularBuffer) : Except Fault Nat :=
  buffer.traverse buffer.sizeVisit id 0

/-! ### aesd_circular_buffer_add_entry and aesd_circular_buffer_init -/

def addEntry (buffer : AesdCircularBuffer) (entry : AesdBufferEntry) :
    Except Fault AesdCircularBuffer := do
  let entryCount := buffer.getCount
  let stored ← buffer.setEntry buffer.inOffs entry
  let inOffs := (buffer.inOffs + 1) % aesdcharMaxWriteOperationsSupported
  if entryCount < aesdcharMaxWriteOperationsSupported then
    if entryCount + 1 = aesdcharMaxWriteOperationsSupported then
      return { stored with inOffs, full := true }
    else
      return { stored with inOffs }
  else
    return { stored with inOffs, outOffs := inOffs }

def init : AesdCircularBuffer where
  entry := Vector.replicate aesdcharMaxWriteOperationsSupported .zero
  inOffs := 0
  outOffs := 0
  full := false

end AesdCircularBuffer

end Aesd.Driver
